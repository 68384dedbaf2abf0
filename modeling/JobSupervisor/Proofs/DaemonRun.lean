import JobSupervisor.Proofs.DaemonLoops

/-!
# The daemon runs every accepted configuration

A configuration that was accepted is prepared, started and run, as far as the host lets the
daemon listen.  The one value that no check keeps from doing harm is the length of a lease: if
it reaches beyond what the clock can hold, every tick fails and every loop is lost at its first
one.

## Main definitions

* `Daemon.Overlong` — the lease of a configuration is too long for the clock.
* `Daemon.runs_of_accepted` — what an accepted configuration makes of the daemon.
* `Daemon.lost_of_longLease` — an accepted configuration whose loop is lost.
-/

namespace JobSupervisor

/-- Whether a text is accepted as a configuration can be computed. -/
instance (text : String) (c : Configuration) : Decidable (Configuration.ofText text = .ok c) :=
  decidable_of_iff ((Configuration.ofText text).toOption = some c) (by
    cases Configuration.ofText text <;> simp [Except.toOption])

namespace Daemon

open Config Session

variable {c : Configuration}

/-- The lease of a configuration that uses the lock reaches beyond what the clock can hold. -/
def Overlong (c : Configuration) (now : Instant) : Prop :=
  c.lock.enabled = true ∧
    Instant.horizon * 1000000000 ≤ (now.after (.ofSecs c.lock.leaseSecs)).nanos

theorem overflows_iff (c : Configuration) (now : Instant) :
    (policyOf c).Overflows (.ofSecs c.lock.leaseSecs) now ↔ Overlong c now := by
  simp only [LockPolicy.Overflows, Overlong, policyOf]
  split <;> simp_all

/-! ## Starting -/

/-- The scheduler of a configuration with its jobs registered. -/
def fullScheduler (c : Configuration) : Scheduler Work :=
  { schedulerOf c with jobs := (enabledJobs c).map configuredJob }

theorem configured_fullScheduler (c : Configuration) : Configured (fullScheduler c) := by
  intro j hj
  obtain ⟨e, -, rfl⟩ := List.mem_map.1 hj
  exact ⟨e, rfl⟩

theorem Prepared.steady_startLoops {x : Session} (h : Prepared c x) :
    (x.startLoops 0).2.Steady (fullScheduler c) := by
  refine Steady.startLoops (fun l hl => ?_) h.scheduler 0
  simp [h.loops] at hl

/-- An address is listened at as the host allows. -/
theorem listen_of_parse? {address : String} {a : Net.SocketAddress}
    (h : Net.SocketAddress.parse? address = some a) : listen address = Host.Listener.bind a := by
  simp [listen, h]

/-- A prepared daemon starts, unless the host does not let it listen. -/
theorem start_of_prepared {x : Session} (hx : prepare c = .ok x) :
    start c = .ok (x.startLoops 0).2 ∨
      start c = .ok (serve c.health.bindAddress (x.startLoops 0).2) ∨
      ∃ e, c.health.enabled = true ∧ listen c.health.bindAddress = .error e ∧
        start c = .error (complaint e.detail, (x.startLoops 0).2) := by
  simp only [start, hx]
  split
  · split
    · exact .inr (.inl rfl)
    · rename_i e he
      exact .inr (.inr ⟨e, ‹_›, he, rfl⟩)
  · exact .inl rfl

theorem advances_serve (address : String) (x : Session) : x.Advances (serve address x) :=
  ⟨rfl, rfl, Nat.le_refl _⟩

/-- The loops of a daemon that has started are steady. -/
theorem steady_start (hc : c.Valid) {x : Session} (hx : start c = .ok x) :
    x.Steady (fullScheduler c) := by
  obtain ⟨y, hy, hprepared⟩ := prepare_of_valid hc
  rcases start_of_prepared hy with h | h | ⟨e, -, -, h⟩
  · obtain rfl := Except.ok.inj (h.symm.trans hx)
    exact hprepared.steady_startLoops
  · obtain rfl := Except.ok.inj (h.symm.trans hx)
    exact hprepared.steady_startLoops.advances (advances_serve _ _)
  · exact absurd (h.symm.trans hx) (by simp)

/-! ## Running and stopping -/

theorem Steady.attend {s : Scheduler Work} {x : Session} (h : x.Steady s) (hs : Configured s)
    (awaited : List (String × Nat)) (v : Sight) : (attend awaited v x).Steady s :=
  (h.passTo hs (fun _ => false) _).passTo hs (isMet awaited v) _

theorem advances_triggerShutdown (i : Nat) (x : Session) : x.Advances (x.triggerShutdown i) := by
  simp only [triggerShutdown]
  split <;> exact ⟨rfl, rfl, Nat.le_refl _⟩

/-- A stop signal loses no loop. -/
theorem Steady.receiveSignal {s : Scheduler Work} {x : Session} (h : x.Steady s)
    (signal : Log.StopSignal) (i : Nat) : (x.receiveSignal signal i).2.Steady s :=
  (h.advances (Advances.trans (y := (x.emit (.signalReceived signal)).emit .shutdownRequested)
    ⟨rfl, rfl, Nat.le_refl _⟩ (advances_triggerShutdown i _))).react

/-- Loops are lost only over their lease. -/
theorem overflows_of_lostLoops {s : Scheduler Work} {x : Session} (h : x.Steady s)
    (hlost : lostLoops x ≠ []) : s.policy.Overflows s.lease x.supervisor.clock := by
  obtain ⟨l, hl⟩ := List.exists_mem_of_ne_nil _ hlost
  obtain ⟨hmem, hphase⟩ := List.mem_filter.1 hl
  exact (h l hmem).lost (by simpa using hphase)

/-- **The daemon runs every accepted configuration.**  All its enabled jobs are registered in
their order, with a record for each and no other, and no address of the exporter is logged as
unreadable.  The addresses that are used are addresses, and starting fails only where the host
does not let the daemon listen.  Asking for the configured lease fails exactly if the lock is
used and the lease reaches beyond what the clock can hold, and no loop that the daemon waits for
in the end was lost unless that is so. -/
theorem runs_of_accepted {text : String} (h : Configuration.ofText text = .ok c) :
    (∃ x, prepare c = .ok x ∧
      x.scheduler.jobs = (c.jobs.filter (·.enabled)).map configuredJob ∧
      (∀ name, (x.supervisor.registry.lookup name).isSome = true ↔
        ∃ j ∈ c.jobs, j.enabled = true ∧ j.name = name) ∧
      (∀ name other id, x.supervisor.registry.lookup name = some id →
        x.supervisor.registry.lookup other = some id → name = other) ∧
      x.supervisor.registry.cells.length = (c.jobs.filter (·.enabled)).length ∧
      ∀ e ∈ x.supervisor.journal, ∀ address reason,
        e.event ≠ .metricsAddressUnreadable address reason) ∧
    (c.observability.metricsEnabled = true →
      ∃ a, Net.SocketAddress.parse? c.observability.metricsAddress = some a) ∧
    (c.health.enabled = true → ∃ a, Net.SocketAddress.parse? c.health.bindAddress = some a ∧
      listen c.health.bindAddress = Host.Listener.bind a) ∧
    (∀ complaint x, start c = .error (complaint, x) → c.health.enabled = true ∧
      ∃ a e, Net.SocketAddress.parse? c.health.bindAddress = some a ∧
        Host.Listener.bind a = .error e) ∧
    (∀ name s, (Fire.request (policyOf c) (.ofSecs c.lock.leaseSecs) name s).1 = .overflow ↔
      Overlong c s.clock) ∧
    (∀ x, start c = .ok x → ∀ awaited v signal,
      lostLoops ((attend awaited v x).receiveSignal signal 0).2 ≠ [] →
        Overlong c ((attend awaited v x).receiveSignal signal 0).2.supervisor.clock) := by
  have hc := Configuration.valid_of_ofText h
  obtain ⟨x, hx, hprepared⟩ := prepare_of_valid hc
  have hrecords := hprepared.hasExactly hc
  have hbind : c.health.enabled = true → ∃ a,
      Net.SocketAddress.parse? c.health.bindAddress = some a ∧
        listen c.health.bindAddress = Host.Listener.bind a := fun henabled => by
    obtain ⟨a, ha⟩ := Option.isSome_iff_exists.1 (hc.bind_address henabled)
    exact ⟨a, ha, listen_of_parse? ha⟩
  refine ⟨⟨x, hx, ?_, fun name => ?_, hrecords.separate, ?_, hprepared.readable⟩, fun henabled =>
    Option.isSome_iff_exists.1 (hc.metrics_address henabled), hbind, fun text y hy => ?_,
    fun name s => ?_, fun y hy awaited v signal hlost => ?_⟩
  · rw [hprepared.scheduler]
    rfl
  · rw [hrecords.lookup_iff]
    simp [enabledJobs, and_assoc]
  · rw [hrecords.length, List.length_map]
    rfl
  · rcases start_of_prepared hx with hs | hs | ⟨e, henabled, he, -⟩
    · exact absurd (hs.symm.trans hy) (by simp)
    · exact absurd (hs.symm.trans hy) (by simp)
    · obtain ⟨a, ha, hlisten⟩ := hbind henabled
      exact ⟨henabled, a, e, ha, hlisten.symm.trans he⟩
  · rw [Fire.request_overflow_iff, overflows_iff]
  · have hsteady := Steady.receiveSignal
      (Steady.attend (steady_start hc hy) (configured_fullScheduler c) awaited v) signal 0
    exact (overflows_iff c _).1 (overflows_of_lostLoops hsteady hlost)

/-- A daemon with one job that runs every minute. -/
def everyMinuteText : String := "[health]\nenabled = false\n[[jobs]]\nname = \"a\"\n"

/-- The configuration with one job that runs every minute. -/
def everyMinute : Configuration :=
  { Configuration.default with
    health := ⟨false, "0.0.0.0:8080"⟩
    jobs := [{ JobEntry.default with name := "a" }] }

/-- The daemon prepares a job that runs every minute, and its first tick gets a lease. -/
theorem runs_of_accepted_everyMinute :
    Configuration.ofText everyMinuteText = .ok everyMinute ∧
      (∃ x, prepare everyMinute = .ok x ∧ (x.supervisor.registry.lookup "a").isSome = true ∧
        x.supervisor.registry.cells.length = 1) ∧
      (Fire.request (policyOf everyMinute) (.ofSecs everyMinute.lock.leaseSecs) "a"
        .initial).1 ≠ .overflow := by
  have h : Configuration.ofText everyMinuteText = .ok everyMinute := by decide +kernel
  obtain ⟨⟨x, hx, -, hlookup, -, hlength, -⟩, -, -, -, hrequest, -⟩ := runs_of_accepted h
  refine ⟨h, ⟨x, hx, (hlookup "a").2 (by decide), hlength⟩, fun hover => ?_⟩
  exact absurd ((hrequest "a" .initial).1 hover).2 (by decide)

/-- A daemon with the longest lease that can be written down. -/
def longLeaseText : String :=
  "[health]\nenabled = false\n[lock]\nlease_secs = 9223372036854775807\n" ++
    "[[jobs]]\nname = \"a\"\n"

/-- The configuration with the longest lease. -/
def longLease : Configuration :=
  { everyMinute with lock := ⟨true, 9223372036854775807⟩ }

/-- The configuration is accepted, and the loop of its job is lost at its first tick. -/
theorem lost_of_longLease :
    ∃ c x, Configuration.ofText longLeaseText = .ok c ∧ start c = .ok x ∧
      lostLoops (x.pass ⟨0⟩) ≠ [] := by
  have hlost : (start longLease).toOption.map (fun x => (lostLoops (x.pass ⟨0⟩)).length) =
      some 1 := by decide +kernel
  cases hx : start longLease with
  | error e => simp [hx, Except.toOption] at hlost
  | ok x =>
      refine ⟨longLease, x, by decide +kernel, hx, fun hnil => ?_⟩
      simp [hx, hnil, Except.toOption] at hlost

end Daemon

end JobSupervisor
