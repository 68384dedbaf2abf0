import JobSupervisor.Proofs.DaemonLoops
import JobSupervisor.Proofs.LoopFlights

/-!
# No job overlaps itself

A loop takes no tick while it awaits a fire, so a loop has at most one fire under way.  If the
jobs of a scheduler have distinct names, a name has at most one loop, and an entry in the lease
table can only belong to the one fire of its name that is under way.  A fire that asks therefore
finds the table without an entry of its name, expired or not.  This does not depend on how long
runs take, on the length of the leases, or on the lock being used at all.

## Main definitions

* `Flight.Course` — how far a fire is and what came of asking.
* `Flight.Kept` — what a step does to a fire and to what it shares with the others.
* `Fleet.Sound`, `Fleet.Sound.step`, `Fleet.Sound.run` — the invariant.
* `Fleet.Solitary`, `Fleet.Sound.solitary` — a name has one fire under way, a tick finds the name
  free, and a fire is granted its lease.
-/

namespace JobSupervisor

variable {β : Type}

/-! ## How far a fire is -/

namespace FlightStage

/-- The lock has not answered yet. -/
def isAsking : FlightStage → Bool
  | .asking | .clocked _ | .drawn _ _ => true
  | .refused | .granted _ | .running _ _ | .ended _ _ _ | .settled _ | .returned _ | .closed _
  | .landed _ => false

/-- The fire was granted a lease. -/
def isGranted : FlightStage → Bool
  | .granted _ | .running _ _ | .ended _ _ _ | .settled _ | .returned _ | .closed .ran
  | .landed .ran => true
  | .asking | .clocked _ | .drawn _ _ | .refused | .closed _ | .landed _ => false

/-- The lease was too long for the clock. -/
def isLost : FlightStage → Bool
  | .closed .overflow | .landed .overflow => true
  | .asking | .clocked _ | .drawn _ _ | .refused | .granted _ | .running _ _ | .ended _ _ _
  | .settled _ | .returned _ | .closed _ | .landed _ => false

/-- How many steps it takes at most until the lock has answered. -/
def asks : FlightStage → Nat
  | .asking => 3
  | .clocked _ => 2
  | .drawn _ _ => 1
  | .refused | .granted _ | .running _ _ | .ended _ _ _ | .settled _ | .returned _ | .closed _
  | .landed _ => 0

theorem asks_le (stage : FlightStage) : stage.asks ≤ 3 := by
  cases stage <;> simp [asks]

theorem isAsking_eq_false_iff {stage : FlightStage} : stage.isAsking = false ↔ stage.asks = 0 := by
  cases stage <;> simp [isAsking, asks]

theorem isAwaited_of_isAsking {stage : FlightStage} (h : stage.isAsking = true) :
    stage.isAwaited = true := by
  cases stage <;> first | rfl | cases h

theorem lease?_of_isAsking {stage : FlightStage} (h : stage.isAsking = true) :
    stage.lease? = none := by
  cases stage <;> first | rfl | cases h

theorem isGranted_of_lease? {stage : FlightStage} {l : Lease} (h : stage.lease? = some l) :
    stage.isGranted = true := by
  cases stage <;> first | rfl | cases h

end FlightStage

/-- How far a fire is and what came of asking: it is never refused, and takes over no lease. -/
inductive Flight.Course (c : Scheduler β) (clock : Instant) (f : Flight) : Prop where
  | asking (stage : f.stage.isAsking = true) (admission : f.admission = none)
  | granted (stage : f.stage.isGranted = true) (admission : f.admission = some (.granted false))
  | lost (stage : f.stage.isLost = true) (admission : f.admission = none)
      (long : c.policy.Overflows c.lease clock)

/-- What holds of a fire that a loop of a scheduler has begun. -/
structure Flight.Sound (c : Scheduler β) (clock : Instant) (f : Flight) : Prop where
  policy : f.policy = c.policy
  lease : f.lease = c.lease
  course : f.Course c clock
  /-- Only a fire that has a lock to ask reads the clock, and the reading is not ahead of it. -/
  reading : ∀ now, f.stage = .clocked now → f.policy ≠ .unlocked ∧ now.nanos ≤ clock.nanos
  /-- A lease is detached, or stands in the table under the name of the job. -/
  held : ∀ l, f.stage.lease? = some l → l = .detached ∨ ∃ token, l = f.holds token

namespace Flight

variable {c : Scheduler β} {clock : Instant} {f : Flight} {s : Supervisor}

/-- Each step of its own brings a fire closer to its answer. -/
theorem asks_next (f : Flight) (s : Supervisor) :
    (f.advance .next s).1.stage.asks ≤ f.stage.asks - 1 := by
  change (f.next s).1.stage.asks ≤ _
  unfold next
  split <;> rename_i hf <;> rw [hf]
  · split <;> simp [FlightStage.asks]
  · simp only [draw]
    split <;> simp [FlightStage.asks]
  · simp only [enter]
    split <;> simp [FlightStage.asks]
  all_goals simp [FlightStage.asks, work]

theorem clock_advance (a : Step) (f : Flight) (s : Supervisor) :
    (f.advance a s).2.clock = s.clock := by
  have hadvance := f.advance_advance a s
  generalize f.advance a s = x at hadvance
  cases hadvance with
  | rest | free | read | skip | giveBack => rfl
  | draw =>
      simp only [draw]
      split <;> rfl
  | enter =>
      simp only [enter]
      split
      · rfl
      · split <;> rfl
  | work _ _ hkeeps | complete _ hkeeps => exact hkeeps.clock

theorem holds_injective (f : Flight) : Function.Injective f.holds := by
  intro a b h
  simp only [holds] at h
  split at h <;> cases h <;> rfl

theorem holds_ne_detached (f : Flight) (token : Token) : f.holds token ≠ .detached := by
  simp only [holds]
  split <;> simp

theorem giveBack_holds (f : Flight) (token : Token) (t : LeaseTable) :
    t.giveBack (f.holds token) = t.release f.job.name token := by
  simp only [holds]
  split <;> rfl

/-- A fire that finds no entry of its name is granted the lease and takes nothing over. -/
theorem enter_of_get?_eq_none {now : Instant} {h : Holding}
    (hfree : s.leases.held.get? f.job.name = none) :
    f.enter now h s =
      ({ f with stage := .granted (f.holds h.token), admission := some (.granted false) },
        { s with leases := { s.leases with held := s.leases.held.insert f.job.name h } }) := by
  simp [enter, LeaseTable.enter, hfree, holds]

theorem Sound.admission_of_isAsking (hf : f.Sound c clock) (h : f.stage.isAsking = true) :
    f.admission = none := by
  cases hf.course with
  | asking _ hadmission => exact hadmission
  | granted hstage _ =>
      cases hs : f.stage <;> simp_all [FlightStage.isAsking, FlightStage.isGranted]
  | lost _ hadmission _ => exact hadmission

theorem Sound.admission_of_isGranted (hf : f.Sound c clock) (h : f.stage.isGranted = true) :
    f.admission = some (.granted false) := by
  cases hf.course with
  | asking hstage _ =>
      cases hs : f.stage <;> simp_all [FlightStage.isAsking, FlightStage.isGranted]
  | granted _ hadmission => exact hadmission
  | lost hstage _ _ =>
      revert h hstage
      cases f.stage with
      | closed fired | landed fired =>
          cases fired <;> simp [FlightStage.isLost, FlightStage.isGranted]
      | _ => simp [FlightStage.isLost]

theorem Sound.stage_ne_refused (hf : f.Sound c clock) : f.stage ≠ .refused := by
  intro h
  cases hf.course with
  | asking hstage _ | granted hstage _ | lost hstage _ _ => rw [h] at hstage; cases hstage

/-- What holds of a fire still holds later. -/
theorem Sound.mono (hf : f.Sound c clock) {later : Instant} (hle : clock.nanos ≤ later.nanos) :
    f.Sound c later := by
  refine { hf with course := ?_, reading := fun now h => ?_ }
  · cases hf.course with
    | asking hstage hadmission => exact .asking hstage hadmission
    | granted hstage hadmission => exact .granted hstage hadmission
    | lost hstage hadmission hlong => exact .lost hstage hadmission (hlong.mono hle)
  · exact ⟨(hf.reading now h).1, Nat.le_trans (hf.reading now h).2 hle⟩

/-- A fire that is at its beginning. -/
theorem sound_begin (loop : Nat) (job : Descriptor) (thread : Thread) :
    (begin loop job c.policy c.lease thread).Sound c clock where
  policy := rfl
  lease := rfl
  course := .asking rfl rfl
  reading := fun _ h => by cases h
  held := fun _ h => by cases h

/-- A fire that has come to a stage at which it holds what the table knows. -/
theorem Sound.granted (hf : f.Sound c clock) {f' : Flight} (hpolicy : f'.policy = f.policy)
    (hlease : f'.lease = f.lease) (hstage : f'.stage.isGranted = true)
    (hadmission : f'.admission = some (.granted false))
    (hheld : ∀ l, f'.stage.lease? = some l → l = .detached ∨ ∃ token, l = f'.holds token) :
    f'.Sound c clock where
  policy := hpolicy.trans hf.policy
  lease := hlease.trans hf.lease
  course := .granted hstage hadmission
  reading := fun _ h => by rw [h] at hstage; cases hstage
  held := hheld

/-- What a step does to a fire and to what it shares with the others. -/
structure Kept (c : Scheduler β) (f : Flight) (s : Supervisor) (f' : Flight) (s' : Supervisor) :
    Prop where
  sound : f'.Sound c s'.clock
  loop : f'.loop = f.loop
  job : f'.job = f.job
  awaited : f'.stage.isAwaited = true → f.stage.isAwaited = true
  clock : s'.clock = s.clock
  skipped : ∀ name, (s'.metrics.series name).skipped = (s.metrics.series name).skipped
  /-- An entry of the table belongs to the fire, or was there and did not belong to it. -/
  entries : ∀ name h, s'.leases.held.get? name = some h →
    (name = f'.job.name ∧ f'.stage.lease? = some (f'.holds h.token)) ∨
      (s.leases.held.get? name = some h ∧
        (name = f.job.name → f.stage.lease? ≠ some (f.holds h.token)))

/-- While the table stays as it is and the fire keeps its lease, entries belong to whom they
belonged. -/
theorem entries_of_held_eq {f' : Flight} {s' : Supervisor} (hjob : f'.job = f.job)
    (hheld : s'.leases.held = s.leases.held)
    (hkept : ∀ token, f.stage.lease? = some (f.holds token) →
      f'.stage.lease? = some (f'.holds token)) (name : String) (h : Holding)
    (hget : s'.leases.held.get? name = some h) :
    (name = f'.job.name ∧ f'.stage.lease? = some (f'.holds h.token)) ∨
      (s.leases.held.get? name = some h ∧
        (name = f.job.name → f.stage.lease? ≠ some (f.holds h.token))) := by
  rw [hheld] at hget
  by_cases hown : name = f.job.name ∧ f.stage.lease? = some (f.holds h.token)
  · exact .inl ⟨hjob ▸ hown.1, hkept _ hown.2⟩
  · exact .inr ⟨hget, fun hname hlease => hown ⟨hname, hlease⟩⟩

/-- A step of a fire that has no lease in the table keeps what holds, if it leaves the entries
alone. -/
theorem kept_of_no_lease {f' : Flight} {s' : Supervisor} (hnone : f.stage.lease? = none)
    (hsound : f'.Sound c s'.clock) (hloop : f'.loop = f.loop) (hjob : f'.job = f.job)
    (hawaited : f'.stage.isAwaited = true → f.stage.isAwaited = true)
    (hclock : s'.clock = s.clock)
    (hskipped : ∀ name, (s'.metrics.series name).skipped = (s.metrics.series name).skipped)
    (hheld : s'.leases.held = s.leases.held) : Kept c f s f' s' where
  sound := hsound
  loop := hloop
  job := hjob
  awaited := hawaited
  clock := hclock
  skipped := hskipped
  entries := entries_of_held_eq hjob hheld fun token h => by
    rw [hnone] at h
    cases h

theorem Sound.kept_free (hf : f.Sound c s.clock) (hstage : f.stage = .asking) :
    Kept c f s
      { f with stage := .granted .detached, admission := some (.granted false) } s := by
  have hnone : f.stage.lease? = none := by rw [hstage]; rfl
  refine kept_of_no_lease hnone ?_ rfl rfl (fun _ => by rw [hstage]; rfl) rfl (fun _ => rfl) rfl
  exact hf.granted rfl rfl rfl rfl fun l hl => .inl (Option.some.inj hl).symm

theorem Sound.kept_read (hf : f.Sound c s.clock) (hstage : f.stage = .asking)
    (hpolicy : f.policy ≠ .unlocked) : Kept c f s { f with stage := .clocked s.clock } s := by
  have hnone : f.stage.lease? = none := by rw [hstage]; rfl
  refine kept_of_no_lease hnone ?_ rfl rfl (fun _ => by rw [hstage]; rfl) rfl (fun _ => rfl) rfl
  exact
    { policy := hf.policy
      lease := hf.lease
      course := .asking rfl (hf.admission_of_isAsking (by rw [hstage]; rfl))
      reading := fun now h => by
        obtain rfl := FlightStage.clocked.inj h
        exact ⟨hpolicy, Nat.le_refl _⟩
      held := fun _ h => by cases h }

/-- A lease that does not fit when the token is drawn does not fit the clock. -/
theorem Sound.kept_draw (hf : f.Sound c s.clock) {now : Instant} (hstage : f.stage = .clocked now) :
    Kept c f s (f.draw now s).1 (f.draw now s).2 := by
  have hadmission : f.admission = none := hf.admission_of_isAsking (by rw [hstage]; rfl)
  have hnone : f.stage.lease? = none := by rw [hstage]; rfl
  have hawaited : f.stage.isAwaited = true := by rw [hstage]; rfl
  obtain ⟨hpolicy, hle⟩ := hf.reading now hstage
  cases hl : now.later? f.lease with
  | some expiresAt =>
      simp only [draw, hl]
      refine kept_of_no_lease hnone ?_ rfl rfl (fun _ => hawaited) rfl (fun _ => rfl) rfl
      exact
        { policy := hf.policy
          lease := hf.lease
          course := .asking rfl hadmission
          reading := fun _ h => by cases h
          held := fun _ h => by cases h }
  | none =>
      have hlong : c.policy.Overflows c.lease s.clock := by
        have hnow : c.policy.Overflows c.lease now :=
          ⟨hf.policy ▸ hpolicy, hf.lease ▸ Instant.later?_eq_none_iff.1 hl⟩
        exact hnow.mono hle
      simp only [draw, hl]
      refine kept_of_no_lease hnone ?_ rfl rfl (fun _ => hawaited) rfl (fun _ => rfl) rfl
      exact
        { policy := hf.policy
          lease := hf.lease
          course := .lost rfl hadmission hlong
          reading := fun _ h => by cases h
          held := fun _ h => by cases h }

theorem Sound.kept_enter (hf : f.Sound c s.clock) {now : Instant} {h : Holding}
    (hstage : f.stage = .drawn now h) (hfree : s.leases.held.get? f.job.name = none) :
    Kept c f s (f.enter now h s).1 (f.enter now h s).2 := by
  rw [enter_of_get?_eq_none hfree]
  refine
    { sound := hf.granted rfl rfl rfl rfl fun l hl => .inr ⟨h.token, (Option.some.inj hl).symm⟩
      loop := rfl
      job := rfl
      awaited := fun _ => by rw [hstage]; rfl
      clock := rfl
      skipped := fun _ => rfl
      entries := fun name g hget => ?_ }
  simp only [NameMap.get?_insert] at hget
  split at hget
  · rename_i hname
    obtain rfl := Option.some.inj hget
    exact .inl ⟨hname.symm, rfl⟩
  · rename_i hname
    exact .inr ⟨hget, fun heq => absurd heq.symm hname⟩

theorem Sound.kept_work (hf : f.Sound c s.clock) {l : Lease} {stage : FlightStage}
    {s' : Supervisor} (hbefore : f.stage.lease? = some l) (hafter : stage.lease? = some l)
    (hkeeps : s.Keeps s') (thread : Thread) :
    Kept c f s { f with thread := thread, stage := stage } s' where
  sound := by
    rw [hkeeps.clock]
    refine hf.granted rfl rfl (FlightStage.isGranted_of_lease? hafter)
      (hf.admission_of_isGranted (FlightStage.isGranted_of_lease? hbefore)) fun l' hl' => ?_
    exact hf.held l' (hbefore.trans (hafter.symm.trans hl'))
  loop := rfl
  job := rfl
  awaited := fun _ => FlightStage.isAwaited_of_lease? hbefore
  clock := hkeeps.clock
  skipped := hkeeps.skipped
  entries := entries_of_held_eq rfl (by rw [hkeeps.leases]) fun token h =>
    hafter.trans (hbefore.symm.trans h)

theorem Sound.kept_giveBack (hf : f.Sound c s.clock) {l : Lease} (hstage : f.stage = .settled l) :
    Kept c f s { f with stage := .returned l } (s.giveBack l) where
  sound := hf.granted rfl rfl rfl (hf.admission_of_isGranted (by rw [hstage]; rfl))
    fun _ h => by cases h
  loop := rfl
  job := rfl
  awaited := fun _ => by rw [hstage]; rfl
  clock := rfl
  skipped := fun _ => rfl
  entries := fun name h hget => by
    have hlease : f.stage.lease? = some l := by rw [hstage]; rfl
    rw [hlease]
    rcases hf.held l hlease with rfl | ⟨token, rfl⟩
    · exact .inr ⟨hget, fun _ heq => f.holds_ne_detached _ (Option.some.inj heq).symm⟩
    · simp only [Supervisor.giveBack, giveBack_holds] at hget
      obtain ⟨hget, htoken⟩ := LeaseTable.get?_of_get?_release hget
      exact .inr ⟨hget, fun hname heq =>
        htoken hname (f.holds_injective (Option.some.inj heq)).symm⟩

theorem Sound.kept_complete (hf : f.Sound c s.clock) {l : Lease} (hstage : f.stage = .returned l)
    {s' : Supervisor} (hkeeps : s.Keeps s') : Kept c f s { f with stage := .closed .ran } s' := by
  have hnone : f.stage.lease? = none := by rw [hstage]; rfl
  refine kept_of_no_lease hnone ?_ rfl rfl (fun _ => by rw [hstage]; rfl) hkeeps.clock
    hkeeps.skipped (by rw [hkeeps.leases])
  rw [hkeeps.clock]
  exact hf.granted rfl rfl rfl (hf.admission_of_isGranted (by rw [hstage]; rfl))
    fun _ h => by cases h

/-- Of a fire that is over the same holds when its loop has gone on. -/
theorem Sound.kept_land (hf : f.Sound c s.clock) {fired : Fired}
    (hstage : f.stage = .closed fired) : Kept c f s { f with stage := .landed fired } s := by
  have hnone : f.stage.lease? = none := by rw [hstage]; rfl
  refine kept_of_no_lease hnone ?_ rfl rfl (fun h => by cases h) rfl (fun _ => rfl) rfl
  refine
    { policy := hf.policy
      lease := hf.lease
      course := ?_
      reading := fun _ h => by cases h
      held := fun _ h => by cases h }
  cases hf.course with
  | asking h _ => rw [hstage] at h; cases h
  | granted h hadmission =>
      rw [hstage] at h
      exact .granted (by cases fired <;> first | rfl | cases h) hadmission
  | lost h hadmission hlong =>
      rw [hstage] at h
      exact .lost (by cases fired <;> first | rfl | cases h) hadmission hlong

/-- Every step of a fire keeps what holds of it, if the fire finds no entry of its name when it
enters the table. -/
theorem Sound.kept_advance (hf : f.Sound c s.clock)
    (hfree : f.stage.isAsking = true → s.leases.held.get? f.job.name = none) (a : Step) :
    Kept c f s (f.advance a s).1 (f.advance a s).2 := by
  have hadvance := f.advance_advance a s
  generalize f.advance a s = x at hadvance
  cases hadvance with
  | rest =>
      exact ⟨hf, rfl, rfl, id, rfl, fun _ => rfl, entries_of_held_eq rfl rfl fun _ h => h⟩
  | free hstage _ => exact hf.kept_free hstage
  | read hstage hpolicy => exact hf.kept_read hstage hpolicy
  | draw hstage => exact hf.kept_draw hstage
  | enter hstage => exact hf.kept_enter hstage (hfree (by rw [hstage]; rfl))
  | skip hstage => exact absurd hstage hf.stage_ne_refused
  | work hbefore hafter hkeeps => exact hf.kept_work hbefore hafter hkeeps _
  | giveBack hstage => exact hf.kept_giveBack hstage
  | complete hstage hkeeps => exact hf.kept_complete hstage hkeeps

end Flight

namespace Fleet

/-- The invariant. -/
structure Sound (c : Scheduler β) (s : Fleet β) : Prop where
  /-- The loops have the jobs of the scheduler, in their order. -/
  seats : s.loops.seats = c.jobs.map fun j => (j, c.policy, c.lease)
  sound : ∀ (k : Nat) (f : Flight), s.flights[k]? = some f → f.Sound c s.supervisor.clock
  /-- A loop takes no tick while it awaits a fire. -/
  busy : ∀ (k : Nat) (f : Flight), s.flights[k]? = some f → f.stage.isAwaited = true →
    ∃ t : LoopTask β, s.loops.tasks[f.loop]? = some t ∧ t.running = true ∧
      t.loop.job.descriptor = f.job
  /-- A loop awaits one fire at a time. -/
  apart : ∀ (k k' : Nat) (f f' : Flight), s.flights[k]? = some f → s.flights[k']? = some f' →
    f.stage.isAwaited = true → f'.stage.isAwaited = true → f.loop = f'.loop → k = k'
  /-- Every entry of the table belongs to a fire. -/
  entries : ∀ name h, s.supervisor.leases.held.get? name = some h →
    ∃ (k : Nat) (f : Flight), s.flights[k]? = some f ∧ f.job.name = name ∧
      f.stage.lease? = some (f.holds h.token)
  /-- No skipped run is counted. -/
  skipped : ∀ name, (s.supervisor.metrics.series name).skipped = 0

variable {c : Scheduler β} {s : Fleet β} {k k' i : Nat} {f f' : Flight} {t : LoopTask β}

/-- The place of a loop is that of its job. -/
theorem Sound.jobs_getElem? (hs : s.Sound c) (hi : s.loops.tasks[i]? = some t) :
    c.jobs[i]? = some t.loop.job ∧ t.loop.policy = c.policy ∧ t.loop.lease = c.lease := by
  have hseat := congrArg (·[i]?) hs.seats
  simp only [LoopSystem.seats, List.getElem?_map, hi, Option.map_some] at hseat
  obtain ⟨j, hj, heq⟩ := Option.map_eq_some_iff.1 hseat.symm
  obtain ⟨rfl, hrest⟩ := Prod.mk.inj heq
  obtain ⟨hpolicy, hlease⟩ := Prod.mk.inj hrest
  exact ⟨hj, hpolicy.symm, hlease.symm⟩

/-- The jobs of a scheduler have distinct names. -/
def Named (c : Scheduler β) : Prop := (c.jobs.map fun j => j.descriptor.name).Nodup

theorem Named.eq_of_name (h : Named c) {i i' : Nat} {j j' : ScheduledJob β}
    (hi : c.jobs[i]? = some j) (hi' : c.jobs[i']? = some j')
    (hname : j.descriptor.name = j'.descriptor.name) : i = i' := by
  have hlt : i < (c.jobs.map fun j => j.descriptor.name).length := by
    rw [List.length_map]
    exact (List.getElem?_eq_some_iff.1 hi).1
  refine (List.getElem?_inj hlt h).1 ?_
  simp [hi, hi', hname]

/-- **A name has at most one fire that is awaited.** -/
theorem Sound.eq_of_name (hs : s.Sound c) (hc : Named c) (hk : s.flights[k]? = some f)
    (hk' : s.flights[k']? = some f') (hf : f.stage.isAwaited = true)
    (hf' : f'.stage.isAwaited = true) (hname : f.job.name = f'.job.name) : k = k' := by
  obtain ⟨t, ht, -, hjob⟩ := hs.busy k f hk hf
  obtain ⟨t', ht', -, hjob'⟩ := hs.busy k' f' hk' hf'
  refine hs.apart k k' f f' hk hk' hf hf' ?_
  exact hc.eq_of_name (hs.jobs_getElem? ht).1 (hs.jobs_getElem? ht').1 (by rw [hjob, hjob', hname])

/-- **A fire that asks finds no entry of its name**, expired or not. -/
theorem Sound.free_of_isAsking (hs : s.Sound c) (hc : Named c) (hk : s.flights[k]? = some f)
    (hf : f.stage.isAsking = true) : s.supervisor.leases.held.get? f.job.name = none := by
  refine Option.eq_none_iff_forall_not_mem.2 fun h hget => ?_
  obtain ⟨k', f', hk', hname, hlease⟩ := hs.entries _ h hget
  obtain rfl : k = k' := hs.eq_of_name hc hk hk' (FlightStage.isAwaited_of_isAsking hf)
    (FlightStage.isAwaited_of_lease? hlease) hname.symm
  obtain rfl : f = f' := Option.some.inj (hk.symm.trans hk')
  rw [FlightStage.lease?_of_isAsking hf] at hlease
  cases hlease

/-- **A loop that awaits no fire finds no entry of its name.** -/
theorem Sound.free_of_not_running (hs : s.Sound c) (hc : Named c)
    (hi : s.loops.tasks[i]? = some t) (ht : t.running = false) :
    s.supervisor.leases.held.get? t.loop.job.descriptor.name = none := by
  refine Option.eq_none_iff_forall_not_mem.2 fun h hget => ?_
  obtain ⟨k, f, hk, hname, hlease⟩ := hs.entries _ h hget
  obtain ⟨t', ht', hrunning, hjob⟩ := hs.busy k f hk (FlightStage.isAwaited_of_lease? hlease)
  have hloop : f.loop = i :=
    hc.eq_of_name (hs.jobs_getElem? ht').1 (hs.jobs_getElem? hi).1 (by rw [hjob, hname])
  rw [hloop, hi] at ht'
  obtain rfl := Option.some.inj ht'
  simp [ht] at hrunning

/-! ### The steps -/

theorem getElem?_set_cases {α : Type} {l : List α} {k k' : Nat} {a b : α}
    (h : (l.set k a)[k']? = some b) : k' = k ∧ b = a ∨ k' ≠ k ∧ l[k']? = some b := by
  by_cases hk : k' = k
  · subst hk
    have hlt : k' < l.length := by simpa using (List.getElem?_eq_some_iff.1 h).1
    rw [List.getElem?_set_self hlt] at h
    exact .inl ⟨rfl, (Option.some.inj h).symm⟩
  · rw [List.getElem?_set_ne (Ne.symm hk)] at h
    exact .inr ⟨hk, h⟩

theorem getElem?_append_cases {α : Type} {l : List α} {k : Nat} {a b : α}
    (h : (l ++ [a])[k]? = some b) : l[k]? = some b ∨ k = l.length ∧ b = a := by
  rcases Nat.lt_or_ge k l.length with hlt | hge
  · rw [List.getElem?_append_left hlt] at h
    exact .inl h
  · rw [List.getElem?_append_right hge, List.getElem?_singleton] at h
    split at h
    · exact .inr ⟨by omega, (Option.some.inj h).symm⟩
    · cases h

/-- A fire may come to any stage to which it keeps what holds, if the loops that are awaited stay
busy. -/
theorem Sound.replace (hs : s.Sound c) (hk : s.flights[k]? = some f) {f₁ : Flight}
    {s₁ : Supervisor} (hkept : Flight.Kept c f s.supervisor f₁ s₁) {loops : LoopSystem β}
    (hseats : loops.seats = s.loops.seats)
    (hbusy : ∀ (k' : Nat) (g : Flight), (s.flights.set k f₁)[k']? = some g →
      g.stage.isAwaited = true → ∃ t : LoopTask β, loops.tasks[g.loop]? = some t ∧
        t.running = true ∧ t.loop.job.descriptor = g.job) :
    Sound c ⟨loops, s₁, s.flights.set k f₁⟩ := by
  refine ⟨hseats.trans hs.seats, fun k' g hg => ?_, hbusy,
    fun k₁ k₂ g₁ g₂ hg₁ hg₂ h₁ h₂ hloop => ?_, fun name h hget => ?_, fun name => ?_⟩
  · rcases getElem?_set_cases hg with ⟨-, rfl⟩ | ⟨-, hg⟩
    · exact hkept.sound
    · exact (hs.sound k' g hg).mono (Nat.le_of_eq (congrArg Instant.nanos hkept.clock.symm))
  · -- A fire that is awaited now was awaited by the same loop before.
    have hbefore {k' : Nat} {g : Flight} (hg : (s.flights.set k f₁)[k']? = some g)
        (h : g.stage.isAwaited = true) : ∃ g' : Flight, s.flights[k']? = some g' ∧
          g'.stage.isAwaited = true ∧ g'.loop = g.loop := by
      rcases getElem?_set_cases hg with ⟨rfl, rfl⟩ | ⟨-, hg⟩
      · exact ⟨f, hk, hkept.awaited h, hkept.loop.symm⟩
      · exact ⟨g, hg, h, rfl⟩
    obtain ⟨g₁', hg₁', h₁', hloop₁⟩ := hbefore hg₁ h₁
    obtain ⟨g₂', hg₂', h₂', hloop₂⟩ := hbefore hg₂ h₂
    exact hs.apart k₁ k₂ g₁' g₂' hg₁' hg₂' h₁' h₂' (hloop₁.trans (hloop.trans hloop₂.symm))
  · have hlt : k < s.flights.length := (List.getElem?_eq_some_iff.1 hk).1
    rcases hkept.entries name h hget with ⟨rfl, hlease⟩ | ⟨hget, hother⟩
    · exact ⟨k, f₁, List.getElem?_set_self hlt, rfl, hlease⟩
    · obtain ⟨k', g, hg, rfl, hlease⟩ := hs.entries name h hget
      have hne : k ≠ k' := by
        rintro rfl
        obtain rfl : f = g := Option.some.inj (hk.symm.trans hg)
        exact hother rfl hlease
      exact ⟨k', g, by rw [List.getElem?_set_ne hne, hg], rfl, hlease⟩
  · rw [hkept.skipped]
    exact hs.skipped name

theorem Sound.fly (hs : s.Sound c) (hc : Named c) (k : Nat) (a : Flight.Step) :
    (s.fly k a).Sound c := by
  cases hk : s.flights[k]? with
  | none => simpa [Fleet.fly, hk] using hs
  | some f =>
      have hkept := (hs.sound k f hk).kept_advance (hs.free_of_isAsking hc hk) a
      rw [fly_eq hk]
      refine hs.replace hk hkept rfl fun k' g hg hawaited => ?_
      rcases getElem?_set_cases hg with ⟨-, rfl⟩ | ⟨-, hg⟩
      · rw [hkept.loop, hkept.job]
        exact hs.busy k f hk (hkept.awaited hawaited)
      · exact hs.busy k' g hg hawaited

/-- A loop that goes on awaits no other fire. -/
theorem Sound.land (hs : s.Sound c) (k : Nat) : (s.land k).Sound c := by
  cases hk : s.flights[k]? with
  | none => simpa [Fleet.land, hk] using hs
  | some f =>
      cases hstage : f.stage with
      | closed fired =>
          have hf : f.stage.isAwaited = true := by rw [hstage]; rfl
          obtain ⟨t, ht, hrunning, -⟩ := hs.busy k f hk hf
          rw [land_eq hk hstage, LoopSystem.step_finish ht hrunning]
          refine hs.replace hk ((hs.sound k f hk).kept_land hstage)
            (map_set_of_eq ht (t.seat_finish fired)) fun k' g hg hawaited => ?_
          rcases getElem?_set_cases hg with ⟨-, rfl⟩ | ⟨hne, hg⟩
          · cases hawaited
          · have hloop : f.loop ≠ g.loop := fun heq =>
              hne (hs.apart k' k g f hg hk hawaited hf heq.symm)
            rw [LoopSystem.getElem?_setTask_of_ne hloop]
            exact hs.busy k' g hg hawaited
      | _ => simpa [Fleet.land, hk, hstage] using hs

/-- What a selection does: a loop that awaits nothing begins a fire of its own job, or no loop
does. -/
theorem select_eq (s : Fleet β) (i : Nat) (timerFirst : Bool) (thread : Thread) :
    (∃ t next, s.loops.tasks[i]? = some t ∧ t.running = false ∧
      s.select i timerFirst thread =
        { s with
          loops := s.loops.setTask i (t.tick next)
          flights := s.flights ++
            [.begin i t.loop.job.descriptor t.loop.policy t.loop.lease thread] }) ∨
    ∃ loops : LoopSystem β, loops.standings = s.loops.standings ∧
      s.select i timerFirst thread = { s with loops := loops } := by
  rcases s.loops.select_cases i timerFirst with ⟨t, next, hi, ht, htick⟩ | hquiet
  · refine .inl ⟨t, next, hi, ht.1, ?_⟩
    have hself := LoopSystem.getElem?_setTask_self hi (t.tick next)
    have hfires : (s.loops.setTask i (t.tick next)).fires i ≠ s.loops.fires i := by
      rw [LoopSystem.fires_eq hself, LoopSystem.fires_eq hi]
      exact Nat.succ_ne_self _
    simp only [select, htick, hself, hfires, if_false]
    rfl
  · refine .inr ⟨_, hquiet, ?_⟩
    simp only [select]
    split
    · rename_i t' hi'
      obtain ⟨t, hi, hstanding⟩ := LoopSystem.getElem?_of_standings hquiet.symm hi'
      have hfires : (s.loops.step (.select i timerFirst)).fires i = s.loops.fires i := by
        rw [LoopSystem.fires_eq hi', LoopSystem.fires_eq hi]
        exact congrArg (fun x => x.2.2) hstanding.symm
      rw [if_pos hfires]
    · rfl

theorem Sound.select (hs : s.Sound c) (i : Nat) (timerFirst : Bool) (thread : Thread) :
    (s.select i timerFirst thread).Sound c := by
  rcases s.select_eq i timerFirst thread with ⟨t, next, hi, ht, heq⟩ | ⟨loops, hquiet, heq⟩
  · rw [heq]
    obtain ⟨-, hpolicy, hlease⟩ := hs.jobs_getElem? hi
    -- The loop awaits nothing, so every fire that is awaited is that of another loop.
    have hother {k : Nat} {g : Flight} (hg : s.flights[k]? = some g)
        (hawaited : g.stage.isAwaited = true) : i ≠ g.loop := by
      rintro rfl
      obtain ⟨t', ht', hrunning, -⟩ := hs.busy k g hg hawaited
      obtain rfl := Option.some.inj (hi.symm.trans ht')
      simp [ht] at hrunning
    refine ⟨(map_set_of_eq hi (t.seat_tick next)).trans hs.seats, fun k g hg => ?_,
      fun k g hg hawaited => ?_,
      fun k₁ k₂ g₁ g₂ hg₁ hg₂ h₁ h₂ hloop => ?_, fun name h hget => ?_, hs.skipped⟩
    · rcases getElem?_append_cases hg with hg | ⟨-, rfl⟩
      · exact hs.sound k g hg
      · rw [hpolicy, hlease]
        exact Flight.sound_begin _ _ _
    · rcases getElem?_append_cases hg with hg | ⟨-, rfl⟩
      · rw [LoopSystem.getElem?_setTask_of_ne (hother hg hawaited)]
        exact hs.busy k g hg hawaited
      · exact ⟨_, LoopSystem.getElem?_setTask_self hi _, rfl, rfl⟩
    · rcases getElem?_append_cases hg₁ with hg₁ | ⟨rfl, rfl⟩ <;>
        rcases getElem?_append_cases hg₂ with hg₂ | ⟨rfl, rfl⟩
      · exact hs.apart k₁ k₂ g₁ g₂ hg₁ hg₂ h₁ h₂ hloop
      · exact absurd hloop.symm (hother hg₁ h₁)
      · exact absurd hloop (hother hg₂ h₂)
      · rfl
    · obtain ⟨k, g, hg, hname, hlease'⟩ := hs.entries name h hget
      have hlt : k < s.flights.length := (List.getElem?_eq_some_iff.1 hg).1
      exact ⟨k, g, by rw [List.getElem?_append_left hlt, hg], hname, hlease'⟩
  · rw [heq]
    refine ⟨(LoopSystem.seats_eq_of_standings hquiet).trans hs.seats, hs.sound,
      fun k g hg hawaited => ?_, hs.apart, hs.entries, hs.skipped⟩
    obtain ⟨t, ht, hrunning, hjob⟩ := hs.busy k g hg hawaited
    obtain ⟨t', ht', hstanding⟩ := LoopSystem.getElem?_of_standings hquiet ht
    obtain ⟨hseat, hrest⟩ := Prod.mk.inj hstanding
    exact ⟨t', ht', (Prod.mk.inj hrest).1.trans hrunning, by rw [(Prod.mk.inj hseat).1, hjob]⟩

/-- Every step keeps the invariant. -/
theorem Sound.step (hs : s.Sound c) (hc : Named c) (m : Move) : (s.step m).Sound c := by
  cases m with
  | pass timers leases =>
      exact
        { hs with sound := fun k f hk => (hs.sound k f hk).mono (Nat.le_add_right _ leases.nanos) }
  | trigger => exact { hs with }
  | select i timerFirst thread => exact hs.select i timerFirst thread
  | fly k a => exact hs.fly hc k a
  | land k => exact hs.land k
  | other d =>
      have hkeeps := d.keeps s.supervisor
      refine ⟨hs.seats, fun k f hk => ?_, hs.busy, hs.apart, fun name h hget => ?_,
        fun name => ?_⟩
      · exact (hs.sound k f hk).mono (Nat.le_of_eq (congrArg Instant.nanos hkeeps.clock.symm))
      · exact hs.entries name h (hkeeps.leases ▸ hget)
      · exact (hkeeps.skipped name).trans (hs.skipped name)

theorem Sound.run (hs : s.Sound c) (hc : Named c) (moves : List Move) : (s.run moves).Sound c := by
  induction moves generalizing s with
  | nil => exact hs
  | cons m moves ih => exact ih (hs.step hc m)

/-- Loops that are started over a table without entries. -/
theorem sound_start (c : Scheduler β) {s : Supervisor} (hleases : s.leases = .empty)
    (hskipped : ∀ name, (s.metrics.series name).skipped = 0) (timers : Instant) :
    (start c s timers).Sound c where
  seats := by
    rw [LoopSystem.seats_eq, start, LoopSystem.standings_start, List.map_map]
    rfl
  sound := fun k f hk => by simp [start] at hk
  busy := fun k f hk => by simp [start] at hk
  apart := fun k k' f f' hk => by simp [start] at hk
  entries := fun name h hget => by simp [start, hleases, LeaseTable.empty] at hget
  skipped := hskipped

/-! ### Fires that are granted their leases -/

theorem clock_fly (s : Fleet β) (k : Nat) (a : Flight.Step) :
    (s.fly k a).supervisor.clock = s.supervisor.clock := by
  simp only [fly]
  split
  · exact Flight.clock_advance a _ _
  · rfl

theorem exists_asks_fly (hk : s.flights[k]? = some f) :
    ∃ f', (s.fly k .next).flights[k]? = some f' ∧ f'.stage.asks ≤ f.stage.asks - 1 := by
  refine ⟨_, ?_, f.asks_next s.supervisor⟩
  rw [fly_eq hk]
  exact List.getElem?_set_self (List.getElem?_eq_some_iff.1 hk).1

/-- A fire that asks has its answer after at most three steps of its own. -/
theorem exists_answered (hk : s.flights[k]? = some f) :
    ∃ f', (s.run [.fly k .next, .fly k .next, .fly k .next]).flights[k]? = some f' ∧
      f'.stage.isAsking = false := by
  obtain ⟨f₁, h₁, hle₁⟩ := exists_asks_fly hk
  obtain ⟨f₂, h₂, hle₂⟩ := exists_asks_fly h₁
  obtain ⟨f₃, h₃, hle₃⟩ := exists_asks_fly h₂
  have hle := f.stage.asks_le
  exact ⟨f₃, h₃, FlightStage.isAsking_eq_false_iff.2 (by omega)⟩

/-- **A fire is granted its lease without a takeover**, unless the lease is too long. -/
theorem Sound.answered (hs : s.Sound c) (hk : s.flights[k]? = some f)
    (hf : f.stage.isAsking = false) : f.admission = some (.granted false) ∨
      c.policy.Overflows c.lease s.supervisor.clock := by
  cases (hs.sound k f hk).course with
  | asking hasking _ => rw [hf] at hasking; cases hasking
  | granted _ hadmission => exact .inl hadmission
  | lost _ _ hlong => exact .inr hlong

theorem Sound.exists_granted (hs : s.Sound c) (hc : Named c) (hk : s.flights[k]? = some f)
    (hfits : ¬ c.policy.Overflows c.lease s.supervisor.clock) :
    ∃ f', (s.run [.fly k .next, .fly k .next, .fly k .next]).flights[k]? = some f' ∧
      f'.admission = some (.granted false) := by
  obtain ⟨f', hk', hf'⟩ := exists_answered hk
  refine ⟨f', hk', ((hs.run hc _).answered hk' hf').resolve_right ?_⟩
  change ¬ c.policy.Overflows c.lease
    (((s.fly k .next).fly k .next).fly k .next).supervisor.clock
  rwa [clock_fly, clock_fly, clock_fly]

/-! ### What loops do to each other -/

/-- The loops of a scheduler stay out of each other's way, given what it means that a lease is too
long. -/
structure Solitary (long : Prop) (s : Fleet β) : Prop where
  /-- Of each name at most one fire is under way, its run included. -/
  alone : ∀ (k k' : Nat) (f f' : Flight), s.flights[k]? = some f → s.flights[k']? = some f' →
    f.stage.isAwaited = true → f'.stage.isAwaited = true → f.job.name = f'.job.name → k = k'
  /-- A loop that takes a tick finds no entry for its job in the table, expired or not. -/
  free : ∀ i timerFirst thread, (s.select i timerFirst thread).flights = s.flights ∨
    ∃ f, (s.select i timerFirst thread).flights = s.flights ++ [f] ∧
      s.supervisor.leases.held.get? f.job.name = none
  /-- A fire that was answered was granted its lease and took nothing over. -/
  granted : ∀ (k : Nat) (f : Flight), s.flights[k]? = some f → f.stage.isAsking = false →
    f.admission = some (.granted false) ∨ long
  /-- A fire is granted its lease by at most three steps of its own. -/
  answered : ∀ (k : Nat) (f : Flight), s.flights[k]? = some f → ¬ long →
    ∃ f', (s.run [.fly k .next, .fly k .next, .fly k .next]).flights[k]? = some f' ∧
      f'.admission = some (.granted false)
  unskipped : ∀ name, (s.supervisor.metrics.series name).skipped = 0
  /-- With nothing in between, the steps of a fire do to the supervisor what a fire does. -/
  fired : ∀ {γ : Type} (loop : Nat) (policy : LockPolicy) (lease : Duration) (j : ScheduledJob γ)
    (d : Deed) (e : Ending Unit),
    let x := (Flight.begin loop j.descriptor policy lease s.supervisor.worker).advanceAll
      (Flight.wholeSteps d e) s.supervisor
    let y := Fire.fire (fun s => s) (fun s _ => s) policy lease j (fun _ s => (e, d.act s))
      s.supervisor
    x.1.stage = .closed y.1 ∧ { x.2 with worker := x.1.thread } = y.2

/-- **Loops of jobs with distinct names stay out of each other's way.** -/
theorem Sound.solitary (hs : s.Sound c) (hc : Named c) :
    s.Solitary (c.policy.Overflows c.lease s.supervisor.clock) where
  alone := fun _ _ _ _ hk hk' => hs.eq_of_name hc hk hk'
  free := fun i timerFirst thread => by
    rcases s.select_eq i timerFirst thread with ⟨t, due, hi, ht, heq⟩ | ⟨loops, -, heq⟩
    · rw [heq]
      exact .inr ⟨_, rfl, hs.free_of_not_running hc hi ht⟩
    · rw [heq]
      exact .inl rfl
  granted := fun _ _ hk hf => hs.answered hk hf
  answered := fun _ _ hk hfits => hs.exists_granted hc hk hfits
  unskipped := hs.skipped
  fired := fun loop policy lease j d e =>
    Flight.fire_eq_advanceAll loop policy lease j d e s.supervisor

end Fleet

end JobSupervisor
