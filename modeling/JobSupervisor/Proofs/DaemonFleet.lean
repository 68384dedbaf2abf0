import JobSupervisor.Proofs.DaemonRun
import JobSupervisor.Proofs.FleetExclusion

/-!
# The runs of the daemon

The daemon starts one loop for each enabled job of its configuration, and nothing else asks its
lock.  The names of a configuration that was accepted are distinct, so the loops stay out of each
other's way: no job overlaps itself, and no run is skipped.

## Main definitions

* `Daemon.Keeps` — what preparing a daemon leaves alone.
* `Daemon.solitary_runs` — what the loops of an accepted configuration never do.
-/

namespace JobSupervisor.Daemon

open Config Session

variable {c : Configuration}

/-! ## What preparing leaves alone -/

/-- The leases, the clock, the counts of skipped runs, the shutdowns and the time of the loops are
as they were. -/
structure Keeps (x y : Session) : Prop where
  supervisor : x.supervisor.Keeps y.supervisor
  shutdowns : y.shutdowns = x.shutdowns
  now : y.now = x.now

theorem Keeps.refl (x : Session) : Keeps x x := ⟨.refl _, rfl, rfl⟩

theorem Keeps.trans {x y z : Session} (h : Keeps x y) (h' : Keeps y z) : Keeps x z :=
  ⟨h.supervisor.trans h'.supervisor, h'.shutdowns.trans h.shutdowns, h'.now.trans h.now⟩

theorem keeps_emit (x : Session) (e : Log.Event) : Keeps x (x.emit e) :=
  ⟨Supervisor.keeps_emit _ _, rfl, rfl⟩

theorem keeps_registerJob {x y : Session} {j : ScheduledJob Work}
    (h : registerJob x j = .ok y) : Keeps x y := by
  cases hj : j.interval.isZero with
  | true => simp [registerJob, Scheduler.register, hj] at h
  | false =>
      simp only [registerJob, x.scheduler.register_of_interval hj, Except.ok.injEq] at h
      subst h
      exact ⟨(x.supervisor.keeps_ensureRecord j.descriptor.name).trans
        (Supervisor.keeps_emit _ _), rfl, rfl⟩

theorem keeps_foldlM {js : List (ScheduledJob Work)} {x y : Session}
    (h : js.foldlM registerJob x = .ok y) : Keeps x y := by
  induction js generalizing x with
  | nil =>
      obtain rfl := Except.ok.inj h
      exact .refl _
  | cons j js ih =>
      rw [List.foldlM_cons] at h
      cases hj : registerJob x j with
      | error e => rw [hj] at h; cases h
      | ok z =>
          rw [hj] at h
          exact (keeps_registerJob hj).trans (ih h)

/-- A daemon that is prepared has taken no lease and skipped no run, and nobody listens to its
shutdown yet. -/
theorem keeps_prepare {x : Session} (h : prepare c = .ok x) : Keeps Session.initial x := by
  refine Keeps.trans ?_ (keeps_foldlM ((prepare_eq c).symm.trans h))
  have hannounced : Keeps Session.initial
      ((({ Session.initial with scheduler := schedulerOf c } : Session).emit
        (.daemonStarting version)).emit
          (.configurationLoaded c.jobs.length c.health.bindAddress c.lock.enabled)) :=
    ⟨Supervisor.keeps_of_eq rfl rfl rfl, rfl, rfl⟩
  simp only [unprepared]
  split
  · obtain ⟨e, he⟩ := emits_installExporter c.observability.metricsAddress _
    rw [he]
    exact hannounced.trans (keeps_emit _ _)
  · exact hannounced

/-- The daemon starts the loops of its scheduler. -/
theorem loops_startLoops {x : Session} (h : prepare c = .ok x) (hx : Prepared c x) :
    (x.startLoops 0).2.loops.map (·.loop) =
      (LoopSystem.initial x.now |>.step (.start x.scheduler)).tasks.map (·.loop) := by
  have hshutdown : x.shutdownAt 0 = .new := by
    rw [shutdownAt, (keeps_prepare h).shutdowns]
    rfl
  simp only [startLoops, askShutdown, hshutdown, hx.loops, LoopSystem.step, LoopSystem.initial]
  simp [List.map_map, Function.comp_def]

/-- The jobs of a configuration that keeps the rules have distinct names. -/
theorem named_fullScheduler (hc : c.Valid) : Fleet.Named (fullScheduler c) := by
  have hnames : (fullScheduler c).jobs.map (fun j => j.descriptor.name) =
      (enabledJobs c).map JobEntry.name := by
    simp only [fullScheduler, List.map_map]
    rfl
  rw [Fleet.Named, hnames]
  exact (List.filter_sublist.map JobEntry.name).nodup hc.distinct

/-- **The daemon never overlaps or skips its own jobs.**  Take a configuration that was accepted,
the loops that the daemon starts for it, and any order of their steps and those of their fires,
with any time passing in between.  No two fires that loops await are of the same job; whenever a
loop takes a tick, the lease table has no entry for its job; a fire is granted its lease and takes
nothing over, unless the lease reaches beyond what the clock can hold; and no skipped run is
counted. -/
theorem solitary_runs (hc : c.violations = []) (timers : Instant) (moves : List Fleet.Move) :
    ∃ x, prepare c = .ok x ∧
      (x.startLoops 0).2.loops.map (·.loop) =
        (Fleet.start x.scheduler x.supervisor x.now).loops.tasks.map (·.loop) ∧
      let s := (Fleet.start x.scheduler x.supervisor timers).run moves
      s.Solitary (Overlong c s.supervisor.clock) := by
  have hvalid : c.Valid := (Configuration.violations_eq_nil_iff c).1 hc
  obtain ⟨x, hx, hprepared⟩ := prepare_of_valid hvalid
  have hnamed := named_fullScheduler hvalid
  have hkeeps := (keeps_prepare hx).supervisor
  refine ⟨x, hx, loops_startLoops hx hprepared, ?_⟩
  have hscheduler : x.scheduler = fullScheduler c := hprepared.scheduler
  have hstart : (Fleet.start x.scheduler x.supervisor timers).Sound (fullScheduler c) := by
    rw [hscheduler]
    exact Fleet.sound_start _ hkeeps.leases hkeeps.skipped timers
  intro s
  have hlong : (fullScheduler c).policy.Overflows (fullScheduler c).lease s.supervisor.clock ↔
      Overlong c s.supervisor.clock := overflows_iff c s.supervisor.clock
  rw [← hlong]
  exact (hstart.run hnamed moves).solitary hnamed

/-- A run that outlasts its lease, a tick that is missed meanwhile, and the next tick. -/
def outlivedLease : List Fleet.Move :=
  let tick := Fleet.Move.select 0 true .initial
  [tick, .fly 0 .next, .fly 0 .next, .fly 0 .next, .fly 0 .next,
    .pass (.ofSecs 86400) (.ofSecs 86400), tick, .fly 0 (.finish (.value ())), .fly 0 .next,
    .fly 0 .next, .fly 0 .next, .land 0, tick, .fly 1 .next, .fly 1 .next, .fly 1 .next]

/-- The daemon whose job runs for a day every minute: the second fire begins after the first one
is over, and both are granted their leases. -/
theorem solitary_runs_outlivedLease :
    everyMinute.violations = [] ∧ ∃ x, prepare everyMinute = .ok x ∧
      let s := (Fleet.start x.scheduler x.supervisor ⟨0⟩).run outlivedLease
      s.flights.map (·.stage.isAwaited) = [false, true] ∧
      s.flights.map (·.admission) = [some (.granted false), some (.granted false)] ∧
      (s.supervisor.metrics.series "a").skipped = 0 := by
  have hc : everyMinute.violations = [] := by decide +kernel
  have hflights : (prepare everyMinute).toOption.map (fun x =>
      let s := (Fleet.start x.scheduler x.supervisor ⟨0⟩).run outlivedLease
      (s.flights.map (·.stage.isAwaited), s.flights.map (·.admission))) =
        some ([false, true], [some (.granted false), some (.granted false)]) := by decide +kernel
  obtain ⟨x, hx, -, hsolitary⟩ := solitary_runs hc ⟨0⟩ outlivedLease
  rw [hx] at hflights
  obtain ⟨hawaited, hadmission⟩ := Prod.mk.inj (Option.some.inj hflights)
  exact ⟨hc, x, hx, hawaited, hadmission, hsolitary.unskipped "a"⟩

end JobSupervisor.Daemon
