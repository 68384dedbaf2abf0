import JobSupervisor.Daemon.Run
import JobSupervisor.Proofs.ConfigurationRules
import JobSupervisor.Proofs.RunOperations

/-!
# The daemon up to its loops

A configuration that keeps the rules leaves the daemon nothing to refuse.  The interval of
every job is longer than zero, so every enabled job is registered; the names are distinct, so
every one of them makes a record; and every address that is used is one.

## Main definitions

* `Daemon.Registers` — what registering jobs does to a session.
* `Daemon.registers_foldlM` — registering jobs with intervals succeeds.
* `Daemon.prepare_of_valid` — the daemon with its jobs registered.
-/

namespace JobSupervisor

/-! ## Registering a job -/

namespace Supervisor

/-- No address of the exporter was logged as unreadable. -/
def ExporterReadable (s : Supervisor) : Prop :=
  ∀ e ∈ s.journal, ∀ address reason, e.event ≠ .metricsAddressUnreadable address reason

theorem ExporterReadable.emit {s : Supervisor} (h : s.ExporterReadable) {e : Log.Event}
    (he : ∀ address reason, e ≠ .metricsAddressUnreadable address reason) :
    (s.emit e).ExporterReadable := by
  intro entry hentry
  rcases Array.mem_push.1 hentry with hentry | rfl
  · exact h entry hentry
  · exact he

theorem ExporterReadable.ensureRecord {s : Supervisor} (h : s.ExporterReadable)
    (name : String) : (s.ensureRecord name).2.ExporterReadable := by
  simp only [Supervisor.ensureRecord]
  split
  · exact ExporterReadable.emit h (by simp)
  · exact h

end Supervisor

/-- What registering a job does to a supervisor. -/
def Scheduler.noteJob {β : Type} (j : ScheduledJob β) (s : Supervisor) : Supervisor :=
  (s.ensureRecord j.descriptor.name).2.emit
    (.jobRegistered j.descriptor.name j.interval j.descriptor.budget)

/-- A job with an interval is registered. -/
theorem Scheduler.register_of_interval {β : Type} (c : Scheduler β) {j : ScheduledJob β}
    (h : j.interval.isZero = false) (s : Supervisor) :
    c.register j s = .ok ({ c with jobs := c.jobs ++ [j] }, noteJob j s) := by
  simp [register, noteJob, h]

namespace Daemon

open Config Session

/-! ## Registering jobs one after the other -/

/-- What registering jobs does to a session: the scheduler has them after its own, the registry
was asked for their names, and no loop has begun. -/
structure Registers (js : List (ScheduledJob Work)) (x y : Session) : Prop where
  scheduler : y.scheduler = { x.scheduler with jobs := x.scheduler.jobs ++ js }
  registry : y.supervisor.registry =
    x.supervisor.registry.after (js.map fun j => .create j.descriptor.name)
  loops : y.loops = x.loops
  readable : x.supervisor.ExporterReadable → y.supervisor.ExporterReadable

theorem registers_registerJob {j : ScheduledJob Work} (h : j.interval.isZero = false)
    (x : Session) : ∃ y, registerJob x j = .ok y ∧ Registers [j] x y := by
  have hregister := x.scheduler.register_of_interval h x.supervisor
  refine ⟨{ x.withSupervisor (Scheduler.noteJob j x.supervisor) with
    scheduler := { x.scheduler with jobs := x.scheduler.jobs ++ [j] } }, ?_, rfl, ?_, rfl, ?_⟩
  · rw [registerJob, hregister]
  · exact Supervisor.registry_ensureRecord x.supervisor j.descriptor.name
  · exact fun hx => (hx.ensureRecord j.descriptor.name).emit (by simp)

theorem Registers.trans {js js' : List (ScheduledJob Work)} {x y z : Session}
    (h : Registers js x y) (h' : Registers js' y z) : Registers (js ++ js') x z where
  scheduler := by simp [h'.scheduler, h.scheduler]
  registry := by simp [h'.registry, h.registry]
  loops := h'.loops.trans h.loops
  readable := h'.readable ∘ h.readable

/-- **Jobs with intervals are registered**, all of them and in their order. -/
theorem registers_foldlM {js : List (ScheduledJob Work)}
    (h : ∀ j ∈ js, j.interval.isZero = false) (x : Session) :
    ∃ y, js.foldlM registerJob x = .ok y ∧ Registers js x y := by
  induction js generalizing x with
  | nil => exact ⟨x, rfl, by simp, rfl, rfl, id⟩
  | cons j js ih =>
      obtain ⟨hj, hjs⟩ := List.forall_mem_cons.1 h
      obtain ⟨y, hy, hfirst⟩ := registers_registerJob hj x
      obtain ⟨z, hz, hrest⟩ := ih hjs y
      refine ⟨z, ?_, hfirst.trans hrest⟩
      rw [List.foldlM_cons, hy]
      exact hz

/-! ## Preparing the daemon -/

/-- The jobs of a configuration that are enabled. -/
def enabledJobs (c : Configuration) : List JobEntry := c.jobs.filter (·.enabled)

theorem isZero_interval {j : JobEntry} (h : 0 < j.intervalSecs) :
    (configuredJob j).interval.isZero = false := by
  refine decide_eq_false ?_
  change j.intervalSecs * 1000000000 ≠ 0
  omega

/-- The daemon before it registers jobs. -/
def unprepared (c : Configuration) : Session :=
  let x := { Session.initial with scheduler := schedulerOf c }
  let x := x.emit (.daemonStarting version)
  let x := x.emit (.configurationLoaded c.jobs.length c.health.bindAddress c.lock.enabled)
  if c.observability.metricsEnabled then installExporter c.observability.metricsAddress x else x

/-- The jobs are registered one after the other in what is there before. -/
theorem prepare_eq (c : Configuration) :
    prepare c = ((enabledJobs c).map configuredJob).foldlM registerJob (unprepared c) := rfl

/-- The address of an exporter that is one is not logged as unreadable. -/
theorem readable_installExporter {address : String}
    (h : (Net.SocketAddress.parse? address).isSome = true) {x : Session}
    (hx : x.supervisor.ExporterReadable) :
    (installExporter address x).supervisor.ExporterReadable := by
  obtain ⟨a, ha⟩ := Option.isSome_iff_exists.1 h
  simp only [installExporter, ha]
  split
  · exact hx.emit (by simp)
  · exact hx.emit (by simp)

/-- Installing an exporter only logs. -/
theorem emits_installExporter (address : String) (x : Session) :
    ∃ e, installExporter address x = x.emit e := by
  simp only [installExporter]
  split
  · exact ⟨_, rfl⟩
  · split
    · exact ⟨_, rfl⟩
    · exact ⟨_, rfl⟩

/-- Before it registers jobs the daemon has a scheduler without jobs and no record. -/
theorem unprepared_eq (c : Configuration) :
    (unprepared c).scheduler = schedulerOf c ∧
      (unprepared c).supervisor.registry = .empty ∧ (unprepared c).loops = [] := by
  simp only [unprepared]
  split
  · obtain ⟨e, he⟩ := emits_installExporter c.observability.metricsAddress _
    rw [he]
    exact ⟨rfl, rfl, rfl⟩
  · exact ⟨rfl, rfl, rfl⟩

theorem readable_unprepared {c : Configuration} (h : c.Valid) :
    (unprepared c).supervisor.ExporterReadable := by
  have hinitial : Session.initial.supervisor.ExporterReadable :=
    fun e he => by simp [Session.initial, Supervisor.initial] at he
  have hannounced := (hinitial.emit (e := .daemonStarting version) (by simp)).emit
    (e := .configurationLoaded c.jobs.length c.health.bindAddress c.lock.enabled) (by simp)
  simp only [unprepared]
  split
  · exact readable_installExporter (h.metrics_address ‹_›) hannounced
  · exact hannounced

/-- The daemon with the jobs of a configuration registered: its scheduler has the enabled ones
in their order, and its registry was asked for their names. -/
structure Prepared (c : Configuration) (x : Session) : Prop where
  scheduler : x.scheduler = { schedulerOf c with jobs := (enabledJobs c).map configuredJob }
  registry : x.supervisor.registry =
    Health.Registry.empty.after (((enabledJobs c).map JobEntry.name).map .create)
  loops : x.loops = []
  readable : x.supervisor.ExporterReadable

/-- **A configuration that keeps the rules is prepared.** -/
theorem prepare_of_valid {c : Configuration} (h : c.Valid) :
    ∃ x, prepare c = .ok x ∧ Prepared c x := by
  have hinterval : ∀ j ∈ (enabledJobs c).map configuredJob, j.interval.isZero = false := by
    intro j hj
    obtain ⟨entry, hentry, rfl⟩ := List.mem_map.1 hj
    exact isZero_interval (h.interval_pos entry (List.mem_of_mem_filter hentry))
  obtain ⟨x, hx, hregisters⟩ := registers_foldlM hinterval (unprepared c)
  obtain ⟨hscheduler, hregistry, hloops⟩ := unprepared_eq c
  refine ⟨x, (prepare_eq c).trans hx, ?_, ?_, hregisters.loops.trans hloops,
    hregisters.readable (readable_unprepared h)⟩
  · rw [hregisters.scheduler, hscheduler]
    rfl
  · rw [hregisters.registry, hregistry, List.map_map, List.map_map]
    rfl

/-- In a registry that was asked for distinct names, these names have a record each, and there
is no other record. -/
structure HasExactly (names : List String) (g : Health.Registry) : Prop where
  lookup_iff : ∀ name, (g.lookup name).isSome = true ↔ name ∈ names
  separate : g.Separate
  length : g.cells.length = names.length

theorem Prepared.hasExactly {c : Configuration} {x : Session} (h : Prepared c x)
    (hc : c.Valid) :
    HasExactly ((enabledJobs c).map JobEntry.name) x.supervisor.registry := by
  have hnodup : ((enabledJobs c).map JobEntry.name).Nodup :=
    (List.filter_sublist.map JobEntry.name).nodup hc.distinct
  have hreach : x.supervisor.registry.Reachable := ⟨_, h.registry⟩
  refine ⟨fun name => ?_, hreach.separate, ?_⟩
  · rw [h.registry, Health.Registry.isSome_lookup_after_create]
    simp [Health.Registry.lookup, Health.Registry.empty]
  · rw [h.registry, Health.Registry.length_after_create hnodup fun _ _ => rfl]
    simp [Health.Registry.empty]

end Daemon

end JobSupervisor
