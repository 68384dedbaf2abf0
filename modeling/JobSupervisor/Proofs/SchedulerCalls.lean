import JobSupervisor.Proofs.RunFrame
import JobSupervisor.Proofs.RunVerdict

/-!
# Schedulers under sequences of calls

A scheduler is asked to register jobs and to fire them by name, in any order and with names that
repeat.  A job without an interval is refused, and a name that no job has cannot be fired; both
answers leave everything as it was.  The jobs of the scheduler are those that were accepted, in the
order of the calls, and of several jobs with one name the earliest is fired.

A job may do anything while it runs, but of the registry it is only known that it changes by calls,
and calls keep the records of all names.  So every name that a job was accepted under has a record
from then on, and registering a further job under that name changes nothing about it.

## Main definitions

* `ScheduledSession`, `ScheduledSession.perform`, `ScheduledSession.run` — a scheduler under calls.
* `ScheduledSession.accepted` — the jobs that calls ask to register and that have an interval.
* `ScheduledSession.registers_and_fires` — what every call of a sequence answers and changes.
-/

namespace JobSupervisor

open Session (Body withSupervisor)

theorem Duration.isZero_iff (d : Duration) : d.isZero = true ↔ d = ⟨0⟩ := by
  cases d
  simp [Duration.isZero]

/-! ## What firing a job does to the registry -/

namespace Session

variable {β : Type} {job : ScheduledJob β} {body : β → Session → Ending Unit × Session}

/-- A run under a lease changes the registry only by calls if its body does. -/
theorem leads_complete (hb : ∀ x : Session, x.Leads (body job.body x).2) (lease : Lease)
    (x : Session) : x.Leads (Fire.complete Session.supervisor withSupervisor job lease body x) := by
  have hrun := leads_supervise job.descriptor hb (x.modify Supervisor.swapThreads)
  simp only [Fire.complete]
  split <;> exact hrun

/-- A fire changes the registry only by calls if its body does. -/
theorem leads_fire (hb : ∀ x : Session, x.Leads (body job.body x).2) (policy : LockPolicy)
    (lease : Duration) (x : Session) :
    x.Leads (Fire.fire Session.supervisor withSupervisor policy lease job body x).2 := by
  have hasked := (Fire.same_request policy lease job.descriptor.name x.supervisor).registry
  simp only [Fire.fire]
  split <;> rename_i hrequest <;> rw [hrequest] at hasked
  · exact leads_of_registry_eq hasked
  · exact leads_of_registry_eq hasked
  · exact (leads_of_registry_eq (y := x.withSupervisor _) hasked).trans (leads_complete hb _ _)

end Session

/-! ## Calls -/

/-- A scheduler with the session that it works on. -/
structure ScheduledSession where
  scheduler : Scheduler (Body Unit)
  session : Session

namespace ScheduledSession

/-- A scheduler without jobs. -/
def new (policy : LockPolicy) (lease : Duration) (start : Session) : ScheduledSession :=
  ⟨⟨policy, lease, []⟩, start⟩

/-- What a scheduler is asked for. -/
inductive Call where
  | register (job : ScheduledJob (Body Unit))
  | runOnce (name : String)

/-- What a scheduler answers. -/
inductive Answer where
  | registered
  | fired (f : Fired)
  | failed (e : JobError)
  deriving DecidableEq

/-- Fires a job of the scheduler. -/
def fire (job : ScheduledJob (Body Unit)) (x : ScheduledSession) : Fired × ScheduledSession :=
  let (fired, session) := Fire.fire Session.supervisor withSupervisor x.scheduler.policy
    x.scheduler.lease job (fun b => b.act) x.session
  (fired, { x with session := session })

/-- One call. -/
def perform (c : Call) (x : ScheduledSession) : Answer × ScheduledSession :=
  match c with
  | .register job =>
      match x.scheduler.register job x.session.supervisor with
      | .ok (scheduler, s) => (.registered, ⟨scheduler, x.session.withSupervisor s⟩)
      | .error e => (.failed e, x)
  | .runOnce name =>
      match x.scheduler.runOnce Session.supervisor withSupervisor name (fun b => b.act)
          x.session with
      | (.ok fired, session) => (.fired fired, { x with session := session })
      | (.error e, session) => (.failed e, { x with session := session })

/-- The state after calls one after the other. -/
def run (calls : List Call) (x : ScheduledSession) : ScheduledSession :=
  calls.foldl (fun x c => (perform c x).2) x

/-- The job that a call asks to register, if it has an interval. -/
def Call.accepted? : Call → Option (ScheduledJob (Body Unit))
  | .register job => if job.interval.isZero then none else some job
  | .runOnce _ => none

/-- The jobs with intervals that calls ask to register, in the order of the calls. -/
def accepted (calls : List Call) : List (ScheduledJob (Body Unit)) :=
  calls.filterMap Call.accepted?

/-- The place of the record of a name. -/
def lookup (x : ScheduledSession) (name : String) : Option Health.RecordId :=
  x.session.supervisor.registry.lookup name

variable {x : ScheduledSession} {job : ScheduledJob (Body Unit)} {name : String}

@[simp] theorem run_nil (x : ScheduledSession) : x.run [] = x := rfl

@[simp] theorem run_cons (c : Call) (calls : List Call) (x : ScheduledSession) :
    x.run (c :: calls) = (x.perform c).2.run calls := rfl

/-! ## Registering -/

theorem perform_register_of_isZero (h : job.interval.isZero = true) (x : ScheduledSession) :
    x.perform (.register job) =
      (.failed (.invalidSchedule job.descriptor.name Scheduler.zeroInterval), x) := by
  simp [perform, Scheduler.register, h]

/-- A job with an interval comes after the jobs before, and its record is looked up. -/
theorem perform_register (h : job.interval.isZero = false) (x : ScheduledSession) :
    ∃ session, x.perform (.register job) =
        (.registered, ⟨{ x.scheduler with jobs := x.scheduler.jobs ++ [job] }, session⟩) ∧
      session.supervisor.registry =
        (x.session.supervisor.registry.findOrInsert job.descriptor.name).2 := by
  simp only [perform, Scheduler.register, h, Bool.false_eq_true, if_false]
  exact ⟨_, rfl, Supervisor.registry_ensureRecord _ _⟩

/-- What asking to register a job answers and changes. -/
structure Registers (x : ScheduledSession) (job : ScheduledJob (Body Unit)) : Prop where
  /-- A job is refused exactly if it has no interval. -/
  refused_iff : (∃ e, (x.perform (.register job)).1 = .failed e) ↔ job.interval = ⟨0⟩
  /-- Nothing changes then. -/
  refused : job.interval = ⟨0⟩ → x.perform (.register job) =
    (.failed (.invalidSchedule job.descriptor.name "interval must be greater than zero"), x)
  /-- Otherwise the job comes last and its name has a record. -/
  accepted : job.interval ≠ ⟨0⟩ → (x.perform (.register job)).1 = .registered ∧
    (x.perform (.register job)).2.scheduler.jobs = x.scheduler.jobs ++ [job] ∧
    ((x.perform (.register job)).2.lookup job.descriptor.name).isSome = true
  /-- No name loses or changes its record, and no other name gets one. -/
  kept : ∀ name, (x.lookup name).isSome = true ∨ name ≠ job.descriptor.name →
    (x.perform (.register job)).2.lookup name = x.lookup name
  /-- No record changes. -/
  unchanged : ∀ id, (x.perform (.register job)).2.session.supervisor.record id =
    x.session.supervisor.record id

theorem registers (x : ScheduledSession) (job : ScheduledJob (Body Unit)) : x.Registers job := by
  by_cases hzero : job.interval = ⟨0⟩
  · have hperform := perform_register_of_isZero ((Duration.isZero_iff _).mpr hzero) x
    refine ⟨?_, fun _ => hperform, fun h => absurd hzero h, ?_, ?_⟩
    · simp [hperform, hzero]
    · simp [hperform]
    · simp [hperform]
  · have hinterval : job.interval.isZero = false := by
      rw [← Bool.not_eq_true, Duration.isZero_iff]
      exact hzero
    obtain ⟨session, hperform, hregistry⟩ := perform_register hinterval x
    refine ⟨?_, fun h => absurd h hzero, ?_, ?_, ?_⟩
    · simp [hperform, hzero]
    · intro _
      rw [hperform]
      refine ⟨rfl, rfl, ?_⟩
      rw [lookup, hregistry, Health.Registry.lookup_findOrInsert_self]
      rfl
    · intro name hname
      rw [hperform, lookup, hregistry]
      rcases hname with hsome | hne
      · obtain ⟨id, hid⟩ := Option.isSome_iff_exists.mp hsome
        rw [hid]
        exact Health.Registry.lookup_findOrInsert_of_lookup hid _
      · exact Health.Registry.lookup_findOrInsert_of_ne _ hne.symm
    · intro id
      rw [hperform]
      exact (congrArg (fun g => Health.Registry.record g id) hregistry).trans
        (Health.Registry.record_findOrInsert _ _ _)

/-! ## Firing by name -/

theorem perform_runOnce_of_none (h : ∀ job ∈ x.scheduler.jobs, job.descriptor.name ≠ name) :
    x.perform (.runOnce name) = (.failed (.unknownJob name), x) := by
  have hnone : x.scheduler.find? name = none := by
    simpa [Scheduler.find?] using h
  simp [perform, Scheduler.runOnce, hnone]

/-- Of the jobs with a name the earliest is fired. -/
theorem perform_runOnce {earlier later : List (ScheduledJob (Body Unit))}
    (hjobs : x.scheduler.jobs = earlier ++ job :: later) (hname : job.descriptor.name = name)
    (hearlier : ∀ other ∈ earlier, other.descriptor.name ≠ name) :
    x.perform (.runOnce name) = (.fired (x.fire job).1, (x.fire job).2) := by
  have hfind : x.scheduler.find? name = some job := by
    rw [Scheduler.find?, List.find?_eq_some_iff_append]
    exact ⟨by simpa using hname, earlier, later, hjobs, by simpa using hearlier⟩
  simp [perform, Scheduler.runOnce, hfind, fire]

/-- A name either belongs to no job, or to an earliest one. -/
theorem none_or_earliest (jobs : List (ScheduledJob (Body Unit))) (name : String) :
    (∀ job ∈ jobs, job.descriptor.name ≠ name) ∨
      ∃ earlier job later, jobs = earlier ++ job :: later ∧ job.descriptor.name = name ∧
        ∀ other ∈ earlier, other.descriptor.name ≠ name := by
  cases hfind : jobs.find? (·.descriptor.name = name) with
  | none => exact .inl (by simpa using hfind)
  | some job =>
      obtain ⟨hname, earlier, later, hjobs, hearlier⟩ := List.find?_eq_some_iff_append.mp hfind
      exact .inr ⟨earlier, job, later, hjobs, by simpa using hname, by simpa using hearlier⟩

/-- What firing a name answers and changes. -/
structure Fires (x : ScheduledSession) (name : String) : Prop where
  /-- Firing fails exactly if no job has the name. -/
  unknown_iff : (∃ e, (x.perform (.runOnce name)).1 = .failed e) ↔
    ∀ job ∈ x.scheduler.jobs, job.descriptor.name ≠ name
  /-- Nothing changes then. -/
  unknown : (∀ job ∈ x.scheduler.jobs, job.descriptor.name ≠ name) →
    x.perform (.runOnce name) = (.failed (.unknownJob name), x)
  /-- Otherwise the earliest job with the name is fired. -/
  earliest : ∀ earlier job later, x.scheduler.jobs = earlier ++ job :: later →
    job.descriptor.name = name → (∀ other ∈ earlier, other.descriptor.name ≠ name) →
    x.perform (.runOnce name) = (.fired (x.fire job).1, (x.fire job).2)

theorem fires (x : ScheduledSession) (name : String) : x.Fires name := by
  refine ⟨⟨?_, ?_⟩, perform_runOnce_of_none, fun _ _ _ => perform_runOnce⟩
  · rintro ⟨e, he⟩
    rcases none_or_earliest x.scheduler.jobs name with
      hnone | ⟨earlier, job, later, hjobs, hname, hearlier⟩
    · exact hnone
    · rw [perform_runOnce hjobs hname hearlier] at he
      contradiction
  · intro hnone
    exact ⟨_, congrArg Prod.fst (perform_runOnce_of_none hnone)⟩

/-! ## One call after the other -/

/-- A call adds the job that it has accepted. -/
theorem scheduler_perform (c : Call) (x : ScheduledSession) :
    (x.perform c).2.scheduler =
      { x.scheduler with jobs := x.scheduler.jobs ++ c.accepted?.toList } := by
  cases c with
  | register job =>
      cases h : job.interval.isZero with
      | true => simp [perform_register_of_isZero h, Call.accepted?, h]
      | false =>
          obtain ⟨session, hperform, -⟩ := perform_register h x
          simp [hperform, Call.accepted?, h]
  | runOnce name =>
      rcases none_or_earliest x.scheduler.jobs name with
        hnone | ⟨earlier, job, later, hjobs, hname, hearlier⟩
      · simp [perform_runOnce_of_none hnone, Call.accepted?]
      · simp [perform_runOnce hjobs hname hearlier, fire, Call.accepted?]

/-- **The jobs are the accepted ones in the order of the calls**, after those from before; lock and
lease stay the same. -/
theorem scheduler_run (calls : List Call) (x : ScheduledSession) :
    (x.run calls).scheduler =
      { x.scheduler with jobs := x.scheduler.jobs ++ accepted calls } := by
  induction calls generalizing x with
  | nil => simp [accepted]
  | cons c calls ih =>
      rw [run_cons, ih, scheduler_perform]
      cases hc : c.accepted? <;> simp [accepted, hc]

theorem leads_perform (c : Call) (x : ScheduledSession) :
    x.session.Leads (x.perform c).2.session := by
  cases c with
  | register job =>
      cases h : job.interval.isZero with
      | true =>
          rw [perform_register_of_isZero h]
          exact Session.leads_of_registry_eq rfl
      | false =>
          obtain ⟨session, hperform, hregistry⟩ := perform_register h x
          rw [hperform]
          exact ⟨[.create job.descriptor.name], hregistry⟩
  | runOnce name =>
      rcases none_or_earliest x.scheduler.jobs name with
        hnone | ⟨earlier, job, later, hjobs, hname, hearlier⟩
      · rw [perform_runOnce_of_none hnone]
        exact Session.leads_of_registry_eq rfl
      · rw [perform_runOnce hjobs hname hearlier]
        exact Session.leads_fire job.body.leads _ _ _

/-- The record of a name stays the record of that name. -/
theorem lookup_perform {id : Health.RecordId} (h : x.lookup name = some id) (c : Call) :
    (x.perform c).2.lookup name = some id := by
  obtain ⟨calls, hcalls⟩ := leads_perform c x
  rw [lookup, hcalls]
  exact Health.Registry.lookup_after h calls

/-- Every job has a record under its name. -/
def Recorded (x : ScheduledSession) : Prop :=
  ∀ job ∈ x.scheduler.jobs, (x.lookup job.descriptor.name).isSome = true

theorem Recorded.perform (h : x.Recorded) (c : Call) : (x.perform c).2.Recorded := by
  intro job hjob
  rw [scheduler_perform, List.mem_append] at hjob
  rcases hjob with hbefore | hnew
  · obtain ⟨id, hid⟩ := Option.isSome_iff_exists.mp (h job hbefore)
    exact Option.isSome_iff_exists.mpr ⟨id, lookup_perform hid c⟩
  · cases c with
    | runOnce name => simp [Call.accepted?] at hnew
    | register other =>
        cases hzero : other.interval.isZero with
        | true => simp [Call.accepted?, hzero] at hnew
        | false =>
            obtain rfl : job = other := by simpa [Call.accepted?, hzero] using hnew
            have hinterval : job.interval ≠ ⟨0⟩ := by
              simp [← Duration.isZero_iff, hzero]
            exact ((registers x job).accepted hinterval).2.2

theorem Recorded.run (h : x.Recorded) (calls : List Call) : (x.run calls).Recorded := by
  induction calls generalizing x with
  | nil => exact h
  | cons c calls ih => exact ih (h.perform c)

/-- **Registering jobs and firing them by name.**  After any calls on a new scheduler, over any
registry, its jobs are the accepted ones in the order of the calls, and each has a record under its
name.  The next job is refused exactly if it has no interval, and then nothing changes; otherwise it
comes last, and every name that had a record before, its own included, keeps it as it is.  Firing a
name fails exactly if no accepted job has it, and then nothing changes; otherwise the earliest
accepted job of that name is fired. -/
theorem registers_and_fires (policy : LockPolicy) (lease : Duration) (start : Session)
    (calls : List Call) :
    ((new policy lease start).run calls).scheduler = ⟨policy, lease, accepted calls⟩ ∧
      ((new policy lease start).run calls).Recorded ∧
      (∀ job, ((new policy lease start).run calls).Registers job) ∧
      ∀ name, ((new policy lease start).run calls).Fires name := by
  have hempty : (new policy lease start).Recorded := by
    intro job hjob
    exact absurd hjob List.not_mem_nil
  exact ⟨scheduler_run calls _, hempty.run calls, registers _, fires _⟩

-- The second job is refused; the third one has the name of the first.
example :
    let job (interval : Duration) : ScheduledJob (Body Unit) :=
      ⟨⟨"sync", .ofSecs 30⟩, interval, ⟨0⟩, ⟨fun x => (.value (), x), fun _ => .refl _⟩⟩
    ((new .table (.ofSecs 60) Session.initial).run [.register (job (.ofSecs 1)),
      .register (job ⟨0⟩), .runOnce "sync", .register (job (.ofSecs 2)),
      .runOnce "other"]).scheduler.jobs.map (·.interval) = [.ofSecs 1, .ofSecs 2] := by
  decide +kernel

end ScheduledSession

end JobSupervisor
