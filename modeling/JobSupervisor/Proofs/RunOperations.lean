import JobSupervisor.Job.Command
import JobSupervisor.Job.Run
import JobSupervisor.Proofs.RegistryHistory

/-!
# What a run does to the registry

Most operations of a supervisor do not touch the registry; the others make calls on it.  A
run makes two calls at its beginning: it asks for the record of its job and resets it.  In
its settlement it marks the record after a failure, marks it again after an overrun, and
heals it, in this order and without anything in between.

## Main definitions

* `Supervisor.Leads` — the registry changes by some calls.
* `Run.marks`, `Run.closing` — the operations of a settlement.
* `Run.registry_begin`, `Run.registry_settle` — the registry after the two ends of a run.
-/

namespace JobSupervisor

namespace Supervisor

/-! ## Operations that leave the registry as it is -/

@[simp] theorem registry_emit (s : Supervisor) (e : Log.Event) :
    (s.emit e).registry = s.registry := rfl

@[simp] theorem registry_openSpan (s : Supervisor) (span : Log.Span) :
    (s.openSpan span).registry = s.registry := rfl

@[simp] theorem registry_closeSpan (s : Supervisor) : s.closeSpan.registry = s.registry := rfl

@[simp] theorem registry_withContext (s : Supervisor) (c : Context) :
    (s.withContext c).registry = s.registry := rfl

@[simp] theorem registry_elapse (s : Supervisor) (d : Duration) :
    (s.elapse d).registry = s.registry := rfl

@[simp] theorem registry_enterScope (s : Supervisor) (supplied : Option String) :
    (s.enterScope supplied).2.registry = s.registry := by
  obtain ⟨context, drawn, h⟩ := s.enterScope_frame supplied
  rw [h]

@[simp] theorem registry_exitScope (s : Supervisor) :
    s.exitScope.2.registry = s.registry := rfl

@[simp] theorem registry_giveBack (s : Supervisor) (l : Lease) :
    (s.giveBack l).registry = s.registry := rfl

@[simp] theorem registry_perform (s : Supervisor) (id : Health.RecordId)
    (op : Health.Operation) : (s.perform id op).registry = s.registry.perform id op := rfl

@[simp] theorem registry_acquireFromTable (s : Supervisor) (name : String)
    (lease : Duration) : (s.acquireFromTable name lease).2.registry = s.registry := by
  simp only [acquireFromTable]
  split <;> rfl

@[simp] theorem registry_tryAcquire (p : LockPolicy) (name : String) (lease : Duration)
    (s : Supervisor) : (p.tryAcquire name lease s).2.registry = s.registry := by
  have h := s.registry_acquireFromTable name lease
  cases p with
  | unlocked => rfl
  | table | faultyReturn =>
      simp only [LockPolicy.tryAcquire]
      split <;> simp_all

@[simp] theorem registry_runOn (start : Command.Starter) (program : String)
    (args : List String) (s : Supervisor) :
    (Command.runOn start program args s).2.registry = s.registry := by
  simp only [Command.runOn]
  cases start program args <;> rfl

@[simp] theorem registry_command (program : String) (args : List String) (s : Supervisor) :
    (Command.run program args s).2.registry = s.registry :=
  registry_runOn Host.Program.run program args s

@[simp] theorem registry_body (j : Config.JobEntry) (s : Supervisor) :
    (j.body s).2.registry = s.registry := by
  simp only [Config.JobEntry.body]
  split
  · exact registry_command _ _ s
  · rfl

/-! ## Operations that change the registry -/

/-- The registry of one supervisor becomes that of another by some calls. -/
def Leads (s s' : Supervisor) : Prop := s.registry.Leads s'.registry

theorem Leads.trans {s s' s'' : Supervisor} (h : s.Leads s') (h' : s'.Leads s'') :
    s.Leads s'' :=
  Health.Registry.Leads.trans h h'

theorem leads_of_registry_eq {s s' : Supervisor} (h : s'.registry = s.registry) :
    s.Leads s' :=
  ⟨[], h⟩

theorem leads_perform (s : Supervisor) (id : Health.RecordId) (op : Health.Operation) :
    s.Leads (s.perform id op) :=
  s.registry.leads_perform id op

theorem registry_ensureRecord (s : Supervisor) (name : String) :
    (s.ensureRecord name).2.registry = (s.registry.findOrInsert name).2 := by
  rw [← Health.Registry.getOrCreate_eq_findOrInsert]
  simp only [ensureRecord]
  split <;> rfl

theorem fst_ensureRecord (s : Supervisor) (name : String) :
    (s.ensureRecord name).1 = (s.registry.findOrInsert name).1.id := by
  rw [← Health.Registry.getOrCreate_eq_findOrInsert]
  rfl

theorem leads_ensureRecord (s : Supervisor) (name : String) :
    s.Leads (s.ensureRecord name).2 := by
  rw [Leads, registry_ensureRecord]
  exact s.registry.leads_findOrInsert name

end Supervisor

/-! ## The beginning of a run -/

namespace Run

variable {α : Type}

/-- A run begins with its job's record, found or created, and a reset of that record. -/
theorem registry_begin (job : Descriptor) (s : Supervisor) :
    (Run.begin job s).2.registry =
      (s.registry.findOrInsert job.name).2.perform (Run.begin job s).1.record
        .resetOutstanding := by
  simp [Run.begin, Supervisor.registry_ensureRecord]

theorem leads_begin (job : Descriptor) (s : Supervisor) : s.Leads (Run.begin job s).2 := by
  rw [Supervisor.Leads, registry_begin]
  exact (s.registry.leads_findOrInsert job.name).trans (Health.Registry.leads_perform _ _ _)

theorem record_fst_begin (job : Descriptor) (s : Supervisor) :
    (Run.begin job s).1.record = (s.registry.findOrInsert job.name).1.id :=
  s.fst_ensureRecord job.name

theorem started_begin (job : Descriptor) (s : Supervisor) :
    (Run.begin job s).1.started = s.clock := by
  simp only [Run.begin, Supervisor.ensureRecord]
  split <;> rfl

theorem job_begin (job : Descriptor) (s : Supervisor) : (Run.begin job s).1.job = job := rfl

/-- In a run the name of the job has a record, and the run knows its place. -/
theorem lookup_begin (job : Descriptor) (s : Supervisor) :
    (Run.begin job s).2.registry.lookup job.name = some (Run.begin job s).1.record := by
  rw [registry_begin, record_fst_begin, Health.Registry.lookup_perform]
  exact s.registry.lookup_findOrInsert_self job.name

/-- A run begins with the record from before, except that no error is outstanding. -/
theorem record_begin (job : Descriptor) {s : Supervisor} (hs : s.registry.WellFormed) :
    (Run.begin job s).2.registry.record (Run.begin job s).1.record =
      (s.registry.recordOf job.name).reset := by
  have hlt := (hs.findOrInsert job.name).inRange job.name _
    (s.registry.lookup_findOrInsert_self job.name)
  rw [registry_begin, record_fst_begin, Health.Registry.record_perform_self _ hlt,
    Health.Registry.record_findOrInsert, Health.Registry.record_findOrInsert_self]
  rfl

/-! ## The settlement -/

/-- The marks of a settlement: one for a failure, then one for an overrun. -/
def marks (failure : Option String) (overran : Bool) : List Health.Operation :=
  (failure.map fun text => .markUnhealthy (some text)).toList ++
    if overran then [.markUnhealthy (some overrunReason)] else []

/-- The operations that settle a record: the marks, and always a healing. -/
def closing (failure : Option String) (overran : Bool) : List Health.Operation :=
  marks failure overran ++ [.healUnlessOutstanding]

/-- Whether the budget is exceeded at the end of a body. -/
def overran (r : Run) (s : Supervisor) : Bool := r.job.budget < s.clock.since r.started

@[simp] theorem registry_fail (r : Run) (text : String) (s : Supervisor) :
    (r.fail text s).registry = s.registry.perform r.record (.markUnhealthy (some text)) := rfl

@[simp] theorem clock_fail (r : Run) (text : String) (s : Supervisor) :
    (r.fail text s).clock = s.clock := rfl

@[simp] theorem registry_overrun (r : Run) (elapsed : Duration) (s : Supervisor) :
    (r.overrun elapsed s).registry =
      s.registry.perform r.record (.markUnhealthy (some overrunReason)) := rfl

@[simp] theorem registry_measure (r : Run) (outcome : Log.Outcome) (s : Supervisor) :
    (r.measure outcome s).registry = s.registry := rfl

@[simp] theorem registry_leave (s : Supervisor) : (leave s).registry = s.registry := rfl

/-- **A run settles its record by exactly the operations of `closing`.** -/
theorem registry_settle (r : Run) (e : Ending α) (s : Supervisor) :
    (r.settle e s).2.registry =
      s.registry.after ((closing e.failure? (r.overran s)).map (.change r.record)) := by
  by_cases ho : r.job.budget < s.clock.since r.started
  · cases hf : e.failure? <;>
      simp [settle, closing, marks, overran, hf, ho, Health.Call.on]
  · cases hf : e.failure? <;>
      simp [settle, closing, marks, overran, hf, ho, Health.Call.on]

theorem leads_settle (r : Run) (e : Ending α) (s : Supervisor) :
    s.Leads (r.settle e s).2 :=
  ⟨_, registry_settle r e s⟩

end Run

end JobSupervisor
