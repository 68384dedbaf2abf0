import JobSupervisor.Job.Error
import JobSupervisor.Supervisor

/-!
# Runs of a job

A run begins before the body and is settled after it.  At the beginning the job's record
is found or created, the clock is read, a correlation scope and a span are opened, and
the outstanding error is reset.  The settlement records a failure, compares the elapsed
time with the budget, heals the record unless an error is outstanding, updates the
metrics, and closes span and scope.  An overrun replaces the reason of a failure in the
record, but the failure has been logged.

## Main definitions

* `Descriptor` — the name and the time budget of a job.
* `Ending` — how a body ended.
* `Run.begin`, `Run.settle` — what happens before and after the body.
* `supervise` — a whole run around a body.
-/

namespace JobSupervisor

/-- What a run needs to know about its job. -/
structure Descriptor where
  name : String
  budget : Duration
  deriving DecidableEq, Repr

/-- How a body ended: with a value, with an error, or by a panic whose payload may carry a
text. -/
inductive Ending (α : Type) where
  | value (a : α)
  | error (text : String)
  | panicked (text : Option String)
  deriving Repr

namespace Ending

variable {α : Type}

/-- The value of a body that succeeded. -/
def value? : Ending α → Option α
  | .value a => some a
  | .error _ | .panicked _ => none

/-- The text of a failure; a panic without text has the empty one. -/
def failure? : Ending α → Option String
  | .value _ => none
  | .error text => some text
  | .panicked text => some (text.getD "")

end Ending

/-- The reason recorded when a run exceeds its budget. -/
def overrunReason : String := "Maximum execution time exceeded"

/-- A run in progress: its job, the place of the job's record, the identifier at its
beginning, and the clock reading then. -/
structure Run where
  job : Descriptor
  record : Health.RecordId
  correlation : String
  started : Instant

namespace Run

variable {α : Type}

/-- Begins a run. -/
def begin (job : Descriptor) (s : Supervisor) : Run × Supervisor :=
  let (record, s) := s.ensureRecord job.name
  let started := s.clock
  let (_, s) := s.enterScope none
  let correlation := s.correlation
  let s := s.openSpan (.run job.name correlation)
  let s := s.perform record .resetOutstanding
  (⟨job, record, correlation, started⟩, s.emit .runStarted)

/-- Records and logs a failure of the body. -/
def fail (r : Run) (text : String) (s : Supervisor) : Supervisor :=
  let s := s.perform r.record (.markUnhealthy (some text))
  s.emit (.runFailed r.job.name r.correlation text s.thread.context.snapshot)

/-- Records and logs that the budget was exceeded. -/
def overrun (r : Run) (elapsed : Duration) (s : Supervisor) : Supervisor :=
  let s := s.emit (.runOverran r.job.name r.correlation elapsed r.job.budget)
  s.perform r.record (.markUnhealthy (some overrunReason))

/-- The outcome of a run: an overrun wins over the end of the body. -/
def outcome (r : Run) (e : Ending α) (elapsed : Duration) : Log.Outcome :=
  if r.job.budget < elapsed then .overrun
  else if e.failure?.isSome then .failure else .success

/-- Counts the run and shows the health of its job. -/
def measure (r : Run) (outcome : Log.Outcome) (s : Supervisor) : Supervisor :=
  let m := s.metrics.recordRun r.job.name outcome
  { s with metrics := m.recordHealth r.job.name (s.record r.record).isHealthy }

/-- Closes the span and the scope of the run. -/
def leave (s : Supervisor) : Supervisor :=
  s.closeSpan.exitScope.2

/-- Settles a run after its body ended. -/
def settle (r : Run) (e : Ending α) (s : Supervisor) : Option α × Supervisor :=
  let s := match e.failure? with
    | some text => r.fail text s
    | none => s
  let elapsed := s.clock.since r.started
  let outcome := r.outcome e elapsed
  let s := if r.job.budget < elapsed then r.overrun elapsed s else s
  let s := s.perform r.record .healUnlessOutstanding
  let s := s.emit (.runFinished elapsed outcome)
  (e.value?, leave (r.measure outcome s))

end Run

/-- A whole run around a body.  The body may work on a larger state, of which the
supervisor is the part that `view` shows and `put` replaces. -/
def supervise {σ α : Type} (view : σ → Supervisor) (put : Supervisor → σ → σ)
    (job : Descriptor) (body : σ → Ending α × σ) (x : σ) : Option α × σ :=
  let (r, s) := Run.begin job (view x)
  let (e, x) := body (put s x)
  let (v, s) := r.settle e (view x)
  (v, put s x)

/-- A run returns a value exactly when its body did, whatever the elapsed time. -/
theorem Run.fst_settle {α : Type} (r : Run) (e : Ending α) (s : Supervisor) :
    (r.settle e s).1 = e.value? := rfl

end JobSupervisor
