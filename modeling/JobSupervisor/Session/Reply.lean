import JobSupervisor.Client.Exchange
import JobSupervisor.Job.TriggerLoop

/-!
# The answers of a session

Every action and every step has an answer.  Answers show what a caller can see of a
record, of the context of a thread, of the schedule and of the loops.

## Main definitions

* `RecordView`, `ContextView` — what is seen of a record and of a context.
* `Reply` — the answers.
-/

namespace JobSupervisor.Session

/-- What is seen of a record. -/
structure RecordView where
  snapshot : Health.Snapshot
  healthy : Bool
  outstanding : Bool
  deriving DecidableEq, Repr

/-- What is seen of a record. -/
def RecordView.of (r : Health.Record) : RecordView :=
  ⟨r.snapshot, r.isHealthy, r.outstanding⟩

/-- What an operation on a context answers. -/
inductive ContextAnswer where
  | nothing
  | flag (b : Bool)
  | scope (created : Bool) (id : String)
  deriving DecidableEq, Repr

/-- What is seen of the context of a thread. -/
structure ContextView where
  depth : Nat
  current : Option String
  deriving DecidableEq, Repr

/-- What is seen of the context of a thread. -/
def ContextView.of (c : Context) : ContextView := ⟨c.depth, c.current⟩

/-- What came of firing a job by hand. -/
inductive RunAnswer where
  | fired (f : Fired)
  | failed (e : JobError)
  deriving DecidableEq

/-- The name, the budget and the schedule of a job. -/
structure JobPlan where
  descriptor : Descriptor
  interval : Duration
  initialDelay : Duration
  deriving DecidableEq, Repr

/-- How a loop stands after it was waited for. -/
inductive LoopState where
  | exited
  | panicked
  | running
  deriving DecidableEq, Repr

/-- How a loop stands. -/
def LoopState.of : Phase → LoopState
  | .exited => .exited
  | .panicked => .panicked
  | .delaying _ | .ticking _ => .running

/-- The answers of actions and steps. -/
inductive Reply where
  | nothing
  | flag (b : Bool)
  | count (n : Nat)
  | text (s : String)
  | optionalText (s : Option String)
  | record (r : Option RecordView)
  | healed (r : RecordView) (answer : Bool)
  | report (r : Health.Report)
  | listing (rs : List (String × RecordView))
  | names (ns : List String)
  | size (n : Nat)
  | together (same : Bool) (n : Nat)
  | context (answer : ContextAnswer) (c : ContextView)
  | entries (es : List (String × String))
  | removed (value : Option String) (es : List (String × String))
  | thread (rs : List Reply)
  | run (value : Option String) (body : List Reply) (r : Option RecordView) (c : ContextView)
  | command (r : Except JobError Unit)
  | configuredBody (plan : JobPlan) (sameAsDefault : Bool) (r : Except JobError Unit)
  | lease (l : Option Lease) (held : Bool)
  | panicked (text : String)
  | shutdown (triggered : Bool) (receivers : Nat)
  | poll (ready triggered : Bool)
  | signalled (before triggered : Bool) (receivers : Nat)
  | samples (m : Metrics)
  | calls (c : NameMap Nat)
  | response (r : Http.Response)
  | client (o : Client.Outcome)
  | served (receivers : Nat)
  | registered (jobs : Nat) (names : List String)
  | refused (e : JobError)
  | plans (ps : List JobPlan)
  | fired (answer : RunAnswer) (bodies : List (List Reply)) (r : Option RecordView)
      (held : Bool)
  | firedPair (a b : RunAnswer)
  | loops (ls : List LoopState) (c : NameMap Nat)

end JobSupervisor.Session
