import JobSupervisor.Text.Blank

/-!
# The health record of a job

A record says whether a job is degraded and why, and remembers whether an error was
recorded since the last reset.  Four operations change it.  Marking a job healthy or
unhealthy replaces the whole record; a reset clears only the outstanding error; a
*healing* makes the record healthy unless an error is outstanding.

## Main definitions

* `Record` — degraded or not, outstanding error or not, and the reason.
* `Operation` — the four ways to change a record, with `Operation.apply` and
  `Operation.answer?`.
* `Snapshot` — what a reader sees: a status, and a reason when degraded.
-/

namespace JobSupervisor.Health

/-- The externally visible status of a job or of all jobs. -/
inductive Status where
  | healthy
  | degraded
  deriving DecidableEq, Repr

namespace Status

/-- The status as the health endpoints report it. -/
def endpointWord : Status → String
  | .healthy => "UP"
  | .degraded => "RESTRICTED"

/-- The status as it is serialized in reports. -/
def word : Status → String
  | .healthy => "HEALTHY"
  | .degraded => "DEGRADED"

end Status

/-- What a reader sees of a record. -/
structure Snapshot where
  status : Status
  reason : Option String
  deriving DecidableEq, Repr

/-- The state of one job's health. -/
structure Record where
  unhealthy : Bool
  outstanding : Bool
  reason : Option String
  deriving DecidableEq, Repr

/-- The reason recorded when a failure carries no usable text. -/
def unknownReason : String := "Unknown"

/-- The reason that a failure text leaves in a record: the text itself unless it is
missing or blank. -/
def usableReason : Option String → String
  | some text => if (Text.trim text).isEmpty then unknownReason else text
  | none => unknownReason

namespace Record

/-- The state of a new record and of one that was marked healthy. -/
def pristine : Record := ⟨false, false, none⟩

/-- The state after a failure was recorded. -/
def failed (reason : Option String) : Record :=
  ⟨true, true, some (usableReason reason)⟩

/-- Clears the outstanding error and keeps status and reason. -/
def reset (r : Record) : Record := { r with outstanding := false }

/-- The record after a healing: pristine unless an error is outstanding. -/
def healed (r : Record) : Record := if r.outstanding then r else pristine

/-- Whether the record is healthy. -/
def isHealthy (r : Record) : Bool := !r.unhealthy

/-- What a reader sees. -/
def snapshot (r : Record) : Snapshot :=
  if r.unhealthy then ⟨.degraded, r.reason⟩ else ⟨.healthy, none⟩

@[simp] theorem snapshot_pristine : pristine.snapshot = ⟨.healthy, none⟩ := rfl

@[simp] theorem snapshot_failed (reason : Option String) :
    (failed reason).snapshot = ⟨.degraded, some (usableReason reason)⟩ := rfl

/-- A reset does not change what a reader sees. -/
@[simp] theorem snapshot_reset (r : Record) : r.reset.snapshot = r.snapshot := rfl

@[simp] theorem isHealthy_pristine : pristine.isHealthy = true := rfl

@[simp] theorem isHealthy_failed (reason : Option String) :
    (failed reason).isHealthy = false := rfl

@[simp] theorem isHealthy_reset (r : Record) : r.reset.isHealthy = r.isHealthy := rfl

@[simp] theorem outstanding_reset (r : Record) : r.reset.outstanding = false := rfl

/-- An outstanding error keeps a healing from doing anything. -/
theorem healed_of_outstanding {r : Record} (h : r.outstanding = true) : r.healed = r := by
  simp [healed, h]

/-- Without an outstanding error a healing leaves the pristine record. -/
theorem healed_of_not_outstanding {r : Record} (h : r.outstanding = false) :
    r.healed = pristine := by
  simp [healed, h]

end Record

/-- The ways to change a record. -/
inductive Operation where
  | markHealthy
  | markUnhealthy (reason : Option String)
  | resetOutstanding
  | healUnlessOutstanding
  deriving DecidableEq, Repr

namespace Operation

/-- The record after an operation. -/
def apply : Operation → Record → Record
  | .markHealthy, _ => Record.pristine
  | .markUnhealthy reason, _ => Record.failed reason
  | .resetOutstanding, r => r.reset
  | .healUnlessOutstanding, r => r.healed

/-- What an operation answers: a healing tells whether no error was outstanding before it, and
the others say nothing. -/
def answer? : Operation → Record → Option Bool
  | .healUnlessOutstanding, r => some (!r.outstanding)
  | .markHealthy, _ | .markUnhealthy _, _ | .resetOutstanding, _ => none

end Operation

end JobSupervisor.Health
