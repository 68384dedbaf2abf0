import JobSupervisor.Health.Record

/-!
# Cells that are replaced whole

A record lies in a cell.  The cell is never changed in place: a write installs a whole
record under a new stamp.  Plain writes install without looking; the other operations
load the cell, compute a proposal from what they loaded, and install it only if the stamp
is still the one they loaded, and otherwise load again.  A proposal to keep the record
leaves the stamp as it is.  Stamps grow with every installed record, so an equal stamp
means that nothing was installed in between.

## Main definitions

* `Cell` — a record under a stamp.
* `Cell.store` — the plain write.
* `Proposal`, `Cell.swapIf` — the conditional write of an operation that loaded before.
* `Cell.perform` — an operation that is not disturbed between its load and its write.
-/

namespace JobSupervisor.Health

/-- A record under the stamp of the write that installed it. -/
structure Cell where
  stamp : Nat
  record : Record
  deriving DecidableEq, Repr

/-- What an operation wants to install after it has loaded a record. -/
inductive Proposal where
  | keep
  | replace (r : Record)
  deriving DecidableEq, Repr

/-- The operations that load first, and what they propose. -/
def Operation.propose : Operation → Record → Proposal
  | .markHealthy, _ => .replace Record.pristine
  | .markUnhealthy reason, _ => .replace (Record.failed reason)
  | .resetOutstanding, r => .replace r.reset
  | .healUnlessOutstanding, r => if r.outstanding then .keep else .replace Record.pristine

/-- Whether an operation loads before it writes; the two marks do not. -/
def Operation.loadsFirst : Operation → Bool
  | .markHealthy => false
  | .markUnhealthy _ => false
  | .resetOutstanding => true
  | .healUnlessOutstanding => true

namespace Cell

/-- A cell with a pristine record. -/
def fresh : Cell := ⟨0, Record.pristine⟩

/-- The plain write. -/
def store (r : Record) (c : Cell) : Cell := ⟨c.stamp + 1, r⟩

/-- The cell after a proposal was accepted. -/
def accept (c : Cell) : Proposal → Cell
  | .keep => c
  | .replace r => c.store r

/-- The conditional write: it fails if the stamp is no longer the loaded one. -/
def swapIf (loaded : Nat) (p : Proposal) (c : Cell) : Option Cell :=
  if c.stamp = loaded then some (c.accept p) else none

/-- An operation whose load and write are not interrupted. -/
def perform (op : Operation) (c : Cell) : Cell :=
  if op.loadsFirst then (c.swapIf c.stamp (op.propose c.record)).getD c
  else c.accept (op.propose c.record)

/-- An uninterrupted operation does to the record what `Operation.apply` says. -/
@[simp] theorem record_perform (op : Operation) (c : Cell) :
    (c.perform op).record = op.apply c.record := by
  cases op with
  | markHealthy => rfl
  | markUnhealthy reason => rfl
  | resetOutstanding => simp [perform, Operation.loadsFirst, swapIf, accept, store,
      Operation.propose, Operation.apply]
  | healUnlessOutstanding =>
      by_cases h : c.record.outstanding = true <;>
        simp [perform, Operation.loadsFirst, swapIf, accept, store, Operation.propose,
          Operation.apply, Record.healed, h]

end Cell

end JobSupervisor.Health
