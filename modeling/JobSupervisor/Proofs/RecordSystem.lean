import JobSupervisor.Health.Cell
import JobSupervisor.Proofs.OverlappingRuns
import Mathlib.Logic.Function.Basic

/-!
# Threads that work on one record

Threads perform operations on one record in any order.  A mark is a single store.  The two
other operations load the cell, propose a record from what they loaded, and swap it in at the
end; anything can happen in between.  A swap compares the address of what lies in the cell now
with the address of what was loaded, and a thread whose swap fails has to load again.  Readers
see the cell at one moment.

## Main definitions

* `Access` — how far a thread is with an operation.
* `Completion` — an operation that stored or swapped, with its answer and what it installed.
* `Cell.swapAt` — the conditional write that compares addresses.
* `RecordSystem`, `RecordSystem.step`, `RecordSystem.run` — the threads with their cell.
* `RecordSystem.Distinct` — no record lies at the address of another one that is compared.
* `RecordSystem.cell_operation` — the steps undisturbed are the operation on the cell.
-/

namespace JobSupervisor.Health

/-- How far a thread is with an operation: it has none, it has still to store or to load, or
it has loaded the cell and has still to swap. -/
inductive Access where
  | idle
  | called (op : Operation)
  | loaded (op : Operation) (c : Cell)
  deriving DecidableEq

/-- The operation that a thread has called and not completed. -/
def Access.pending : Access → List Operation
  | .idle => []
  | .called op => [op]
  | .loaded op _ => [op]

/-- An operation that stored or swapped: the thread that called it, its answer, and the record
that it installed. -/
structure Completion where
  thread : Nat
  op : Operation
  answer : Option Bool
  record : Record
  deriving DecidableEq

/-- The operation with its thread. -/
def Completion.entry (e : Completion) : Nat × Operation := (e.thread, e.op)

/-- The conditional write by address: it fails if the record in the cell does not lie at the
address of the record that was loaded. -/
def Cell.swapAt (address : Nat → Nat) (loaded : Nat) (p : Proposal) (c : Cell) : Option Cell :=
  if address c.stamp = address loaded then some (c.accept p) else none

/-- As long as an address tells the loaded record from the one in the cell, comparing addresses
is comparing stamps. -/
theorem Cell.swapAt_eq_swapIf {address : Nat → Nat} {loaded : Nat} {c : Cell}
    (h : address c.stamp = address loaded → c.stamp = loaded) (p : Proposal) :
    c.swapAt address loaded p = c.swapIf loaded p := by
  by_cases heq : c.stamp = loaded
  · simp [swapAt, swapIf, heq]
  · have hne : address c.stamp ≠ address loaded := fun ha => heq (h ha)
    simp [swapAt, swapIf, heq, hne]

/-- The threads with the cell of their record, the operations in the order of their calls, the
completed ones in the order of their store or swap, and what readers saw. -/
structure RecordSystem where
  cell : Cell
  accesses : Nat → Access
  calls : History
  history : List Completion
  reads : List Record

namespace RecordSystem

/-- A single step of one thread. -/
inductive Move where
  | call (i : Nat) (op : Operation)
  | store (i : Nat)
  | load (i : Nat)
  | swap (i : Nat)
  /-- Somebody reads the cell. -/
  | read
  deriving DecidableEq

/-- The system with a new record. -/
def initial : RecordSystem := ⟨Cell.fresh, fun _ => .idle, [], [], []⟩

/-- Changes how far a thread is. -/
def setAccess (s : RecordSystem) (i : Nat) (a : Access) : RecordSystem :=
  { s with accesses := Function.update s.accesses i a }

/-- A thread calls an operation. -/
def invoke (s : RecordSystem) (i : Nat) (op : Operation) : RecordSystem :=
  { s.setAccess i (.called op) with calls := s.calls ++ [(i, op)] }

/-- An operation of a thread is complete and has left a cell. -/
def complete (s : RecordSystem) (i : Nat) (op : Operation) (answer : Option Bool) (c : Cell) :
    RecordSystem :=
  { s.setAccess i .idle with cell := c, history := s.history ++ [⟨i, op, answer, c.record⟩] }

/-- The system after a move, if the `n`-th record that was installed lies at `address n`; a
move that cannot be made changes nothing.  The answer of a swap is made from what was
loaded. -/
def step (address : Nat → Nat) (m : Move) (s : RecordSystem) : RecordSystem :=
  match m with
  | .call i op =>
      match s.accesses i with
      | .idle => s.invoke i op
      | _ => s
  | .store i =>
      match s.accesses i with
      | .called op =>
          if op.loadsFirst then s
          else s.complete i op (op.answer? s.cell.record) (s.cell.accept (op.propose s.cell.record))
      | _ => s
  | .load i =>
      match s.accesses i with
      | .called op => if op.loadsFirst then s.setAccess i (.loaded op s.cell) else s
      | _ => s
  | .swap i =>
      match s.accesses i with
      | .loaded op c =>
          match s.cell.swapAt address c.stamp (op.propose c.record) with
          | some d => s.complete i op (op.answer? c.record) d
          | none => s.setAccess i (.called op)
      | _ => s
  | .read => { s with reads := s.reads ++ [s.cell.record] }

/-- The system after moves one after the other. -/
def run (address : Nat → Nat) (moves : List Move) (s : RecordSystem) : RecordSystem :=
  moves.foldl (fun s m => s.step address m) s

@[simp] theorem run_nil (address : Nat → Nat) (s : RecordSystem) : s.run address [] = s := rfl

@[simp] theorem run_cons (address : Nat → Nat) (m : Move) (moves : List Move)
    (s : RecordSystem) : s.run address (m :: moves) = (s.step address m).run address moves := rfl

/-- The address of a record that a thread has loaded is not used again while the thread may
still compare it. -/
def Distinct (address : Nat → Nat) (s : RecordSystem) : Prop :=
  ∀ i op c, s.accesses i = .loaded op c →
    address s.cell.stamp = address c.stamp → s.cell.stamp = c.stamp

/-- A system that moves can make while no address is used again too early. -/
inductive Reachable (address : Nat → Nat) : RecordSystem → Prop where
  | initial : Reachable address initial
  | step {s : RecordSystem} (h : Reachable address s) (hd : s.Distinct address) (m : Move) :
      Reachable address (s.step address m)

-- With two addresses used in turn, a healing that loaded the first record takes the third one for
-- it, and the failure that was stored in between is lost.
example :
    ((initial.run (· % 2) [.call 0 .healUnlessOutstanding, .load 0, .call 1 .markHealthy, .store 1,
      .call 1 (.markUnhealthy none), .store 1, .swap 0]).cell.record).isHealthy = true := by
  decide

/-! ## The single moves -/

variable {address : Nat → Nat} {s : RecordSystem} {i : Nat} {op : Operation} {c : Cell}

@[simp] theorem accesses_setAccess_self (s : RecordSystem) (i : Nat) (a : Access) :
    (s.setAccess i a).accesses i = a := by
  simp [setAccess]

theorem accesses_setAccess_of_ne (s : RecordSystem) {i j : Nat} (h : j ≠ i) (a : Access) :
    (s.setAccess i a).accesses j = s.accesses j := by
  simp [setAccess, h]

@[simp] theorem accesses_invoke_self (s : RecordSystem) (i : Nat) (op : Operation) :
    (s.invoke i op).accesses i = .called op :=
  s.accesses_setAccess_self i _

theorem step_call (hi : s.accesses i = .idle) (op : Operation) :
    s.step address (.call i op) = s.invoke i op := by
  simp [step, hi]

theorem step_store (hi : s.accesses i = .called op) (hop : op.loadsFirst = false) :
    s.step address (.store i) =
      s.complete i op (op.answer? s.cell.record) (s.cell.accept (op.propose s.cell.record)) := by
  simp [step, hi, hop]

theorem step_load (hi : s.accesses i = .called op) (hop : op.loadsFirst = true) :
    s.step address (.load i) = s.setAccess i (.loaded op s.cell) := by
  simp [step, hi, hop]

/-- A swap succeeds if what was loaded is still in the cell. -/
theorem step_swap_of_eq (hi : s.accesses i = .loaded op c) (hc : s.cell.stamp = c.stamp) :
    s.step address (.swap i) =
      s.complete i op (op.answer? c.record) (s.cell.accept (op.propose c.record)) := by
  simp [step, hi, Cell.swapAt, hc]

/-- A swap fails if something else lies in the cell, as long as the addresses tell the two
apart. -/
theorem step_swap_of_ne (hd : s.Distinct address) (hi : s.accesses i = .loaded op c)
    (hc : s.cell.stamp ≠ c.stamp) : s.step address (.swap i) = s.setAccess i (.called op) := by
  simp [step, hi, Cell.swapAt_eq_swapIf (hd i op c hi), Cell.swapIf, hc]

/-- Undisturbed, the steps of an operation do to the cell what the operation does. -/
theorem cell_operation (hi : s.accesses i = .idle) (op : Operation) :
    (s.run address
      (if op.loadsFirst then [.call i op, .load i, .swap i] else [.call i op, .store i])).cell =
      s.cell.perform op := by
  cases hop : op.loadsFirst with
  | false =>
      rw [if_neg Bool.false_ne_true, run_cons, step_call hi, run_cons, run_nil,
        step_store (s.accesses_invoke_self i op) hop]
      simp [complete, invoke, setAccess, Cell.perform, hop]
  | true =>
      rw [if_pos rfl, run_cons, step_call hi, run_cons,
        step_load (s.accesses_invoke_self i op) hop, run_cons, run_nil,
        step_swap_of_eq (accesses_setAccess_self _ i _) rfl]
      simp [complete, invoke, setAccess, Cell.perform, Cell.swapIf, hop]

end RecordSystem

end JobSupervisor.Health
