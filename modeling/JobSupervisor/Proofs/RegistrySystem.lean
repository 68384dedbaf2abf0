import JobSupervisor.Proofs.RegistryHistory
import Mathlib.Logic.Function.Basic

/-!
# Threads that ask for records

Threads ask a registry for the records of names, in any order.  A request for a record that may
not exist takes two steps, a look-up and an insertion, and anything can happen between them: two
threads can both look a name up in vain before either of them inserts.  A thread can also just
read the record of a name; a listing is a series of such readings.  All the while the records
themselves are changed.

## Main definitions

* `Request` — how far a thread is with a request.
* `RegistrySystem`, `RegistrySystem.step`, `RegistrySystem.run` — the threads and their registry.
* `RegistrySystem.requests_run_of_ne` — a thread is as far whatever the others do.
* `RegistrySystem.Outcome` — the four things that a step can do.
* `RegistrySystem.registry_request` — the steps of an undisturbed request are `getOrCreate`.
-/

namespace JobSupervisor.Health

/-- How far a thread is with a request for the record of a name. -/
inductive Request where
  | idle
  | seeking (name : String)
  /-- The look-up found no record. -/
  | missed (name : String)

/-- Threads that share a registry, with the records that were returned to them for names and the
names for which an insertion was passed, the latest ones first. -/
structure RegistrySystem where
  registry : Registry
  requests : Nat → Request
  returned : List (String × RecordId)
  passed : List String

namespace RegistrySystem

/-- A single step of one thread, or a change of the records. -/
inductive Move where
  | request (i : Nat) (name : String)
  | lookUp (i : Nat)
  | insert (i : Nat)
  | read (i : Nat) (name : String)
  | allocate
  | change (id : RecordId) (op : Operation)

/-- The operation that a move performs on a record. -/
def Move.operation? (id : RecordId) : Move → Option Operation
  | .change other op => if other = id then some op else none
  | .request _ _ | .lookUp _ | .insert _ | .read _ _ | .allocate => none

/-- The thread that makes a move. -/
def Move.thread? : Move → Option Nat
  | .request i _ | .lookUp i | .insert i | .read i _ => some i
  | .allocate | .change _ _ => none

/-- The system before anything happened. -/
def start : RegistrySystem := ⟨.empty, fun _ => .idle, [], []⟩

/-- Changes how far a thread is. -/
def setRequest (s : RegistrySystem) (i : Nat) (r : Request) : RegistrySystem :=
  { s with requests := Function.update s.requests i r }

/-- Returns the record of a name. -/
def handOut (s : RegistrySystem) (name : String) (id : RecordId) : RegistrySystem :=
  { s with returned := (name, id) :: s.returned }

/-- Finds or inserts the record of a name and returns it. -/
def pass (s : RegistrySystem) (name : String) : RegistrySystem :=
  let (found, g) := s.registry.findOrInsert name
  handOut { s with registry := g, passed := name :: s.passed } name found.id

/-- The system after a move; a move that cannot be made changes nothing. -/
def step (m : Move) (s : RegistrySystem) : RegistrySystem :=
  match m with
  | .request i name =>
      match s.requests i with
      | .idle => s.setRequest i (.seeking name)
      | _ => s
  | .lookUp i =>
      match s.requests i with
      | .seeking name =>
          match s.registry.lookup name with
          | some id => (s.setRequest i .idle).handOut name id
          | none => s.setRequest i (.missed name)
      | _ => s
  | .insert i =>
      match s.requests i with
      | .missed name => (s.setRequest i .idle).pass name
      | _ => s
  | .read i name =>
      match s.requests i, s.registry.lookup name with
      | .idle, some id => s.handOut name id
      | _, _ => s
  | .allocate => { s with registry := s.registry.allocate.2 }
  | .change id op => { s with registry := s.registry.perform id op }

/-- The system after moves one after the other. -/
def run (moves : List Move) (s : RegistrySystem) : RegistrySystem :=
  moves.foldl (fun s m => s.step m) s

@[simp] theorem run_nil (s : RegistrySystem) : s.run [] = s := rfl

@[simp] theorem run_cons (m : Move) (moves : List Move) (s : RegistrySystem) :
    s.run (m :: moves) = (s.step m).run moves := rfl

/-! ## The single moves -/

variable {s : RegistrySystem} {i : Nat} {name : String}

theorem step_request (hi : s.requests i = .idle) (name : String) :
    s.step (.request i name) = s.setRequest i (.seeking name) := by
  simp [step, hi]

theorem step_lookUp (hi : s.requests i = .seeking name) :
    s.step (.lookUp i) = match s.registry.lookup name with
      | some id => (s.setRequest i .idle).handOut name id
      | none => s.setRequest i (.missed name) := by
  simp [step, hi]

theorem step_insert (hi : s.requests i = .missed name) :
    s.step (.insert i) = (s.setRequest i .idle).pass name := by
  simp [step, hi]

theorem step_insert_of_idle (hi : s.requests i = .idle) : s.step (.insert i) = s := by
  simp [step, hi]

theorem step_read (hi : s.requests i = .idle) (name : String) :
    s.step (.read i name) = match s.registry.lookup name with
      | some id => s.handOut name id
      | none => s := by
  cases hl : s.registry.lookup name <;> simp [step, hi, hl]

@[simp] theorem requests_setRequest_self (s : RegistrySystem) (i : Nat) (r : Request) :
    (s.setRequest i r).requests i = r := by
  simp [setRequest]

theorem requests_setRequest_of_ne (s : RegistrySystem) {i j : Nat} (h : j ≠ i) (r : Request) :
    (s.setRequest j r).requests i = s.requests i := by
  simp [setRequest, h.symm]

@[simp] theorem requests_handOut (s : RegistrySystem) (name : String) (id : RecordId) :
    (s.handOut name id).requests = s.requests := rfl

@[simp] theorem requests_pass (s : RegistrySystem) (name : String) :
    (s.pass name).requests = s.requests := rfl

/-- A thread is as far with its request whatever the others do. -/
theorem requests_step_of_ne {m : Move} (h : m.thread? ≠ some i) (s : RegistrySystem) :
    (s.step m).requests i = s.requests i := by
  have hne {j : Nat} (hj : m.thread? = some j) : j ≠ i := fun heq => h (heq ▸ hj)
  cases m with
  | request j name =>
      simp only [step]
      split
      · exact requests_setRequest_of_ne s (hne rfl) _
      · rfl
  | lookUp j =>
      simp only [step]
      split
      · split <;> exact requests_setRequest_of_ne s (hne rfl) _
      · rfl
  | insert j =>
      simp only [step]
      split
      · exact requests_setRequest_of_ne s (hne rfl) _
      · rfl
  | read j name =>
      simp only [step]
      split <;> rfl
  | allocate => rfl
  | change id op => rfl

theorem requests_run_of_ne {moves : List Move} (h : ∀ m ∈ moves, m.thread? ≠ some i)
    (s : RegistrySystem) : (s.run moves).requests i = s.requests i := by
  induction moves generalizing s with
  | nil => rfl
  | cons m moves ih =>
      rw [run_cons, ih (fun m' hm' => h m' (List.mem_cons_of_mem m hm')),
        requests_step_of_ne (h m List.mem_cons_self)]

/-- Undisturbed, the steps of a request do to the registry what `getOrCreate` does, and return
the record that it finds. -/
theorem registry_request (hi : s.requests i = .idle) (name : String) :
    let t := s.run [.request i name, .lookUp i, .insert i]
    t.registry = (s.registry.getOrCreate name).2 ∧
      t.returned = (name, (s.registry.getOrCreate name).1.id) :: s.returned := by
  have hseeking := s.requests_setRequest_self i (.seeking name)
  simp only [run_cons, run_nil, step_request hi, step_lookUp hseeking]
  cases hl : s.registry.lookup name with
  | some id => simp [step, setRequest, handOut, Registry.getOrCreate, hl]
  | none => simp [step, setRequest, handOut, pass, Registry.getOrCreate, hl]

/-! ## What a step can do -/

/-- The four things that a step can do, apart from what it does to the requests: nothing, return
a record that exists, pass an insertion, or change the cells without the names. -/
inductive Outcome (s s' : RegistrySystem) : Prop where
  | silent (registry : s'.registry = s.registry) (returned : s'.returned = s.returned)
      (passed : s'.passed = s.passed)
  | handed (name : String) (id : RecordId) (found : s.registry.lookup name = some id)
      (registry : s'.registry = s.registry) (returned : s'.returned = (name, id) :: s.returned)
      (passed : s'.passed = s.passed)
  | inserted (name : String) (registry : s'.registry = (s.registry.findOrInsert name).2)
      (returned : s'.returned = (name, (s.registry.findOrInsert name).1.id) :: s.returned)
      (passed : s'.passed = name :: s.passed)
  | changed (c : Call) (registry : s'.registry = c.on s.registry)
      (lookup : ∀ name, s'.registry.lookup name = s.registry.lookup name)
      (returned : s'.returned = s.returned) (passed : s'.passed = s.passed)

/-- **What a step can do.** -/
theorem outcome_step (s : RegistrySystem) (m : Move) : Outcome s (s.step m) := by
  cases m with
  | request i name =>
      simp only [step]
      split <;> exact .silent rfl rfl rfl
  | lookUp i =>
      cases hi : s.requests i with
      | idle | missed _ =>
          simp only [step, hi]
          exact .silent rfl rfl rfl
      | seeking name =>
          rw [step_lookUp hi]
          cases hl : s.registry.lookup name with
          | some id => exact .handed name id hl rfl rfl rfl
          | none => exact .silent rfl rfl rfl
  | insert i =>
      simp only [step]
      split
      · rename_i name _
        exact .inserted name rfl rfl rfl
      · exact .silent rfl rfl rfl
  | read i name =>
      simp only [step]
      split
      · rename_i id _ hl
        exact .handed name id hl rfl rfl rfl
      · exact .silent rfl rfl rfl
  | allocate => exact .changed .allocate rfl (fun _ => rfl) rfl rfl
  | change id op => exact .changed (.change id op) rfl (fun _ => rfl) rfl rfl

end RegistrySystem

end JobSupervisor.Health
