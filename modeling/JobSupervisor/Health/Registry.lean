import JobSupervisor.Health.Cell
import JobSupervisor.NameMap

/-!
# The registry of health records

The registry hands out one record for each job name.  A record is identified by the place
of its cell; the directory maps names to places and never forgets one.  A record can also
stand alone, without a name.

Asking for a record that may not exist takes two steps: a look-up, and then, if it found
nothing, a second step that looks again and inserts in one go.  A name that appeared
between the two steps is therefore found and not inserted again.

## Main definitions

* `Registry.lookup`, `Registry.findOrInsert`, `Registry.getOrCreate`.
* `Registry.allocate` — a record without a name.
* `Registry.perform` — an operation on one record.
* `Registry.listing` — every named record in ascending order of the names.
-/

namespace JobSupervisor.Health

/-- The identity of a record: the place of its cell. -/
abbrev RecordId := Nat

/-- The cells of all records and the places of the named ones. -/
structure Registry where
  cells : List Cell
  directory : NameMap RecordId

/-- The answer to a request for the record of a name. -/
structure Found where
  id : RecordId
  inserted : Bool
  deriving DecidableEq, Repr

namespace Registry

/-- The registry without records. -/
def empty : Registry := ⟨[], .empty⟩

/-- The place of the record of a name; never inserts. -/
def lookup (g : Registry) (name : String) : Option RecordId :=
  g.directory.get? name

/-- A pristine record without a name. -/
def allocate (g : Registry) : RecordId × Registry :=
  (g.cells.length, { g with cells := g.cells ++ [Cell.fresh] })

/-- Looks a name up and inserts a pristine record if there is none, in one step. -/
def findOrInsert (g : Registry) (name : String) : Found × Registry :=
  match g.lookup name with
  | some id => (⟨id, false⟩, g)
  | none =>
      let (id, g) := g.allocate
      (⟨id, true⟩, { g with directory := g.directory.insert name id })

/-- The record of a name, inserted if missing: a look-up, then the inserting step. -/
def getOrCreate (g : Registry) (name : String) : Found × Registry :=
  match g.lookup name with
  | some id => (⟨id, false⟩, g)
  | none => g.findOrInsert name

/-- The record at a place. -/
def record (g : Registry) (id : RecordId) : Record :=
  (g.cells.getD id Cell.fresh).record

/-- The registry after an operation on the record at a place. -/
def perform (g : Registry) (id : RecordId) (op : Operation) : Registry :=
  { g with cells := g.cells.modify id (·.perform op) }

/-- Every named record in ascending order of the names. -/
def listing (g : Registry) : List (String × RecordId) :=
  g.directory.toList

/-- The names in ascending order. -/
def names (g : Registry) : List String := g.directory.keys

/-- The number of named records. -/
def size (g : Registry) : Nat := g.directory.size

/-! ## What the operations do to the views -/

/-- Undisturbed, a look-up before the inserting step makes no difference. -/
theorem getOrCreate_eq_findOrInsert (g : Registry) (name : String) :
    g.getOrCreate name = g.findOrInsert name := by
  unfold getOrCreate findOrInsert
  cases g.lookup name <;> rfl

/-- The name that was asked for has the record that was answered. -/
theorem lookup_findOrInsert_self (g : Registry) (name : String) :
    (g.findOrInsert name).2.lookup name = some (g.findOrInsert name).1.id := by
  unfold findOrInsert
  cases h : g.lookup name with
  | some id => simp [h]
  | none => simp [lookup, allocate]

/-- Every other name keeps its record. -/
theorem lookup_findOrInsert_of_ne (g : Registry) {name other : String} (h : name ≠ other) :
    (g.findOrInsert name).2.lookup other = g.lookup other := by
  unfold findOrInsert
  cases g.lookup name with
  | some id => rfl
  | none => exact NameMap.get?_insert_of_ne g.directory h _

/-- A record that exists is answered as it is. -/
theorem findOrInsert_of_lookup {g : Registry} {name : String} {id : RecordId}
    (h : g.lookup name = some id) : g.findOrInsert name = (⟨id, false⟩, g) := by
  simp [findOrInsert, h]

/-- Changing a record does not change which names there are. -/
@[simp] theorem lookup_perform (g : Registry) (id : RecordId) (op : Operation)
    (name : String) : (g.perform id op).lookup name = g.lookup name := rfl

/-- An operation changes the record at its place. -/
theorem record_perform_self (g : Registry) {id : RecordId} (h : id < g.cells.length)
    (op : Operation) : (g.perform id op).record id = op.apply (g.record id) := by
  simp [record, perform, List.getD, List.getElem?_eq_getElem h]

/-- An operation leaves the records at other places as they are. -/
theorem record_perform_of_ne (g : Registry) {id other : RecordId} (h : id ≠ other)
    (op : Operation) : (g.perform id op).record other = g.record other := by
  simp [record, perform, List.getD, h]

end Registry

end JobSupervisor.Health
