import JobSupervisor.Health.Registry
import JobSupervisor.Proofs.RecordHistory

/-!
# Registries under sequences of calls

A registry changes by calls: a name is asked for and inserted if missing, a record is made
without a name, or an operation is performed on a record.  Of a record that exists, a
sequence of calls leaves what the operations on that record leave, in their order; calls on
other records and new records do not matter.

## Main definitions

* `Call`, `Registry.after` — a call, and calls one after the other.
* `operationsOn` — the operations on one record among calls.
* `Registry.Leads` — one registry becomes another by some calls.
* `Registry.Reachable` — the registries that the empty one leads to.
* `Registry.Separate` — distinct names have distinct records.
* `Registry.recordOf` — the record of a name.
-/

namespace JobSupervisor.Health

/-- A call that changes a registry. -/
inductive Call where
  | create (name : String)
  | allocate
  | change (id : RecordId) (op : Operation)
  deriving DecidableEq, Repr

namespace Call

/-- The registry after a call. -/
def on : Call → Registry → Registry
  | .create name, g => (g.findOrInsert name).2
  | .allocate, g => g.allocate.2
  | .change id op, g => g.perform id op

/-- The operation that a call performs on a record. -/
def operation? (id : RecordId) : Call → Option Operation
  | .create _ => none
  | .allocate => none
  | .change other op => if other = id then some op else none

end Call

/-- The operations on one record among calls, in their order. -/
def operationsOn (id : RecordId) (calls : List Call) : List Operation :=
  calls.filterMap (Call.operation? id)

/-- Operations on one record are all of them operations on that record. -/
@[simp] theorem operationsOn_map_change (id : RecordId) (ops : List Operation) :
    operationsOn id (ops.map (.change id)) = ops := by
  induction ops with
  | nil => rfl
  | cons op ops ih => simp_all [operationsOn, Call.operation?]

namespace Registry

/-! ## A single call -/

/-- A place without a cell reads like the fresh cell that comes there. -/
theorem record_of_length_le {g : Registry} {id : RecordId} (h : g.cells.length ≤ id) :
    g.record id = Record.pristine := by
  simp [record, List.getD, List.getElem?_eq_none h, Cell.fresh]

@[simp] theorem record_allocate (g : Registry) (id : RecordId) :
    g.allocate.2.record id = g.record id := by
  rcases Nat.lt_or_ge id g.cells.length with h | h
  · simp [record, allocate, List.getD, List.getElem?_append_left h]
  · rw [record_of_length_le h]
    rcases Nat.eq_or_lt_of_le h with rfl | hlt
    · simp [record, allocate, List.getD, Cell.fresh]
    · exact record_of_length_le (by simpa [allocate] using Nat.succ_le_of_lt hlt)

@[simp] theorem record_findOrInsert (g : Registry) (name : String) (id : RecordId) :
    (g.findOrInsert name).2.record id = g.record id := by
  simp only [findOrInsert]
  cases g.lookup name with
  | some id => rfl
  | none => exact g.record_allocate id

/-- A name that has a record keeps it when another name is asked for. -/
theorem lookup_findOrInsert_of_lookup {g : Registry} {name : String} {id : RecordId}
    (h : g.lookup name = some id) (other : String) :
    (g.findOrInsert other).2.lookup name = some id := by
  by_cases hne : other = name
  · subst hne
    rw [findOrInsert_of_lookup h, h]
  · rw [lookup_findOrInsert_of_ne g hne, h]

theorem lookup_on {g : Registry} {name : String} {id : RecordId} (h : g.lookup name = some id)
    (c : Call) : (c.on g).lookup name = some id := by
  cases c with
  | create other => exact lookup_findOrInsert_of_lookup h other
  | allocate => exact h
  | change other op => exact h

theorem length_findOrInsert_le (g : Registry) (name : String) :
    g.cells.length ≤ (g.findOrInsert name).2.cells.length := by
  simp only [findOrInsert]
  cases g.lookup name <;> simp [allocate]

theorem length_on_le (g : Registry) (c : Call) : g.cells.length ≤ (c.on g).cells.length := by
  cases c with
  | create name => exact g.length_findOrInsert_le name
  | allocate => simp [Call.on, allocate]
  | change id op => simp [Call.on, perform]

/-- A call leaves of a record what its operation on that record leaves. -/
theorem record_on {g : Registry} {id : RecordId} (h : id < g.cells.length) (c : Call) :
    (c.on g).record id = (g.record id).after (c.operation? id).toList := by
  cases c with
  | create name => exact g.record_findOrInsert name id
  | allocate => exact g.record_allocate id
  | change other op =>
      by_cases hne : other = id
      · subst hne
        simp [Call.on, Call.operation?, record_perform_self g h]
      · simp [Call.on, Call.operation?, hne, record_perform_of_ne g hne]

/-! ## Calls one after the other -/

/-- The registry after calls one after the other. -/
def after (calls : List Call) (g : Registry) : Registry :=
  calls.foldl (fun g c => c.on g) g

@[simp] theorem after_nil (g : Registry) : g.after [] = g := rfl

@[simp] theorem after_cons (c : Call) (calls : List Call) (g : Registry) :
    g.after (c :: calls) = (c.on g).after calls := rfl

@[simp] theorem after_append (calls calls' : List Call) (g : Registry) :
    g.after (calls ++ calls') = (g.after calls).after calls' :=
  List.foldl_append

/-- The record of a name stays the record of that name. -/
theorem lookup_after {g : Registry} {name : String} {id : RecordId}
    (h : g.lookup name = some id) (calls : List Call) :
    (g.after calls).lookup name = some id := by
  induction calls generalizing g with
  | nil => exact h
  | cons c calls ih => exact ih (lookup_on h c)

/-- **Calls leave of a record what the operations on that record leave, in their order.** -/
theorem record_after {g : Registry} {id : RecordId} (h : id < g.cells.length)
    (calls : List Call) :
    (g.after calls).record id = (g.record id).after (operationsOn id calls) := by
  induction calls generalizing g with
  | nil => rfl
  | cons c calls ih =>
      have hlt : id < (c.on g).cells.length := Nat.lt_of_lt_of_le h (g.length_on_le c)
      rw [after_cons, ih hlt, record_on h c, ← Record.after_append]
      congr 1
      cases ho : c.operation? id <;> simp [operationsOn, ho]

/-! ## Registries that lead to others -/

/-- One registry becomes another by some calls. -/
def Leads (g g' : Registry) : Prop := ∃ calls, g' = g.after calls

theorem Leads.refl (g : Registry) : g.Leads g := ⟨[], rfl⟩

theorem Leads.trans {g g' g'' : Registry} (h : g.Leads g') (h' : g'.Leads g'') :
    g.Leads g'' := by
  obtain ⟨calls, rfl⟩ := h
  obtain ⟨calls', rfl⟩ := h'
  exact ⟨calls ++ calls', (after_append calls calls' g).symm⟩

theorem leads_findOrInsert (g : Registry) (name : String) : g.Leads (g.findOrInsert name).2 :=
  ⟨[.create name], rfl⟩

theorem leads_allocate (g : Registry) : g.Leads g.allocate.2 := ⟨[.allocate], rfl⟩

theorem leads_perform (g : Registry) (id : RecordId) (op : Operation) :
    g.Leads (g.perform id op) :=
  ⟨[.change id op], rfl⟩

/-- A registry that calls can make. -/
def Reachable (g : Registry) : Prop := empty.Leads g

theorem Reachable.leads {g g' : Registry} (h : g.Reachable) (h' : g.Leads g') : g'.Reachable :=
  Leads.trans h h'

/-- What holds of every registry that calls can make: the directory names cells, and every
record is one that can occur. -/
structure WellFormed (g : Registry) : Prop where
  inRange : ∀ name id, g.lookup name = some id → id < g.cells.length
  sound : ∀ id, (g.record id).Sound

theorem wellFormed_empty : empty.WellFormed :=
  ⟨fun _ _ h => by simp [lookup, empty] at h, fun _ => Record.sound_pristine⟩

theorem WellFormed.findOrInsert {g : Registry} (h : g.WellFormed) (name : String) :
    (g.findOrInsert name).2.WellFormed := by
  refine ⟨fun other id hl => ?_, fun id => ?_⟩
  · by_cases hne : name = other
    · subst hne
      cases hg : g.lookup name with
      | some known =>
          rw [findOrInsert_of_lookup hg] at hl ⊢
          exact h.inRange name id hl
      | none =>
          rw [lookup_findOrInsert_self] at hl
          simp only [Registry.findOrInsert, hg, allocate, Option.some.injEq] at hl ⊢
          simp [← hl]
    · rw [lookup_findOrInsert_of_ne g hne] at hl
      exact Nat.lt_of_lt_of_le (h.inRange other id hl) (g.length_findOrInsert_le name)
  · rw [record_findOrInsert]
    exact h.sound id

theorem WellFormed.perform {g : Registry} (h : g.WellFormed) (id : RecordId) (op : Operation) :
    (g.perform id op).WellFormed := by
  refine ⟨fun name other hl => ?_, fun other => ?_⟩
  · simpa [Registry.perform] using h.inRange name other hl
  · by_cases hne : id = other
    · subst hne
      by_cases hlt : id < g.cells.length
      · rw [record_perform_self g hlt]
        exact (h.sound id).apply op
      · rw [record_of_length_le (by simpa [Registry.perform] using hlt)]
        exact Record.sound_pristine
    · rw [record_perform_of_ne g hne]
      exact h.sound other

theorem WellFormed.on {g : Registry} (h : g.WellFormed) (c : Call) : (c.on g).WellFormed := by
  cases c with
  | create name => exact h.findOrInsert name
  | allocate =>
      refine ⟨fun name id hl => ?_, fun id => ?_⟩
      · exact Nat.lt_of_lt_of_le (h.inRange name id hl) (g.length_on_le .allocate)
      · exact (g.record_allocate id).symm ▸ h.sound id
  | change id op => exact h.perform id op

/-- Every registry that calls can make is well formed. -/
theorem Reachable.wellFormed {g : Registry} (h : g.Reachable) : g.WellFormed := by
  obtain ⟨calls, rfl⟩ := h
  suffices ∀ g : Registry, g.WellFormed → (g.after calls).WellFormed from
    this empty wellFormed_empty
  induction calls with
  | nil => exact fun _ hg => hg
  | cons c calls ih => exact fun g hg => ih (c.on g) (hg.on c)

/-! ## Distinct names -/

/-- Distinct names have distinct records. -/
def Separate (g : Registry) : Prop :=
  ∀ name other id, g.lookup name = some id → g.lookup other = some id → name = other

/-- A record that is made for a name comes at a place where none was. -/
theorem Separate.findOrInsert {g : Registry} (h : g.Separate) (hw : g.WellFormed)
    (name : String) : (g.findOrInsert name).2.Separate := by
  cases hg : g.lookup name with
  | some id => rwa [findOrInsert_of_lookup hg]
  | none =>
      have hself : (g.findOrInsert name).2.lookup name = some g.cells.length := by
        rw [lookup_findOrInsert_self]
        simp [Registry.findOrInsert, hg, allocate]
      have hother {other : String} (hne : name ≠ other)
          (hl : (g.findOrInsert name).2.lookup other = some g.cells.length) : False := by
        rw [lookup_findOrInsert_of_ne g hne] at hl
        exact Nat.lt_irrefl _ (hw.inRange other _ hl)
      intro a b id ha hb
      by_cases hna : name = a <;> by_cases hnb : name = b
      · exact hna.symm.trans hnb
      · subst hna
        obtain rfl := Option.some.inj (hself.symm.trans ha)
        exact (hother hnb hb).elim
      · subst hnb
        obtain rfl := Option.some.inj (hself.symm.trans hb)
        exact (hother hna ha).elim
      · rw [lookup_findOrInsert_of_ne g hna] at ha
        rw [lookup_findOrInsert_of_ne g hnb] at hb
        exact h a b id ha hb

/-- In every registry that calls can make, distinct names have distinct records. -/
theorem Reachable.separate {g : Registry} (h : g.Reachable) : g.Separate := by
  obtain ⟨calls, rfl⟩ := h
  suffices ∀ g : Registry, g.WellFormed → g.Separate → (g.after calls).Separate from
    this empty wellFormed_empty fun _ _ _ h => by simp [lookup, empty] at h
  induction calls with
  | nil => exact fun _ _ hg => hg
  | cons c calls ih =>
      refine fun g hw hg => ih (c.on g) (hw.on c) ?_
      cases c with
      | create name => exact hg.findOrInsert hw name
      | allocate => exact hg
      | change id op => exact hg

/-- After names were asked for, they have records, and no other name that had none. -/
theorem isSome_lookup_after_create (g : Registry) (names : List String) (name : String) :
    ((g.after (names.map .create)).lookup name).isSome = true ↔
      (g.lookup name).isSome = true ∨ name ∈ names := by
  induction names generalizing g with
  | nil => simp
  | cons other names ih =>
      rw [List.map_cons, after_cons, ih, Call.on, List.mem_cons]
      by_cases hne : other = name
      · subst hne
        simp [lookup_findOrInsert_self]
      · simp [lookup_findOrInsert_of_ne g hne, Ne.symm hne]

/-- Names without a record that are asked for once get one each. -/
theorem length_after_create {g : Registry} {names : List String} (hnodup : names.Nodup)
    (hnew : ∀ name ∈ names, g.lookup name = none) :
    (g.after (names.map .create)).cells.length = g.cells.length + names.length := by
  induction names generalizing g with
  | nil => rfl
  | cons name names ih =>
      obtain ⟨hnot, hnodup⟩ := List.nodup_cons.1 hnodup
      have hlength : (g.findOrInsert name).2.cells.length = g.cells.length + 1 := by
        simp [findOrInsert, hnew name (by simp), allocate]
      rw [List.map_cons, after_cons, ih hnodup, Call.on, hlength, List.length_cons]
      · omega
      · intro other hother
        have hne : name ≠ other := fun heq => hnot (heq ▸ hother)
        rw [Call.on, lookup_findOrInsert_of_ne g hne]
        exact hnew other (by simp [hother])

/-! ## The record of a name -/

/-- The record of a name; a name without a record reads like a new one. -/
def recordOf (g : Registry) (name : String) : Record :=
  ((g.lookup name).map g.record).getD Record.pristine

theorem recordOf_of_lookup {g : Registry} {name : String} {id : RecordId}
    (h : g.lookup name = some id) : g.recordOf name = g.record id := by
  simp [recordOf, h]

theorem sound_recordOf {g : Registry} (h : g.WellFormed) (name : String) :
    (g.recordOf name).Sound := by
  cases hl : g.lookup name with
  | none => simpa [recordOf, hl] using Record.sound_pristine
  | some id => simpa [recordOf, hl] using h.sound id

/-- The record that a request finds or creates reads like the record of the name before. -/
theorem record_findOrInsert_self (g : Registry) (name : String) :
    g.record (g.findOrInsert name).1.id = g.recordOf name := by
  cases hl : g.lookup name with
  | some id => rw [findOrInsert_of_lookup hl, recordOf_of_lookup hl]
  | none =>
      simp only [recordOf, hl, findOrInsert, allocate, Option.map_none, Option.getD_none]
      exact record_of_length_le (Nat.le_refl _)

end Registry

end JobSupervisor.Health
