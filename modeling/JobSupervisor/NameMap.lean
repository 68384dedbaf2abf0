/-!
# Maps from names

A finite map whose keys are texts.  Its entries are kept in strictly ascending order of
the keys, so each key occurs once and a listing is always sorted.  Registries, lease
tables, diagnostics and metrics are such maps.

## Main definitions

* `NameMap α` — the ascending list of entries, with the proof that it is ascending.
* `get?`, `insert`, `erase` — the operations, each described by what it does to `get?`.
-/

namespace JobSupervisor

universe u v

/-- A finite map from texts, listed in strictly ascending order of the keys. -/
structure NameMap (α : Type u) where
  entries : List (String × α)
  ascending : entries.Pairwise (fun a b => a.1 < b.1)

namespace NameMap

variable {α : Type u} {β : Type v}

/-- The map without entries. -/
def empty : NameMap α := ⟨[], .nil⟩

instance : Inhabited (NameMap α) := ⟨empty⟩

instance : EmptyCollection (NameMap α) := ⟨empty⟩

/-- Looks a key up in a list of entries. -/
def find? (key : String) : List (String × α) → Option α
  | [] => none
  | (k, a) :: rest => if k = key then some a else find? key rest

/-- Puts an entry in its place, replacing an entry with the same key. -/
def place (key : String) (a : α) : List (String × α) → List (String × α)
  | [] => [(key, a)]
  | (k, b) :: rest =>
      if key < k then (key, a) :: (k, b) :: rest
      else if key = k then (key, a) :: rest
      else (k, b) :: place key a rest

theorem fst_mem_place {key : String} {a : α} {l : List (String × α)} {e : String × α}
    (h : e ∈ place key a l) : e.1 = key ∨ e ∈ l := by
  induction l with
  | nil => simp [place] at h; simp [h]
  | cons x l ih =>
      obtain ⟨k, b⟩ := x
      simp only [place] at h
      split at h
      · rcases List.mem_cons.1 h with h | h
        · simp [h]
        · exact Or.inr h
      · split at h
        · rcases List.mem_cons.1 h with h | h
          · simp [h]
          · exact Or.inr (List.mem_cons_of_mem _ h)
        · rcases List.mem_cons.1 h with h | h
          · simp [h]
          · rcases ih h with h | h
            · exact Or.inl h
            · exact Or.inr (List.mem_cons_of_mem _ h)

theorem lt_of_not_lt_of_ne {a b : String} (h : ¬a < b) (hne : a ≠ b) : b < a := by
  have hle : b ≤ a := String.not_lt.1 h
  exact Std.lt_of_le_of_ne hle (Ne.symm hne)

theorem pairwise_place {key : String} {a : α} {l : List (String × α)}
    (h : l.Pairwise (fun x y => x.1 < y.1)) :
    (place key a l).Pairwise (fun x y => x.1 < y.1) := by
  induction l with
  | nil => simp [place]
  | cons x l ih =>
      obtain ⟨k, b⟩ := x
      rw [List.pairwise_cons] at h
      simp only [place]
      split
      · rename_i hlt
        refine List.pairwise_cons.2 ⟨?_, List.pairwise_cons.2 h⟩
        intro y hy
        rcases List.mem_cons.1 hy with rfl | hy
        · exact hlt
        · exact String.lt_trans hlt (h.1 y hy)
      · rename_i hnlt
        split
        · rename_i heq
          subst heq
          exact List.pairwise_cons.2 ⟨h.1, h.2⟩
        · rename_i hne
          refine List.pairwise_cons.2 ⟨?_, ih h.2⟩
          intro y hy
          rcases fst_mem_place hy with hy | hy
          · rw [hy]; exact lt_of_not_lt_of_ne hnlt hne
          · exact h.1 y hy

/-- The value of a key. -/
def get? (m : NameMap α) (key : String) : Option α :=
  find? key m.entries

/-- The map with the value of one key set. -/
def insert (m : NameMap α) (key : String) (a : α) : NameMap α :=
  ⟨place key a m.entries, pairwise_place m.ascending⟩

/-- The map without one key. -/
def erase (m : NameMap α) (key : String) : NameMap α :=
  ⟨m.entries.filter (fun e => e.1 ≠ key), m.ascending.filter _⟩

/-- Whether a key has a value. -/
def contains (m : NameMap α) (key : String) : Bool :=
  (m.get? key).isSome

/-- The value of a key, or a default. -/
def getD (m : NameMap α) (key : String) (default : α) : α :=
  (m.get? key).getD default

/-- The map with the value of a key changed, starting from a default if it has none. -/
def modify (m : NameMap α) (key : String) (default : α) (f : α → α) : NameMap α :=
  m.insert key (f (m.getD key default))

/-- The entries in ascending order of the keys. -/
def toList (m : NameMap α) : List (String × α) := m.entries

/-- The keys in ascending order. -/
def keys (m : NameMap α) : List String := m.entries.map Prod.fst

/-- The number of entries. -/
def size (m : NameMap α) : Nat := m.entries.length

/-- The map with a function applied to each value. -/
def map (f : α → β) (m : NameMap α) : NameMap β :=
  ⟨m.entries.map (fun e => (e.1, f e.2)), by
    simpa [List.pairwise_map] using m.ascending⟩

/-- The entries whose values a partial function keeps. -/
def filterMap (f : α → Option β) (m : NameMap α) : NameMap β :=
  ⟨m.entries.filterMap (fun e => (f e.2).map (fun b => (e.1, b))), by
    refine List.pairwise_filterMap.2 (m.ascending.imp ?_)
    rintro ⟨k, a⟩ ⟨k', a'⟩ h b hb b' hb'
    cases hfa : f a <;> simp [hfa] at hb
    cases hfa' : f a' <;> simp [hfa'] at hb'
    subst hb hb'
    exact h⟩

/-! ## What the operations do to `get?` -/

@[simp] theorem get?_empty (key : String) : (empty : NameMap α).get? key = none := rfl

theorem find?_place_self (key : String) (a : α) (l : List (String × α)) :
    find? key (place key a l) = some a := by
  induction l with
  | nil => simp [place, find?]
  | cons x l ih =>
      obtain ⟨k, b⟩ := x
      simp only [place]
      split
      · simp [find?]
      · split
        · simp [find?]
        · rename_i hne
          simp [find?, Ne.symm hne, ih]

theorem find?_place_of_ne {key other : String} (h : key ≠ other) (a : α)
    (l : List (String × α)) : find? other (place key a l) = find? other l := by
  induction l with
  | nil => simp [place, find?, h]
  | cons x l ih =>
      obtain ⟨k, b⟩ := x
      simp only [place]
      split
      · simp [find?, h]
      · split
        · rename_i heq
          subst heq
          simp [find?, h]
        · simp [find?, ih]

@[simp] theorem get?_insert_self (m : NameMap α) (key : String) (a : α) :
    (m.insert key a).get? key = some a :=
  find?_place_self key a m.entries

theorem get?_insert_of_ne (m : NameMap α) {key other : String} (h : key ≠ other) (a : α) :
    (m.insert key a).get? other = m.get? other :=
  find?_place_of_ne h a m.entries

theorem get?_insert (m : NameMap α) (key other : String) (a : α) :
    (m.insert key a).get? other = if key = other then some a else m.get? other := by
  split
  · rename_i h; subst h; simp
  · rename_i h; exact get?_insert_of_ne m h a

theorem find?_filter_ne (key other : String) (l : List (String × α)) :
    find? other (l.filter (fun e => e.1 ≠ key)) =
      if key = other then none else find? other l := by
  induction l with
  | nil => simp [find?]
  | cons x l ih =>
      obtain ⟨k, b⟩ := x
      by_cases hk : k = key
      · subst hk
        by_cases ho : k = other
        · simp [ho] at ih ⊢; exact ih
        · simp [ho] at ih ⊢; rw [ih]; simp [find?, ho]
      · by_cases ho : key = other
        · subst ho; simp [hk, find?] at ih ⊢; exact ih
        · simp [hk, ho, find?] at ih ⊢; rw [ih]

theorem get?_erase (m : NameMap α) (key other : String) :
    (m.erase key).get? other = if key = other then none else m.get? other :=
  find?_filter_ne key other m.entries

@[simp] theorem get?_erase_self (m : NameMap α) (key : String) :
    (m.erase key).get? key = none := by
  simp [get?_erase]

end NameMap

end JobSupervisor
