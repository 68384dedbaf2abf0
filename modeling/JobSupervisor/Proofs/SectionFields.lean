import JobSupervisor.Config.Decode
import Mathlib.Data.List.Nodup
import Mathlib.Data.List.Perm.Basic

/-!
# The fields of a section

A section is read entry by entry, in the order in which a table lists its keys, or item by item from
an array.  If no two fields touch each other and no key stands twice, the order does not matter: a
section reads the same as going through its fields in the order of their declaration and looking up
what is written for each, by its name in a table and by its place in an array.

From this follow the ways to write a section differently without changing it: the keys of a table
can be reordered, keys that name no field can be added, and a table of the first fields can be
replaced by the array of their values.

## Main definitions

* `Toml.Value.member?` — what is written for a field.
* `Independent` — fields of which none touches another.
* `readFields` — going through the fields in their order of declaration.
* `Restated` — a section written differently.
-/

namespace JobSupervisor

namespace Toml.Value

/-- What a value has for the field of a name and a place: a table goes by the name, an array by the
place. -/
def member? : Value → Nat → String → Option Value
  | .table entries, _, name => (entries.find? (·.1 = name)).map Prod.snd
  | .array items, place, _ => items[place]?
  | _, _, _ => none

/-- A value of a kind from which a section can be read. -/
def IsSection : Value → Prop
  | .table _ | .array _ | .datetime => True
  | _ => False

/-- If a value is a table, it has no key twice; what the table holds may have. -/
def OwnKeysDistinct : Value → Prop
  | .table entries => (entries.map Prod.fst).Nodup
  | _ => True

variable {entries before after : List (String × Value)} {name : String} {v : Value}

theorem find?_eq_none_of_notMem (h : name ∉ entries.map Prod.fst) :
    entries.find? (·.1 = name) = none := by
  rw [List.find?_eq_none]
  intro e he hname
  exact h (List.mem_map.mpr ⟨e, he, by simpa using hname⟩)

theorem member?_table_of_notMem (h : name ∉ entries.map Prod.fst) (place : Nat) :
    (table entries).member? place name = none := by
  rw [member?, find?_eq_none_of_notMem h, Option.map_none]

theorem member?_table_eq_some_iff (h : (entries.map Prod.fst).Nodup) (place : Nat) :
    (table entries).member? place name = some v ↔ (name, v) ∈ entries := by
  constructor
  · intro hv
    obtain ⟨e, he, rfl⟩ := Option.map_eq_some_iff.mp hv
    obtain rfl : e.1 = name := by simpa using List.find?_some he
    exact List.mem_of_find?_eq_some he
  · intro hmem
    obtain ⟨e, he⟩ : ∃ e, entries.find? (·.1 = name) = some e :=
      Option.isSome_iff_exists.mp (List.find?_isSome.mpr ⟨_, hmem, by simp⟩)
    have hname : e.1 = name := by simpa using List.find?_some he
    have heq : e = (name, v) :=
      List.inj_on_of_nodup_map h (List.mem_of_find?_eq_some he) hmem hname
    rw [member?, he, heq, Option.map_some]

/-- The order of the keys of a table does not matter. -/
theorem member?_table_of_perm {entries' : List (String × Value)}
    (h : (entries.map Prod.fst).Nodup) (hperm : entries.Perm entries') (place : Nat)
    (name : String) :
    (table entries).member? place name = (table entries').member? place name := by
  refine Option.ext fun v => ?_
  rw [member?_table_eq_some_iff h,
    member?_table_eq_some_iff ((hperm.map Prod.fst).nodup_iff.mp h), hperm.mem_iff]

theorem member?_table_insert_of_ne {key : String} (h : key ≠ name) (place : Nat) :
    (table (before ++ (key, v) :: after)).member? place name =
      (table (before ++ after)).member? place name := by
  simp [member?, List.find?_append, h]

theorem nodup_keys_insert (h : ((before ++ after).map Prod.fst).Nodup)
    (hname : name ∉ (before ++ after).map Prod.fst) :
    ((before ++ (name, v) :: after).map Prod.fst).Nodup := by
  have hperm : ((before ++ (name, v) :: after).map Prod.fst).Perm
      (name :: (before ++ after).map Prod.fst) :=
    (@List.perm_middle _ (name, v) before after).map Prod.fst
  exact hperm.nodup_iff.mpr (List.nodup_cons.mpr ⟨hname, h⟩)

theorem member?_table_insert_self (h : name ∉ before.map Prod.fst) (place : Nat) :
    (table (before ++ (name, v) :: after)).member? place name = some v := by
  simp [member?, List.find?_append, find?_eq_none_of_notMem h]

end Toml.Value

namespace Config

open Toml (Value)

variable {σ α : Type}

/-! ## Results without their errors -/

theorem toOption_eq_some_iff {ε : Type} {x : Except ε α} {a : α} :
    x.toOption = some a ↔ x = .ok a := by
  cases x <;> simp [Except.toOption]

theorem toOption_eq_of_iff {ε : Type} {x y : Except ε α} (h : ∀ a, x = .ok a ↔ y = .ok a) :
    x.toOption = y.toOption := by
  refine Option.ext fun a => ?_
  rw [toOption_eq_some_iff, toOption_eq_some_iff, h]

theorem toOption_bind {ε β : Type} (x : Except ε α) (f : α → Except ε β) :
    (x >>= f).toOption = x.toOption.bind fun a => (f a).toOption := by
  cases x <;> rfl

theorem toOption_map {ε β : Type} (x : Except ε α) (f : α → β) :
    (x.map f).toOption = x.toOption.map f := by
  cases x <;> rfl

theorem toOption_foldlM {ε β : Type} (f : β → α → Except ε β) (l : List α) (b : β) :
    (l.foldlM f b).toOption = l.foldlM (fun b a => (f b a).toOption) b := by
  induction l generalizing b with
  | nil => rfl
  | cons a l ih =>
      rw [List.foldlM_cons, List.foldlM_cons, toOption_bind]
      exact Option.bind_congr fun b' _ => ih b'

/-! ## Fields -/

/-- What a value for a field makes of a section, if it fits. -/
def Field.assign? (f : Field σ) (v : Value) (s : σ) : Option σ := (f.assign v s).toOption

/-- What an entry of a table makes of a section, if it fits. -/
def assignNamed? (fields : List (Field σ)) (s : σ) (entry : String × Value) : Option σ :=
  (assignNamed fields s entry).toOption

/-- Two fields can be assigned in either order. -/
def Field.Commutes (f g : Field σ) : Prop :=
  ∀ v w s, (f.assign? v s).bind (g.assign? w) = (g.assign? w s).bind (f.assign? v)

/-- Fields of distinct names, none of which touches another. -/
def Independent (fields : List (Field σ)) : Prop :=
  fields.Pairwise fun f g => f.name ≠ g.name ∧ f.Commutes g

@[simp] theorem Field.name_of (name : String) (decode : Value → Decoded α) (set : α → σ → σ) :
    (Field.of name decode set).name = name := rfl

theorem Field.assign?_of {name : String} {decode : Value → Decoded α} {set : α → σ → σ}
    {v : Value} {s : σ} :
    (Field.of name decode set).assign? v s = (decode v).toOption.map fun a => set a s :=
  toOption_map _ _

/-- Values that are read the same do the same to a field. -/
theorem Field.assign?_of_congr {name : String} {decode : Value → Decoded α} {set : α → σ → σ}
    {v v' : Value} (h : ∀ a, decode v = .ok a ↔ decode v' = .ok a) :
    (Field.of name decode set).assign? v = (Field.of name decode set).assign? v' := by
  funext s
  rw [Field.assign?_of, Field.assign?_of, toOption_eq_of_iff h]

theorem Field.commutes_of {β : Type} {name name' : String} {decode : Value → Decoded α}
    {decode' : Value → Decoded β} {set : α → σ → σ} {set' : β → σ → σ}
    (h : ∀ a b s, set' b (set a s) = set a (set' b s)) :
    (Field.of name decode set).Commutes (Field.of name' decode' set') := by
  intro v w s
  simp only [Field.assign?_of, Option.bind_map, Function.comp_def]
  cases (decode v).toOption <;> cases (decode' w).toOption <;> simp [h]

theorem assignNamed?_of_eq {f : Field σ} {fields : List (Field σ)} {s : σ} {v : Value} :
    assignNamed? (f :: fields) s (f.name, v) = f.assign? v s := by
  simp [assignNamed?, assignNamed, Field.assign?]

theorem assignNamed?_of_ne {f : Field σ} {fields : List (Field σ)} {s : σ}
    {entry : String × Value} (h : f.name ≠ entry.1) :
    assignNamed? (f :: fields) s entry = assignNamed? fields s entry := by
  simp [assignNamed?, assignNamed, h]

/-- An entry that names no field is ignored. -/
theorem assignNamed?_of_forall_ne {fields : List (Field σ)} {s : σ} {entry : String × Value}
    (h : ∀ f ∈ fields, f.name ≠ entry.1) : assignNamed? fields s entry = some s := by
  induction fields with
  | nil => rfl
  | cons f fields ih =>
      rw [List.forall_mem_cons] at h
      rw [assignNamed?_of_ne h.1, ih h.2]

/-- What a section that is read from a value becomes by its field at a place. -/
def Field.read? (f : Field σ) (v : Value) (place : Nat) (s : σ) : Option σ :=
  match v.member? place f.name with
  | some w => f.assign? w s
  | none => some s

theorem Field.read?_of_some {f : Field σ} {v w : Value} {place : Nat}
    (h : v.member? place f.name = some w) : f.read? v place = f.assign? w := by
  funext s
  rw [Field.read?, h]

theorem Field.read?_of_none {f : Field σ} {v : Value} {place : Nat}
    (h : v.member? place f.name = none) : f.read? v place = some := by
  funext s
  rw [Field.read?, h]

/-- A field can be assigned before or after the entry of any other field. -/
theorem bind_assignNamed? {f : Field σ} {fields : List (Field σ)}
    (h : ∀ g ∈ fields, f.Commutes g) (v : Value) (s : σ) (entry : String × Value) :
    (f.assign? v s).bind (assignNamed? fields · entry) =
      (assignNamed? fields s entry).bind (f.assign? v) := by
  induction fields with
  | nil =>
      have hignored (t : σ) : assignNamed? [] t entry = some t := rfl
      simp [hignored]
  | cons g fields ih =>
      rw [List.forall_mem_cons] at h
      by_cases hname : g.name = entry.1
      · obtain ⟨key, w⟩ := entry
        obtain rfl : g.name = key := hname
        simp only [assignNamed?_of_eq]
        exact h.1 v w s
      · simp only [assignNamed?_of_ne hname]
        exact ih h.2

theorem bind_read? {f : Field σ} {fields : List (Field σ)} (h : ∀ g ∈ fields, f.Commutes g)
    (v : Value) (place : Nat) (s : σ) (entry : String × Value) :
    (f.read? v place s).bind (assignNamed? fields · entry) =
      (assignNamed? fields s entry).bind (f.read? v place) := by
  cases hv : v.member? place f.name with
  | some w =>
      rw [Field.read?_of_some hv]
      exact bind_assignNamed? h w s entry
  | none => simp [Field.read?_of_none hv]

/-- What a table says of one field can be read first, and the other fields afterwards: at most one
entry is of this field, and it can be moved in front of the entries before it. -/
theorem foldlM_assignNamed?_cons {f : Field σ} {fields : List (Field σ)}
    (h : ∀ g ∈ fields, f.name ≠ g.name ∧ f.Commutes g) {entries : List (String × Value)}
    (hentries : (entries.map Prod.fst).Nodup) (place : Nat) (s : σ) :
    entries.foldlM (assignNamed? (f :: fields)) s =
      (f.read? (.table entries) place s).bind (entries.foldlM (assignNamed? fields)) := by
  induction entries generalizing s with
  | nil => rfl
  | cons entry entries ih =>
      obtain ⟨hentry, hrest⟩ := List.nodup_cons.mp hentries
      have hmember (name : String) : (Value.table (entry :: entries)).member? place name =
          if entry.1 = name then some entry.2 else (Value.table entries).member? place name := by
        by_cases hname : entry.1 = name <;> simp [Value.member?, hname]
      by_cases hname : f.name = entry.1
      · -- this is the only entry of the field, and the other fields ignore it
        obtain ⟨key, w⟩ := entry
        obtain rfl : f.name = key := hname
        have hown : (Value.table ((f.name, w) :: entries)).member? place f.name = some w := by
          rw [hmember, if_pos rfl]
        have hothers (t : σ) : assignNamed? fields t (f.name, w) = some t :=
          assignNamed?_of_forall_ne fun g hg => (h g hg).1.symm
        rw [List.foldlM_cons, assignNamed?_of_eq, Field.read?_of_some hown]
        refine Option.bind_congr fun t _ => ?_
        rw [ih hrest, Field.read?_of_none (Value.member?_table_of_notMem hentry place),
          List.foldlM_cons, hothers]
        rfl
      · have hlater :
            f.read? (.table (entry :: entries)) place = f.read? (.table entries) place := by
          funext t
          rw [Field.read?, Field.read?, hmember, if_neg (Ne.symm hname)]
        calc (entry :: entries).foldlM (assignNamed? (f :: fields)) s
            = (assignNamed? fields s entry).bind fun t =>
                (f.read? (.table entries) place t).bind
                  (entries.foldlM (assignNamed? fields)) := by
              rw [List.foldlM_cons, assignNamed?_of_ne hname]
              exact Option.bind_congr fun t _ => ih hrest t
          _ = (f.read? (.table entries) place s).bind fun t =>
                (assignNamed? fields t entry).bind (entries.foldlM (assignNamed? fields)) := by
              rw [← Option.bind_assoc, ← bind_read? (fun g hg => (h g hg).2), Option.bind_assoc]
          _ = _ := by
              rw [hlater]
              rfl

/-- Goes through the fields in the order of their declaration; `place` counts the fields before. -/
def readFields (v : Value) : Nat → List (Field σ) → σ → Option σ
  | _, [], s => some s
  | place, f :: fields, s => (f.read? v place s).bind (readFields v (place + 1) fields)

theorem readFields_nil (v : Value) (place : Nat) (s : σ) : readFields v place [] s = some s := rfl

theorem foldlM_assignNamed? {fields : List (Field σ)} (h : Independent fields)
    {entries : List (String × Value)} (hentries : (entries.map Prod.fst).Nodup) (place : Nat)
    (s : σ) :
    entries.foldlM (assignNamed? fields) s = readFields (.table entries) place fields s := by
  induction fields generalizing place s with
  | nil =>
      induction entries with
      | nil => rfl
      | cons entry entries ih => exact ih (List.nodup_cons.mp hentries).2
  | cons f fields ih =>
      obtain ⟨hf, hfields⟩ := List.pairwise_cons.mp h
      rw [foldlM_assignNamed?_cons hf hentries place, readFields]
      exact Option.bind_congr fun t _ => ih hfields (place + 1) t

theorem foldlM_zip_drop (fields : List (Field σ)) (items : List Value) (place : Nat) (s : σ) :
    (fields.zip (items.drop place)).foldlM (fun s p => p.1.assign? p.2 s) s =
      readFields (.array items) place fields s := by
  induction fields generalizing place s with
  | nil => rfl
  | cons f fields ih =>
      rw [readFields]
      by_cases hplace : place < items.length
      · have hmember : (Value.array items).member? place f.name = some items[place] :=
          List.getElem?_eq_getElem hplace
        rw [List.drop_eq_getElem_cons hplace, List.zip_cons_cons, List.foldlM_cons,
          Field.read?_of_some hmember]
        exact Option.bind_congr fun t _ => ih (place + 1) t
      · have hmember : (Value.array items).member? place f.name = none :=
          List.getElem?_eq_none (Nat.le_of_not_lt hplace)
        rw [Field.read?_of_none hmember, Option.bind_some, ← ih,
          List.drop_eq_nil_of_le (Nat.le_of_not_lt hplace),
          List.drop_eq_nil_of_le (Nat.le_succ_of_le (Nat.le_of_not_lt hplace)), List.zip_nil_right,
          List.zip_nil_right]

theorem readFields_datetime (place : Nat) (fields : List (Field σ)) (s : σ) :
    readFields .datetime place fields s = some s := by
  induction fields generalizing place with
  | nil => rfl
  | cons f fields ih =>
      rw [readFields, Field.read?_of_none rfl, Option.bind_some, ih]

theorem toOption_decodeSection_table (title : String) (fields : List (Field σ)) (start : σ)
    (entries : List (String × Value)) :
    (decodeSection title fields start (.table entries)).toOption =
      entries.foldlM (assignNamed? fields) start :=
  toOption_foldlM _ _ _

/-- A section is what its fields say, in the order of their declaration. -/
theorem decodeSection_eq_ok_iff {title : String} {fields : List (Field σ)} {start s : σ}
    (h : Independent fields) {v : Value} (hv : v.OwnKeysDistinct) :
    decodeSection title fields start v = .ok s ↔
      v.IsSection ∧ readFields v 0 fields start = some s := by
  rw [← toOption_eq_some_iff]
  cases v with
  | table entries =>
      rw [toOption_decodeSection_table, ← foldlM_assignNamed? h hv]
      exact (and_iff_right trivial).symm
  | array items =>
      rw [decodeSection, toOption_foldlM, ← foldlM_zip_drop]
      exact (and_iff_right trivial).symm
  | datetime =>
      rw [readFields_datetime]
      exact (and_iff_right trivial).symm
  | string _ | integer _ | float _ | boolean _ =>
      simp [decodeSection, Value.IsSection, Except.toOption]

/-! ## Defaults -/

/-- A field is what is written for it, or its default if nothing is. -/
def Chosen (Says : Value → α → Prop) (default : α) : Option Value → α → Prop
  | some v, a => Says v a
  | none, a => a = default

/-- Reading a field chooses what is written for it, or keeps what the section has. -/
theorem readFields_of_eq_some_iff {v : Value} {place : Nat} {name : String}
    {decode : Value → Decoded α} {set : α → σ → σ} {fields : List (Field σ)} {s r : σ}
    (get : σ → α) (hget : ∀ s, set (get s) s = s) :
    readFields v place (.of name decode set :: fields) s = some r ↔
      ∃ a, Chosen (fun w a => decode w = .ok a) (get s) (v.member? place name) a ∧
        readFields v (place + 1) fields (set a s) = some r := by
  rw [readFields, Option.bind_eq_some_iff]
  cases hw : v.member? place name with
  | some w =>
      simp only [Field.read?_of_some (f := .of name decode set) hw, Field.assign?_of,
        Option.map_eq_some_iff, toOption_eq_some_iff, Chosen]
      constructor
      · rintro ⟨t, ⟨a, ha, rfl⟩, hr⟩
        exact ⟨a, ha, hr⟩
      · rintro ⟨a, ha, hr⟩
        exact ⟨_, ⟨a, ha, rfl⟩, hr⟩
  | none =>
      simp [Field.read?_of_none (f := .of name decode set) hw, Chosen, hget]

theorem Chosen.congr {Says Says' : Value → α → Prop} {default a : α} {written : Option Value}
    (h : ∀ v ∈ written, (Says v a ↔ Says' v a)) :
    Chosen Says default written a ↔ Chosen Says' default written a := by
  cases written with
  | none => rfl
  | some v => exact h v rfl

/-- A section that is opened and left empty is the default, as if it were missing. -/
theorem chosen_opened {title : String} {fields : List (Field σ)} {start s : σ} :
    Chosen (fun v s => decodeSection title fields start v = .ok s) start none s ↔
      Chosen (fun v s => decodeSection title fields start v = .ok s) start (some (.table [])) s :=
  ⟨fun h => congrArg Except.ok (Eq.symm h), fun h => (Except.ok.inj h).symm⟩

/-! ## Sections written differently -/

/-- A section with fields of some names is written differently: the keys of a table in another
order, with one more key that names no field, or the values of the first fields as an array. -/
inductive Restated (names : List String) : Value → Value → Prop
  | reordered {entries entries' : List (String × Value)} (nodup : (entries.map Prod.fst).Nodup)
      (perm : entries.Perm entries') : Restated names (.table entries) (.table entries')
  | extended {before after : List (String × Value)} {key : String} (v : Value)
      (unknown : key ∉ names) :
      Restated names (.table (before ++ after)) (.table (before ++ (key, v) :: after))
  | positional (values : List Value) :
      Restated names (.table (names.zip values)) (.array values)

theorem readFields_congr {v v' : Value}
    (h : ∀ place name, v.member? place name = v'.member? place name) (place : Nat)
    (fields : List (Field σ)) (s : σ) :
    readFields v place fields s = readFields v' place fields s := by
  induction fields generalizing place s with
  | nil => rfl
  | cons f fields ih =>
      rw [readFields, readFields]
      have hread : f.read? v place = f.read? v' place := by
        funext t
        rw [Field.read?, Field.read?, h]
      rw [hread]
      exact Option.bind_congr fun t _ => ih (place + 1) t

theorem find?_eq_some_of_mem {fields : List (Field σ)} (h : Independent fields) {f : Field σ}
    (hf : f ∈ fields) : fields.find? (·.name = f.name) = some f := by
  induction fields with
  | nil => contradiction
  | cons g fields ih =>
      obtain ⟨hg, hfields⟩ := List.pairwise_cons.mp h
      rcases List.mem_cons.mp hf with rfl | hf
      · exact List.find?_cons_of_pos (by simp)
      · rw [List.find?_cons_of_neg (by simpa using (hg f hf).1), ih hfields hf]

/-- The array of the values of the first fields is read like the table of them. -/
theorem decodeSection_positional (title : String) {fields : List (Field σ)}
    (h : Independent fields) (start : σ) (values : List Value) :
    decodeSection title fields start (.table ((fields.map Field.name).zip values)) =
      decodeSection title fields start (.array values) := by
  rw [decodeSection, decodeSection, List.zip_map_left, List.foldlM_map, List.foldlM_eq_foldl,
    List.foldlM_eq_foldl]
  refine List.foldl_ext _ _ _ fun t p hp => bind_congr fun s => ?_
  rw [assignNamed, Prod.map_fst, find?_eq_some_of_mem h (List.of_mem_zip hp).1]
  rfl

/-- Two values that do the same to a field can stand for each other in a table. -/
theorem decodeSection_eq_ok_iff_of_assign? {title : String} {fields : List (Field σ)} {start s : σ}
    (hfields : Independent fields) {f : Field σ} (hf : f ∈ fields) {t t' : Value}
    (h : f.assign? t = f.assign? t') (before after : List (String × Value)) :
    decodeSection title fields start (.table (before ++ (f.name, t) :: after)) = .ok s ↔
      decodeSection title fields start (.table (before ++ (f.name, t') :: after)) = .ok s := by
  have hassign (u : σ) (w : Value) : assignNamed? fields u (f.name, w) = f.assign? w u := by
    rw [assignNamed?, assignNamed, find?_eq_some_of_mem hfields hf, Field.assign?]
  rw [← toOption_eq_some_iff, ← toOption_eq_some_iff, toOption_decodeSection_table,
    toOption_decodeSection_table]
  simp only [List.foldlM_append, List.foldlM_cons, hassign, h]

/-- A section that is written differently is the same section. -/
theorem Restated.decodeSection_eq_ok_iff {title : String} {fields : List (Field σ)} {start s : σ}
    {v v' : Value} (hfields : Independent fields) (h : Restated (fields.map Field.name) v v') :
    decodeSection title fields start v = .ok s ↔ decodeSection title fields start v' = .ok s := by
  cases h with
  | @reordered entries entries' nodup perm =>
      have hown : (Value.table entries).OwnKeysDistinct := nodup
      have hown' : (Value.table entries').OwnKeysDistinct :=
        (perm.map Prod.fst).nodup_iff.mp nodup
      rw [Config.decodeSection_eq_ok_iff hfields hown, Config.decodeSection_eq_ok_iff hfields hown',
        readFields_congr (Value.member?_table_of_perm nodup perm)]
      rfl
  | @extended before after key v unknown =>
      have hnone : fields.find? (·.name = key) = none := by
        simpa [List.find?_eq_none] using unknown
      have hignored (t : σ) : assignNamed fields t (key, v) = .ok t := by
        rw [assignNamed, hnone]
      simp only [decodeSection, List.foldlM_append, List.foldlM_cons, hignored]
      rfl
  | positional values => rw [decodeSection_positional title hfields]

end Config

end JobSupervisor
