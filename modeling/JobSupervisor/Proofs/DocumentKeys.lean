import JobSupervisor.Toml.Text
import Mathlib.Data.List.Nodup

/-!
# The keys of a document

No table of a document has a key twice.  This does not follow from the type of documents, in which
a table is a list of entries, but from the rules by which a document is built: a line that would
write a key again is refused, and a table that was only passed on the way to another one is taken
out before it is filled further.

What holds of every table is kept in `Entries.Sound` while a text is read.  Each of the three kinds
of lines changes one table at the end of a path, so the lemma on `descend` carries them all.

## Main definitions

* `Value.KeysDistinct` — no table of a value has a key twice.
* `keysDistinct_of_parse?` — the documents of texts have distinct keys.
-/

namespace JobSupervisor.Toml

/-- No table of a value has a key twice, however deep it lies. -/
inductive Value.KeysDistinct : Value → Prop
  | string (s : String) : KeysDistinct (.string s)
  | integer (n : Int) : KeysDistinct (.integer n)
  | float (x : Decimal.Binary64) : KeysDistinct (.float x)
  | boolean (b : Bool) : KeysDistinct (.boolean b)
  | datetime : KeysDistinct .datetime
  | array {items : List Value} (items_distinct : ∀ v ∈ items, KeysDistinct v) :
      KeysDistinct (.array items)
  | table {entries : List (String × Value)} (nodup : (entries.map Prod.fst).Nodup)
      (values_distinct : ∀ e ∈ entries, KeysDistinct e.2) : KeysDistinct (.table entries)

namespace Value

attribute [simp] KeysDistinct.string KeysDistinct.integer KeysDistinct.float
  KeysDistinct.boolean KeysDistinct.datetime

@[simp] theorem keysDistinct_array_iff {items : List Value} :
    (array items).KeysDistinct ↔ ∀ v ∈ items, v.KeysDistinct := by
  constructor
  · rintro ⟨⟩
    assumption
  · exact .array

@[simp] theorem keysDistinct_table_iff {entries : List (String × Value)} :
    (table entries).KeysDistinct ↔
      (entries.map Prod.fst).Nodup ∧ ∀ e ∈ entries, e.2.KeysDistinct := by
  constructor
  · rintro ⟨⟩
    constructor <;> assumption
  · rintro ⟨hnodup, hvalues⟩
    exact .table hnodup hvalues

end Value

/-! ## Tables under construction -/

theorem finishItems_eq_map (items : List Item) : finishItems items = items.map Item.finish := by
  induction items with
  | nil => rfl
  | cons i items ih => rw [finishItems, ih, List.map_cons]

theorem finishEntries_eq_map (es : Entries) :
    finishEntries es = es.map fun e => (e.1, e.2.finish) := by
  induction es with
  | nil => rfl
  | cons e es ih => rw [finishEntries, ih, List.map_cons]

/-- A table under construction has no key twice, and neither has a table within it. -/
structure Entries.Sound (es : Entries) : Prop where
  nodup : (es.map Prod.fst).Nodup
  finished : ∀ e ∈ es, e.2.finish.KeysDistinct

@[simp] theorem keysDistinct_finishEntries_iff {es : Entries} :
    (Value.table (finishEntries es)).KeysDistinct ↔ es.Sound := by
  rw [Value.keysDistinct_table_iff, finishEntries_eq_map, List.map_map, List.forall_mem_map]
  exact ⟨fun ⟨hnodup, hfinished⟩ => ⟨hnodup, hfinished⟩,
    fun h => ⟨h.nodup, h.finished⟩⟩

@[simp] theorem keysDistinct_finish_value {v : Value} :
    (Item.value v).finish.KeysDistinct ↔ v.KeysDistinct := by
  rw [Item.finish]

@[simp] theorem keysDistinct_finish_table {origin : Origin} {es : Entries} :
    (Item.table origin es).finish.KeysDistinct ↔ es.Sound := by
  rw [Item.finish, keysDistinct_finishEntries_iff]

@[simp] theorem keysDistinct_finish_elements {ts : List Item} :
    (Item.elements ts).finish.KeysDistinct ↔ ∀ t ∈ ts, t.finish.KeysDistinct := by
  rw [Item.finish, finishItems_eq_map, Value.keysDistinct_array_iff, List.forall_mem_map]

theorem keysDistinct_finish_no_elements : (Item.elements []).finish.KeysDistinct := by simp

theorem keysDistinct_finish_elements_concat {ts : List Item} {t : Item} :
    (Item.elements (ts ++ [t])).finish.KeysDistinct ↔
      (Item.elements ts).finish.KeysDistinct ∧ t.finish.KeysDistinct := by
  simp only [keysDistinct_finish_elements, List.forall_mem_append, List.forall_mem_singleton]

namespace Entries

variable {es : Entries} {key : String} {i : Item}

@[simp] theorem sound_nil : Sound [] := ⟨List.nodup_nil, by simp⟩

theorem isSome_get? (es : Entries) (key : String) :
    (get? es key).isSome = es.any (·.1 = key) := by
  rw [get?, Option.isSome_map, List.isSome_find?]

theorem isSome_get?_iff : (get? es key).isSome ↔ key ∈ es.map Prod.fst := by
  simp [get?]

theorem Sound.get? (h : es.Sound) (hi : es.get? key = some i) : i.finish.KeysDistinct := by
  obtain ⟨e, he, rfl⟩ := Option.map_eq_some_iff.mp hi
  exact h.finished e (List.mem_of_find?_eq_some he)

/-- What a path finds at a key has distinct keys, also if the table there is still missing. -/
theorem Sound.getD_get? (h : es.Sound) (key : String) {missing : Item}
    (hmissing : missing.finish.KeysDistinct) :
    ((es.get? key).getD missing).finish.KeysDistinct := by
  cases hi : es.get? key with
  | none => exact hmissing
  | some i => exact h.get? hi

theorem Sound.concat (h : es.Sound) (hnew : ¬ (es.get? key).isSome)
    (hi : i.finish.KeysDistinct) : Sound (es ++ [(key, i)]) where
  nodup := by
    have hkey : key ∉ es.map Prod.fst := mt isSome_get?_iff.mpr hnew
    rw [List.map_append, List.nodup_append_comm]
    exact List.nodup_cons.mpr ⟨hkey, h.nodup⟩
  finished := by
    intro e he
    rcases List.mem_append.mp he with he | he
    · exact h.finished e he
    · rw [List.mem_singleton.mp he]
      exact hi

theorem Sound.set (h : es.Sound) (hi : i.finish.KeysDistinct) : Sound (es.set key i) := by
  unfold Entries.set
  split
  · refine ⟨?_, ?_⟩
    · have hkeys : (es.map fun e => if e.1 = key then (key, i) else e).map Prod.fst =
          es.map Prod.fst := by
        rw [List.map_map]
        refine List.map_congr_left fun e _ => ?_
        simp only [Function.comp_apply]
        split <;> simp_all
      rw [hkeys]
      exact h.nodup
    · intro e he
      obtain ⟨e', he', rfl⟩ := List.mem_map.mp he
      split
      · exact hi
      · exact h.finished e' he'
  · rename_i hany
    exact h.concat (by rwa [isSome_get?]) hi

theorem Sound.remove (h : es.Sound) : Sound (es.remove key) where
  nodup := (List.filter_sublist.map Prod.fst).nodup h.nodup
  finished := fun e he => h.finished e (List.mem_filter.mp he).1

end Entries

/-! ## Lines -/

section

variable {α : Type} {dotted : Bool} {change : Spot → Option (α × Entries)} {P : α → Prop}

/-- A change that keeps the keys of one table distinct keeps them distinct at the end of every
path.  `P` is what is known of the result of the change. -/
theorem sound_descend
    (hchange : ∀ {spot a es}, spot.entries.Sound → change spot = some (a, es) → P a ∧ es.Sound)
    {path : List String} {spot : Spot} {a : α} {es : Entries} (hspot : spot.entries.Sound)
    (h : descend dotted change path spot = some (a, es)) : P a ∧ es.Sound := by
  induction path generalizing spot a es with
  | nil => exact hchange hspot h
  | cons key path ih =>
      rw [descend] at h
      have hnext := hspot.getD_get? key (keysDistinct_finish_table.mpr Entries.sound_nil :
        (Item.table (if dotted then .dotted else .passed) []).finish.KeysDistinct)
      split at h
      · contradiction
      · rename_i origin es' hitem
        rw [hitem, keysDistinct_finish_table] at hnext
        split at h
        · contradiction
        · obtain ⟨⟨a', es''⟩, hdescend, heq⟩ := Option.map_eq_some_iff.mp h
          obtain ⟨rfl, rfl⟩ := Prod.mk.inj heq
          obtain ⟨ha, hes⟩ := ih hnext hdescend
          exact ⟨ha, hspot.set (keysDistinct_finish_table.mpr hes)⟩
      · rename_i ts hitem
        split at h
        · rename_i origin es' before hlast
          have hts : ts = before.reverse ++ [.table origin es'] := by
            rw [← List.reverse_cons, ← hlast, List.reverse_reverse]
          rw [hitem, hts, keysDistinct_finish_elements_concat] at hnext
          obtain ⟨⟨a', es''⟩, hdescend, heq⟩ := Option.map_eq_some_iff.mp h
          obtain ⟨rfl, rfl⟩ := Prod.mk.inj heq
          obtain ⟨ha, hes⟩ := ih (keysDistinct_finish_table.mp hnext.2) hdescend
          refine ⟨ha, hspot.set (keysDistinct_finish_elements_concat.mpr ?_)⟩
          exact ⟨hnext.1, keysDistinct_finish_table.mpr hes⟩
        · contradiction

theorem sound_of_descend
    (hchange : ∀ {spot a es}, spot.entries.Sound → change spot = some (a, es) → es.Sound)
    {path : List String} {spot : Spot} {a : α} {es : Entries} (hspot : spot.entries.Sound)
    (h : descend dotted change path spot = some (a, es)) : es.Sound :=
  (sound_descend (P := fun _ => True) (fun hspot h => ⟨trivial, hchange hspot h⟩) hspot h).2

end

theorem Entries.Sound.assignPath {es es' : Entries} {path : List String} {i : Item} (h : es.Sound)
    (hi : i.finish.KeysDistinct) (hassign : assignPath path i es = some es') : es'.Sound := by
  unfold Toml.assignPath at hassign
  split at hassign
  · contradiction
  · obtain ⟨⟨_, es''⟩, hdescend, rfl⟩ := Option.map_eq_some_iff.mp hassign
    refine sound_of_descend (fun hspot hchange => ?_) h hdescend
    unfold assignAt at hchange
    split at hchange
    · contradiction
    · split at hchange
      · contradiction
      · rename_i hnew
        obtain ⟨-, rfl⟩ := Prod.mk.inj (Option.some.inj hchange)
        exact hspot.concat hnew hi

/-- Nothing that a builder holds has a key twice. -/
structure Builder.Sound (b : Builder) : Prop where
  root : b.root.Sound
  current : b.current.Sound

namespace Builder

variable {b b' : Builder} {path : List String} {es : Entries}

theorem sound_start : start.Sound := ⟨Entries.sound_nil, Entries.sound_nil⟩

theorem Sound.close (h : b.Sound) (hclose : b.close = some es) : es.Sound := by
  unfold Builder.close at hclose
  split at hclose
  · obtain rfl := Option.some.inj hclose
    exact h.current
  · obtain ⟨⟨above, key⟩, -, hclose⟩ := Option.bind_eq_some_iff.mp hclose
    obtain ⟨⟨_, es'⟩, hdescend, rfl⟩ := Option.map_eq_some_iff.mp hclose
    refine sound_of_descend (fun hspot hchange => ?_) h.root hdescend
    split at hchange
    · contradiction
    · rename_i hnew
      obtain ⟨-, rfl⟩ := Prod.mk.inj (Option.some.inj hchange)
      exact hspot.concat hnew (keysDistinct_finish_table.mpr h.current)
  · obtain ⟨⟨above, key⟩, -, hclose⟩ := Option.bind_eq_some_iff.mp hclose
    obtain ⟨⟨_, es'⟩, hdescend, rfl⟩ := Option.map_eq_some_iff.mp hclose
    refine sound_of_descend (fun hspot hchange => ?_) h.root hdescend
    have hnext := hspot.getD_get? key keysDistinct_finish_no_elements
    split at hchange
    · rename_i ts hts
      rw [hts] at hnext
      obtain ⟨-, rfl⟩ := Prod.mk.inj (Option.some.inj hchange)
      refine hspot.set (keysDistinct_finish_elements_concat.mpr ?_)
      exact ⟨hnext, keysDistinct_finish_table.mpr h.current⟩
    · contradiction

theorem Sound.openTable (h : b.Sound) (hopen : b.openTable path = some b') : b'.Sound := by
  obtain ⟨root, hclose, hopen⟩ := Option.bind_eq_some_iff.mp hopen
  obtain ⟨⟨above, key⟩, -, hopen⟩ := Option.bind_eq_some_iff.mp hopen
  obtain ⟨⟨es, root'⟩, hdescend, hopen⟩ := Option.bind_eq_some_iff.mp hopen
  obtain rfl := Option.some.inj hopen
  have htaken : Entries.Sound es ∧ Entries.Sound root' := by
    refine sound_descend (fun hspot hchange => ?_) (h.close hclose) hdescend
    split at hchange
    · obtain ⟨rfl, rfl⟩ := Prod.mk.inj (Option.some.inj hchange)
      exact ⟨Entries.sound_nil, hspot⟩
    · rename_i es hpassed
      obtain ⟨rfl, rfl⟩ := Prod.mk.inj (Option.some.inj hchange)
      exact ⟨keysDistinct_finish_table.mp (hspot.get? hpassed), hspot.remove⟩
    · contradiction
  exact ⟨htaken.2, htaken.1⟩

theorem Sound.openElement (h : b.Sound) (hopen : b.openElement path = some b') : b'.Sound := by
  obtain ⟨root, hclose, hopen⟩ := Option.bind_eq_some_iff.mp hopen
  obtain ⟨⟨above, key⟩, -, hopen⟩ := Option.bind_eq_some_iff.mp hopen
  obtain ⟨⟨_, root'⟩, hdescend, hopen⟩ := Option.bind_eq_some_iff.mp hopen
  obtain rfl := Option.some.inj hopen
  refine ⟨sound_of_descend (fun hspot hchange => ?_) (h.close hclose) hdescend, Entries.sound_nil⟩
  have hnext := hspot.getD_get? key keysDistinct_finish_no_elements
  split at hchange
  · rename_i ts hts
    rw [hts] at hnext
    obtain ⟨-, rfl⟩ := Prod.mk.inj (Option.some.inj hchange)
    exact hspot.set hnext
  · contradiction

theorem Sound.assign {v : Value} (h : b.Sound) (hv : v.KeysDistinct)
    (hassign : b.assign path v = some b') : b'.Sound := by
  obtain ⟨es, hes, rfl⟩ := Option.map_eq_some_iff.mp hassign
  exact ⟨h.root, h.current.assignPath (keysDistinct_finish_value.mpr hv) hes⟩

theorem Sound.finish {v : Value} (h : b.Sound) (hfinish : b.finish = some v) :
    v.KeysDistinct := by
  obtain ⟨es, hes, rfl⟩ := Option.map_eq_some_iff.mp hfinish
  exact keysDistinct_finishEntries_iff.mpr (h.close hes)

end Builder

/-! ## Values -/

/-- What every step of a fold keeps holds at its end. -/
theorem holds_of_foldlM {α β : Type} {step : β → α → Option β} {P : β → Prop} {l : List α}
    (hstep : ∀ x ∈ l, ∀ {b b'}, P b → step b x = some b' → P b') {b b' : β} (hb : P b)
    (h : l.foldlM step b = some b') : P b' := by
  induction l generalizing b with
  | nil =>
      obtain rfl := Option.some.inj h
      exact hb
  | cons x l ih =>
      rw [List.forall_mem_cons] at hstep
      obtain ⟨next, hnext, hrest⟩ := Option.bind_eq_some_iff.mp h
      exact ih hstep.2 (hstep.1 hb hnext) hrest

theorem keysDistinct_of_inlineTable {pairs : List (List String × Value)} {v : Value}
    (hpairs : ∀ p ∈ pairs, p.2.KeysDistinct) (h : inlineTable pairs = some v) :
    v.KeysDistinct := by
  obtain ⟨es, hes, rfl⟩ := Option.map_eq_some_iff.mp h
  refine keysDistinct_finishEntries_iff.mpr
    (holds_of_foldlM (P := Entries.Sound) (fun p hp _ _ hb hstep => ?_) Entries.sound_nil hes)
  exact hb.assignPath (keysDistinct_finish_value.mpr (hpairs p hp)) hstep

/-- What reads values reads none with a key twice. -/
def ReadsDistinct (value : List Char → Option (Value × List Char)) : Prop :=
  ∀ ⦃cs v rest⦄, value cs = some (v, rest) → v.KeysDistinct

section

variable {value : List Char → Option (Value × List Char)} {fuel : Nat} {cs rest : List Char}

theorem ReadsDistinct.arrayItems? (h : ReadsDistinct value) {vs : List Value}
    (hitems : arrayItems? value fuel cs = some (vs, rest)) : ∀ v ∈ vs, v.KeysDistinct := by
  induction fuel generalizing cs vs with
  | zero => contradiction
  | succ fuel ih =>
      rw [Toml.arrayItems?] at hitems
      split at hitems
      · obtain ⟨rfl, -⟩ := Prod.mk.inj (Option.some.inj hitems)
        simp
      · obtain ⟨⟨v, after⟩, hv, hitems⟩ := Option.bind_eq_some_iff.mp hitems
        dsimp only at hitems
        split at hitems
        · obtain ⟨⟨vs', after'⟩, hvs, hitems⟩ := Option.bind_eq_some_iff.mp hitems
          obtain ⟨rfl, rfl⟩ := Prod.mk.inj (Option.some.inj hitems)
          exact List.forall_mem_cons.mpr ⟨h hv, ih hvs⟩
        · obtain ⟨rfl, -⟩ := Prod.mk.inj (Option.some.inj hitems)
          exact List.forall_mem_singleton.mpr (h hv)
        · contradiction

theorem ReadsDistinct.tablePairs? (h : ReadsDistinct value) {pairs : List (List String × Value)}
    (hpairs : tablePairs? value fuel cs = some (pairs, rest)) :
    ∀ p ∈ pairs, p.2.KeysDistinct := by
  induction fuel generalizing cs pairs with
  | zero => contradiction
  | succ fuel ih =>
      obtain ⟨⟨path, after⟩, -, hpairs⟩ := Option.bind_eq_some_iff.mp hpairs
      dsimp only at hpairs
      split at hpairs
      · obtain ⟨⟨v, after'⟩, hv, hpairs⟩ := Option.bind_eq_some_iff.mp hpairs
        dsimp only at hpairs
        split at hpairs
        · obtain ⟨⟨pairs', after''⟩, hmore, hpairs⟩ := Option.bind_eq_some_iff.mp hpairs
          obtain ⟨rfl, rfl⟩ := Prod.mk.inj (Option.some.inj hpairs)
          exact List.forall_mem_cons.mpr ⟨h hv, ih hmore⟩
        · split at hpairs
          · obtain ⟨rfl, -⟩ := Prod.mk.inj (Option.some.inj hpairs)
            exact List.forall_mem_singleton.mpr (h hv)
          · contradiction
        · contradiction
      · contradiction

end

/-- What a form of value finds has distinct keys. -/
def Scan.FindsDistinct : Scan Value → Prop
  | .found v _ => v.KeysDistinct
  | .absent | .broken => True

@[simp] theorem Scan.findsDistinct_found {v : Value} {rest : List Char} :
    (Scan.found v rest).FindsDistinct ↔ v.KeysDistinct := Iff.rfl

@[simp] theorem Scan.findsDistinct_absent : Scan.absent.FindsDistinct := trivial

@[simp] theorem Scan.findsDistinct_broken : Scan.broken.FindsDistinct := trivial

theorem Scan.FindsDistinct.orElse {a b : Scan Value} (ha : a.FindsDistinct)
    (hb : b.FindsDistinct) : (a.orElse b).FindsDistinct := by
  cases a with
  | absent => exact hb
  | broken => trivial
  | found v rest => exact ha

theorem Scan.FindsDistinct.toOption {a : Scan Value} (ha : a.FindsDistinct) {v : Value}
    {rest : List Char} (h : a.toOption = some (v, rest)) : v.KeysDistinct := by
  cases a with
  | absent | broken => contradiction
  | found v' rest' =>
      obtain ⟨rfl, rfl⟩ := Prod.mk.inj (Option.some.inj h)
      exact ha

theorem findsDistinct_datetime (cs : List Char) : (datetime cs).FindsDistinct := by
  unfold datetime
  repeat' split
  all_goals simp

@[simp] theorem findsDistinct_floatValue (negative : Bool) (whole fraction : List Char) (e : Int)
    (rest : List Char) : (floatValue negative whole fraction e rest).FindsDistinct := by
  unfold floatValue
  split <;> simp

theorem findsDistinct_finiteFloat (cs : List Char) : (finiteFloat cs).FindsDistinct := by
  unfold finiteFloat
  repeat' split
  all_goals simp

theorem findsDistinct_specialFloat (cs : List Char) : (specialFloat cs).FindsDistinct := by
  unfold specialFloat
  repeat' split
  all_goals simp

@[simp] theorem findsDistinct_markedInteger (base : Nat) (digit : Char → Bool) (cs : List Char) :
    (markedInteger base digit cs).FindsDistinct := by
  unfold markedInteger
  repeat' split
  all_goals simp

theorem findsDistinct_integer (cs : List Char) : (integer cs).FindsDistinct := by
  unfold integer
  repeat' split
  all_goals simp

/-- Dates and numbers have no keys. -/
theorem readsDistinct_scalar? : ReadsDistinct scalar? := by
  intro cs v rest h
  exact ((((findsDistinct_datetime cs).orElse (findsDistinct_finiteFloat cs)).orElse
    (findsDistinct_specialFloat cs)).orElse (findsDistinct_integer cs)).toOption h

/-- Values have distinct keys at every depth, because what nests in them has. -/
theorem readsDistinct_value? (depth : Nat) : ReadsDistinct (value? depth) := by
  induction depth using Nat.strongRecOn with
  | ind depth ih =>
      intro cs v rest h
      unfold value? at h
      split at h
      · contradiction
      · rename_i c after
        split at h
        · obtain ⟨⟨s, _⟩, -, heq⟩ := Option.map_eq_some_iff.mp h
          obtain ⟨rfl, -⟩ := Prod.mk.inj heq
          exact .string s
        · split at h
          · -- an array, whose items are one level deeper
            split at h
            · contradiction
            · rename_i depth
              obtain ⟨⟨vs, _⟩, hitems, heq⟩ := Option.map_eq_some_iff.mp h
              obtain ⟨rfl, -⟩ := Prod.mk.inj heq
              exact .array ((ih depth (Nat.lt_succ_self depth)).arrayItems? hitems)
          · split at h
            · -- an inline table, which is built like the tables of lines
              split at h
              · contradiction
              · rename_i depth
                split at h
                · obtain ⟨rfl, -⟩ := Prod.mk.inj (Option.some.inj h)
                  simp
                · obtain ⟨⟨pairs, _⟩, hpairs, h⟩ := Option.bind_eq_some_iff.mp h
                  obtain ⟨v', hv', h⟩ := Option.bind_eq_some_iff.mp h
                  obtain ⟨rfl, -⟩ := Prod.mk.inj (Option.some.inj h)
                  exact keysDistinct_of_inlineTable
                    ((ih depth (Nat.lt_succ_self depth)).tablePairs? hpairs) hv'
            · split at h
              · exact readsDistinct_scalar? h
              · split at h
                case h_5 => contradiction
                all_goals
                  obtain ⟨rfl, -⟩ := Prod.mk.inj (Option.some.inj h)
                  simp

/-! ## Texts -/

theorem Builder.Sound.line? {b b' : Builder} {cs rest : List Char} (h : b.Sound)
    (hline : line? b cs = some (b', rest)) : b'.Sound := by
  unfold Toml.line? at hline
  split at hline
  · obtain ⟨_, -, heq⟩ := Option.map_eq_some_iff.mp hline
    obtain ⟨rfl, -⟩ := Prod.mk.inj heq
    exact h
  · obtain ⟨⟨path, after⟩, -, hline⟩ := Option.bind_eq_some_iff.mp hline
    obtain ⟨next, hopen, hline⟩ := Option.bind_eq_some_iff.mp hline
    obtain ⟨rfl, -⟩ := Prod.mk.inj (Option.some.inj hline)
    exact h.openElement hopen
  · obtain ⟨⟨path, after⟩, -, hline⟩ := Option.bind_eq_some_iff.mp hline
    obtain ⟨next, hopen, hline⟩ := Option.bind_eq_some_iff.mp hline
    obtain ⟨rfl, -⟩ := Prod.mk.inj (Option.some.inj hline)
    exact h.openTable hopen
  · split at hline
    · obtain ⟨rfl, -⟩ := Prod.mk.inj (Option.some.inj hline)
      exact h
    · obtain ⟨⟨path, after⟩, -, hline⟩ := Option.bind_eq_some_iff.mp hline
      dsimp only at hline
      split at hline
      · obtain ⟨⟨v, after'⟩, hv, hline⟩ := Option.bind_eq_some_iff.mp hline
        obtain ⟨_, -, hline⟩ := Option.bind_eq_some_iff.mp hline
        obtain ⟨next, hassign, hline⟩ := Option.bind_eq_some_iff.mp hline
        obtain ⟨rfl, -⟩ := Prod.mk.inj (Option.some.inj hline)
        exact h.assign (readsDistinct_value? _ hv) hassign
      · contradiction

theorem Builder.Sound.lines? {fuel : Nat} {b b' : Builder} {cs : List Char} (h : b.Sound)
    (hlines : lines? fuel b cs = some b') : b'.Sound := by
  induction fuel generalizing b cs with
  | zero => contradiction
  | succ fuel ih =>
      rw [Toml.lines?] at hlines
      split at hlines
      · obtain rfl := Option.some.inj hlines
        exact h
      · obtain ⟨⟨next, rest⟩, hline, hrest⟩ := Option.bind_eq_some_iff.mp hlines
        exact ih (h.line? hline) hrest

/-- **No table of a document has a key twice.** -/
theorem keysDistinct_of_parse? {text : String} {d : Value} (h : parse? text = some d) :
    d.KeysDistinct := by
  unfold parse? at h
  dsimp only at h
  split at h
  · rename_i b hlines
    exact (Builder.sound_start.lines? hlines).finish h
  · contradiction

end JobSupervisor.Toml
