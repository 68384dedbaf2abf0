import JobSupervisor.Config.Load
import JobSupervisor.Proofs.ConfigurationFields
import Mathlib.Logic.Relation

/-!
# One configuration, many documents

A document can be written differently in many ways without changing the configuration: keys can be
reordered, keys that name nothing can be added, a table can be replaced by the array of its values,
and a section that is missing can be opened and left empty.  Each of these changes is made at the
document itself, in one of its sections or in one of its jobs, and any chain of them, in both
directions, leads from a document to one with the same configuration.

Together with what a document says, this describes the loading of texts completely: the document
of a text has distinct keys, it is accepted exactly if it says a configuration that keeps the rules,
and it is that configuration that is loaded.

## Main definitions

* `Configuration.Restated` — a document written differently.
* `Configuration.ofTree` — the configuration of a document, checked.
* `Configuration.overrides_defaults` — a configuration is the defaults, overridden by a document.
-/

namespace JobSupervisor.Configuration

open Config

/-! ## Documents written differently -/

/-- The sections that are single tables, with the names of their fields. -/
def sectionNames : List (String × List String) := [
  ("health", HealthEndpoint.fields.map Field.name),
  ("lock", LockSettings.fields.map Field.name),
  ("observability", Observability.fields.map Field.name)]

/-- A document is written differently: the document itself, one of its sections or one of its jobs
is, or a section is opened that was missing. -/
inductive Restated : Toml.Value → Toml.Value → Prop
  | document {d d' : Toml.Value} (h : Config.Restated (sections.map Field.name) d d') :
      Restated d d'
  | inSection {name : String} {names : List String} {before after : List (String × Toml.Value)}
      {v v' : Toml.Value} (known : (name, names) ∈ sectionNames) (h : Config.Restated names v v') :
      Restated (.table (before ++ (name, v) :: after)) (.table (before ++ (name, v') :: after))
  | inJob {before after : List (String × Toml.Value)} {earlier later : List Toml.Value}
      {v v' : Toml.Value} (h : Config.Restated (JobEntry.fields.map Field.name) v v') :
      Restated (.table (before ++ ("jobs", .array (earlier ++ v :: later)) :: after))
        (.table (before ++ ("jobs", .array (earlier ++ v' :: later)) :: after))
  | opened {name : String} {names : List String} {before after : List (String × Toml.Value)}
      (known : (name, names) ∈ sectionNames) (nodup : ((before ++ after).map Prod.fst).Nodup)
      (missing : name ∉ (before ++ after).map Prod.fst) :
      Restated (.table (before ++ after)) (.table (before ++ (name, .table []) :: after))

section

open Toml.Value

theorem cases_of_mem_sectionNames {name : String} {names : List String}
    (h : (name, names) ∈ sectionNames) :
    (name = "health" ∧ names = HealthEndpoint.fields.map Field.name) ∨
      (name = "lock" ∧ names = LockSettings.fields.map Field.name) ∨
        (name = "observability" ∧ names = Observability.fields.map Field.name) := by
  simpa only [sectionNames, List.mem_cons, Prod.mk.injEq, List.not_mem_nil, or_false] using h

/-- A section that is opened and left empty has its defaults, as if it were missing. -/
theorem ofDocument_eq_ok_iff_of_opened {name : String} {names : List String}
    {before after : List (String × Toml.Value)} (known : (name, names) ∈ sectionNames)
    (nodup : ((before ++ after).map Prod.fst).Nodup)
    (missing : name ∉ (before ++ after).map Prod.fst) {c : Configuration} :
    ofDocument (.table (before ++ after)) = .ok c ↔
      ofDocument (.table (before ++ (name, .table []) :: after)) = .ok c := by
  have hbefore : name ∉ before.map Prod.fst := by
    rw [List.map_append, List.mem_append] at missing
    exact fun hmem => missing (.inl hmem)
  have hd : (table (before ++ after)).OwnKeysDistinct := nodup
  have hd' : (table (before ++ (name, table []) :: after)).OwnKeysDistinct :=
    nodup_keys_insert nodup missing
  have hother (other : String) (h : name ≠ other) (place : Nat) :
      (table (before ++ (name, table []) :: after)).member? place other =
        (table (before ++ after)).member? place other :=
    member?_table_insert_of_ne h place
  rw [ofDocument_eq_ok_iff hd, ofDocument_eq_ok_iff hd']
  rcases cases_of_mem_sectionNames known with ⟨rfl, -⟩ | ⟨rfl, -⟩ | ⟨rfl, -⟩
  · rw [member?_table_of_notMem missing, member?_table_insert_self hbefore,
      hother "jobs" (by decide), hother "lock" (by decide), hother "observability" (by decide)]
    exact and_congr_right fun _ => and_congr_left fun _ => chosen_opened
  · rw [member?_table_of_notMem missing, member?_table_insert_self hbefore,
      hother "health" (by decide), hother "jobs" (by decide), hother "observability" (by decide)]
    exact and_congr_right fun _ => and_congr_right fun _ => and_congr_right fun _ =>
      and_congr_left fun _ => chosen_opened
  · rw [member?_table_of_notMem missing, member?_table_insert_self hbefore,
      hother "health" (by decide), hother "jobs" (by decide), hother "lock" (by decide)]
    exact and_congr_right fun _ => and_congr_right fun _ => and_congr_right fun _ =>
      and_congr_right fun _ => chosen_opened

end

/-- Documents that are written differently are the same configuration. -/
theorem Restated.ofDocument_eq_ok_iff {d d' : Toml.Value} (h : Restated d d')
    {c : Configuration} : ofDocument d = .ok c ↔ ofDocument d' = .ok c := by
  cases h with
  | document h => exact h.decodeSection_eq_ok_iff independent_sections
  | inSection known h =>
      rcases cases_of_mem_sectionNames known with ⟨rfl, rfl⟩ | ⟨rfl, rfl⟩ | ⟨rfl, rfl⟩
      · exact decodeSection_eq_ok_iff_of_assign? independent_sections
          (List.getElem_mem (by decide : 0 < sections.length))
          (Field.assign?_of_congr fun _ =>
            h.decodeSection_eq_ok_iff HealthEndpoint.independent_fields) _ _
      · exact decodeSection_eq_ok_iff_of_assign? independent_sections
          (List.getElem_mem (by decide : 2 < sections.length))
          (Field.assign?_of_congr fun _ =>
            h.decodeSection_eq_ok_iff LockSettings.independent_fields) _ _
      · exact decodeSection_eq_ok_iff_of_assign? independent_sections
          (List.getElem_mem (by decide : 3 < sections.length))
          (Field.assign?_of_congr fun _ =>
            h.decodeSection_eq_ok_iff Observability.independent_fields) _ _
  | @inJob before after earlier later v v' h =>
      have hjob (j : JobEntry) : JobEntry.decode v = .ok j ↔ JobEntry.decode v' = .ok j :=
        h.decodeSection_eq_ok_iff JobEntry.independent_fields
      refine decodeSection_eq_ok_iff_of_assign? independent_sections
          (List.getElem_mem (by decide : 1 < sections.length))
          (Field.assign?_of_congr fun js => ?_) before after
      rw [decodeList, decodeList, mapM_eq_ok_iff, mapM_eq_ok_iff]
      exact forall₂_replace hjob earlier later js
  | opened known nodup missing => exact ofDocument_eq_ok_iff_of_opened known nodup missing

/-! ## Texts -/

/-- The configuration of a document, checked. -/
def ofTree (d : Toml.Value) : Except LoadError Configuration :=
  match ofDocument d with
  | .error e => .error (.undecodable e)
  | .ok c => if c.violations.isEmpty then .ok c else .error (.invalid c.violations)

/-- A text is loaded by reading its document. -/
theorem ofText_eq (text : String) :
    ofText text = (Toml.parse? text).elim (.error .malformed) ofTree := by
  unfold ofText read
  cases Toml.parse? text with
  | none => rfl
  | some d =>
      simp only [Option.elim, ofTree]
      cases ofDocument d <;> rfl

theorem ofTree_eq_ok_iff {d : Toml.Value} {c : Configuration} :
    ofTree d = .ok c ↔ ofDocument d = .ok c ∧ c.violations = [] := by
  unfold ofTree
  cases ofDocument d with
  | error e => simp
  | ok c' =>
      dsimp only
      split
      · rename_i hvalid
        rw [List.isEmpty_iff] at hvalid
        constructor
        · rintro ⟨⟩
          exact ⟨rfl, hvalid⟩
        · rintro ⟨⟨⟩, -⟩
          rfl
      · rename_i hinvalid
        rw [List.isEmpty_iff] at hinvalid
        constructor
        · rintro ⟨⟩
        · rintro ⟨⟨⟩, hvalid⟩
          exact absurd hvalid hinvalid

/-- Documents that are written differently load the same configuration. -/
theorem ofTree_eq_ok_iff_of_eqvGen {d d' : Toml.Value} (h : Relation.EqvGen Restated d d')
    (c : Configuration) : ofTree d = .ok c ↔ ofTree d' = .ok c := by
  induction h with
  | rel d d' h => rw [ofTree_eq_ok_iff, ofTree_eq_ok_iff, h.ofDocument_eq_ok_iff]
  | refl d => rfl
  | symm d d' _ ih => exact ih.symm
  | trans d d' d'' _ _ ih ih' => exact ih.trans ih'

/-- **A configuration is the defaults, overridden field by field by what a document says.**  A text
is loaded by checking its document, in which no key stands twice.  Such a document is accepted with
a configuration exactly if every field of every section, and of every job, is the value written for
it or else its default, and the configuration keeps the rules.  However the keys are reordered,
whichever keys are added that name nothing, and whether the first fields of sections and jobs are
written as tables or as arrays, the same configuration is loaded. -/
theorem overrides_defaults :
    (∀ text, ofText text = (Toml.parse? text).elim (.error .malformed) ofTree) ∧
    (∀ text d, Toml.parse? text = some d → d.KeysDistinct) ∧
    (∀ d : Toml.Value, d.KeysDistinct → ∀ c,
      ofTree d = .ok c ↔ SaysConfiguration d c ∧ c.violations = []) ∧
    ∀ d d', Relation.EqvGen Restated d d' → ∀ c, ofTree d = .ok c ↔ ofTree d' = .ok c := by
  refine ⟨ofText_eq, fun _ _ h => Toml.keysDistinct_of_parse? h, fun d hd c => ?_,
    fun d d' h c => ofTree_eq_ok_iff_of_eqvGen h c⟩
  rw [ofTree_eq_ok_iff, ofDocument_eq_ok_iff_said hd]

/-- A document with a lock and a job, written as tables. -/
def keyedDocument : Toml.Value :=
  .table [
    ("lock", .table [("enabled", .boolean false), ("lease_secs", .integer 30)]),
    ("jobs", .array [.table [("name", .string "backup"), ("interval_secs", .integer 900)]])]

/-- The same document with arrays, and with a key that names nothing. -/
def positionalDocument : Toml.Value :=
  .table [
    ("jobs", .array [.array [.string "backup", .integer 900]]),
    ("lock", .array [.boolean false, .integer 30]),
    ("owner", .table [("name", .string "ops")])]

/-- The configuration that both documents say. -/
def backupOnly : Configuration :=
  { Configuration.default with
    jobs := [{ JobEntry.default with name := "backup", intervalSecs := 900 }]
    lock := ⟨false, 30⟩ }

theorem eqvGen_positionalDocument :
    Relation.EqvGen Restated keyedDocument positionalDocument := by
  have hjob := @Restated.inJob
    [("lock", .table [("enabled", .boolean false), ("lease_secs", .integer 30)])] [] [] [] _ _
    (.positional [.string "backup", .integer 900])
  have hlock := @Restated.inSection "lock" (LockSettings.fields.map Field.name) []
    [("jobs", .array [.array [.string "backup", .integer 900]])] _ _ (by simp [sectionNames])
    (.positional [.boolean false, .integer 30])
  have horder := Restated.document (.reordered (by decide)
    (.swap ("jobs", .array [.array [.string "backup", .integer 900]])
      ("lock", .array [.boolean false, .integer 30]) []))
  have howner := Restated.document (@Config.Restated.extended (sections.map Field.name)
    [("jobs", .array [.array [.string "backup", .integer 900]]),
      ("lock", .array [.boolean false, .integer 30])] [] "owner" (.table [("name", .string "ops")])
    (by decide))
  exact .trans _ _ _ (.rel _ _ hjob) (.trans _ _ _ (.rel _ _ hlock)
    (.trans _ _ _ (.rel _ _ horder) (.rel _ _ howner)))

/-- A text of the first document. -/
def keyedText : String :=
  "[lock]\nenabled = false\nlease_secs = 30\n\n[[jobs]]\nname = \"backup\"\ninterval_secs = 900\n"

theorem overrides_defaults_positionalDocument :
    (∃ d, Toml.parse? keyedText = some d ∧ d.KeysDistinct ∧ SaysConfiguration d backupOnly) ∧
      keyedDocument.KeysDistinct ∧ SaysConfiguration keyedDocument backupOnly ∧
        ofTree positionalDocument = .ok backupOnly := by
  obtain ⟨hof, hparsed, hsaid, hrestated⟩ := overrides_defaults
  have hkeyed : ofTree keyedDocument = .ok backupOnly := rfl
  have hdistinct : keyedDocument.KeysDistinct := by simp [keyedDocument]
  refine ⟨?_, hdistinct, ((hsaid _ hdistinct _).mp hkeyed).1,
    (hrestated _ _ eqvGen_positionalDocument _).mp hkeyed⟩
  have hloaded : ofText keyedText = .ok backupOnly :=
    toOption_eq_some_iff.mp (by decide +kernel)
  rw [hof] at hloaded
  cases hd : Toml.parse? keyedText with
  | none => simp [hd] at hloaded
  | some d =>
      rw [hd, Option.elim_some] at hloaded
      exact ⟨d, rfl, hparsed _ _ hd, ((hsaid d (hparsed _ _ hd) _).mp hloaded).1⟩

end JobSupervisor.Configuration
