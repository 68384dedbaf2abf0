import JobSupervisor.Proofs.DocumentKeys
import JobSupervisor.Proofs.SectionFields
import Mathlib.Data.List.Forall2

/-!
# What a document says

A configuration can be read off a document without following how it is decoded: every field of every
section is the value that is written for it, or its default if nothing is written.  The relations
`Says…` state this for the kinds of values and for the sections, and the functions that decode
succeed with exactly what these relations allow.  For this the keys of the document have to be
distinct, as those of every text are.

## Main definitions

* `SaysTruth`, `SaysText`, `SaysNatural`, `SaysFormat`, `SaysList` — what values say.
* `SaysEndpoint`, `SaysJob`, `SaysLock`, `SaysObservability` — what sections say, field by field.
* `SaysConfiguration` — what a document says.
* `Configuration.ofDocument_eq_ok_iff_said` — a document is the configuration that it says.
-/

namespace JobSupervisor

namespace Toml.Value

theorem KeysDistinct.own {v : Value} (h : v.KeysDistinct) : v.OwnKeysDistinct := by
  cases v with
  | table entries => exact (keysDistinct_table_iff.mp h).1
  | _ => trivial

theorem KeysDistinct.member? {v w : Value} {place : Nat} {name : String} (h : v.KeysDistinct)
    (hw : v.member? place name = some w) : w.KeysDistinct := by
  cases v with
  | table entries =>
      obtain ⟨hkeys, hvalues⟩ := keysDistinct_table_iff.mp h
      exact hvalues _ ((member?_table_eq_some_iff hkeys place).mp hw)
  | array items => exact keysDistinct_array_iff.mp h w (List.mem_of_getElem? hw)
  | _ => contradiction

/-- The items of an array. -/
def items : Value → List Value
  | .array items => items
  | _ => []

theorem KeysDistinct.item {v w : Value} (h : v.KeysDistinct) (hw : w ∈ v.items) :
    w.KeysDistinct := by
  cases v with
  | array items => exact keysDistinct_array_iff.mp h w hw
  | _ => contradiction

end Toml.Value

namespace Config

open Toml (Value)

variable {α : Type}

/-! ## What values say -/

/-- A value is a truth value. -/
def SaysTruth (v : Value) (b : Bool) : Prop := v = .boolean b

/-- A value is a text. -/
def SaysText (v : Value) (s : String) : Prop := v = .string s

/-- A value is a natural number. -/
def SaysNatural (v : Value) (n : Nat) : Prop := v = .integer n

/-- A value is a list, whose items say the members of another one in their order. -/
def SaysList (Says : Value → α → Prop) (v : Value) (as : List α) : Prop :=
  ∃ items, v = .array items ∧ List.Forall₂ Says items as

/-- A value is the name of a layout, alone or as the one key of a table that is empty there. -/
def SaysFormat (v : Value) (f : LogFormat) : Prop :=
  v = .string f.word ∨ ∃ w, (w = .table [] ∨ w = .array []) ∧ v = .table [(f.word, w)]

theorem decodeTruth_eq_ok_iff {v : Value} {b : Bool} : decodeTruth v = .ok b ↔ SaysTruth v b := by
  cases v <;> simp [decodeTruth, SaysTruth]

theorem decodeText_eq_ok_iff {v : Value} {s : String} : decodeText v = .ok s ↔ SaysText v s := by
  cases v <;> simp [decodeText, SaysText]

theorem decodeNatural_eq_ok_iff {v : Value} {n : Nat} :
    decodeNatural v = .ok n ↔ SaysNatural v n := by
  cases v with
  | integer k =>
      simp only [decodeNatural, SaysNatural, Value.integer.injEq]
      split
      · simp only [reduceCtorEq, false_iff]
        omega
      · rw [Except.ok.injEq]
        omega
  | _ => simp [decodeNatural, SaysNatural]

theorem mapM_eq_ok_iff {item : Value → Decoded α} {items : List Value} {as : List α} :
    items.mapM item = .ok as ↔ List.Forall₂ (fun v a => item v = .ok a) items as := by
  induction items generalizing as with
  | nil =>
      rw [List.mapM_nil, List.forall₂_nil_left_iff]
      exact ⟨fun h => (Except.ok.inj h).symm, fun h => congrArg Except.ok h.symm⟩
  | cons v items ih =>
      rw [List.mapM_cons, List.forall₂_cons_left_iff]
      cases hv : item v with
      | error e => simp [bind, Except.bind]
      | ok a =>
          cases hrest : items.mapM item with
          | error e =>
              have hnone (as : List α) : ¬ List.Forall₂ (fun v a => item v = .ok a) items as := by
                simp [← ih, hrest]
              simp [bind, Except.bind, hnone]
          | ok as' =>
              have hsome (as : List α) :
                  List.Forall₂ (fun v a => item v = .ok a) items as ↔ as' = as := by
                rw [← ih, hrest, Except.ok.injEq]
              simp [bind, Except.bind, pure, Except.pure, hsome, eq_comm]

theorem forall₂_replace {R : Value → α → Prop} {v v' : Value} (h : ∀ a, R v a ↔ R v' a)
    (earlier later : List Value) (as : List α) :
    List.Forall₂ R (earlier ++ v :: later) as ↔ List.Forall₂ R (earlier ++ v' :: later) as := by
  induction earlier generalizing as with
  | nil => simp only [List.nil_append, List.forall₂_cons_left_iff, h]
  | cons w earlier ih => simp only [List.cons_append, List.forall₂_cons_left_iff, ih]

theorem decodeList_eq_ok_iff {item : Value → Decoded α} {v : Value} {as : List α} :
    decodeList item v = .ok as ↔ SaysList (fun v a => item v = .ok a) v as := by
  cases v with
  | array items => simp [decodeList, SaysList, mapM_eq_ok_iff]
  | _ => simp [decodeList, SaysList]

theorem saysList_congr {Says Says' : Value → α → Prop} {v : Value} {as : List α}
    (h : ∀ w ∈ v.items, ∀ a, Says w a ↔ Says' w a) :
    SaysList Says v as ↔ SaysList Says' v as := by
  refine exists_congr fun items => and_congr_right fun hv => ?_
  subst hv
  rw [Value.items] at h
  induction items generalizing as with
  | nil => simp
  | cons w items ih =>
      rw [List.forall_mem_cons] at h
      simp only [List.forall₂_cons_left_iff, h.1, ih h.2]

theorem LogFormat.ofWord?_eq_some_iff {s : String} {f : LogFormat} :
    LogFormat.ofWord? s = some f ↔ s = f.word := by
  constructor
  · intro h
    unfold ofWord? at h
    split at h
    · rename_i hs
      rw [hs, ← Option.some.inj h]
      rfl
    · split at h
      · rename_i hs
        rw [hs, ← Option.some.inj h]
        rfl
      · contradiction
  · rintro rfl
    exact ofWord?_word f

theorem decodeFormatName_eq_ok_iff {s : String} {f : LogFormat} :
    decodeFormatName s = .ok f ↔ s = f.word := by
  rw [← LogFormat.ofWord?_eq_some_iff, decodeFormatName]
  cases LogFormat.ofWord? s <;> simp

theorem decodeFormat_table_eq_ok_iff {name : String} {w : Value} {f : LogFormat} :
    decodeFormat (.table [(name, w)]) = .ok f ↔
      name = f.word ∧ (w = .table [] ∨ w = .array []) := by
  rw [← decodeFormatName_eq_ok_iff, decodeFormat]
  cases decodeFormatName name with
  | error e => simp [bind, Except.bind]
  | ok f' =>
      simp only [bind, Except.bind, Except.ok.injEq]
      split
      · simp [pure, Except.pure]
      · simp [pure, Except.pure]
      · rename_i htable harray
        simp only [throw, throwThe, MonadExceptOf.throw, reduceCtorEq, false_iff, not_and, not_or]
        exact fun _ => ⟨htable, harray⟩

theorem decodeFormat_eq_ok_iff {v : Value} {f : LogFormat} :
    decodeFormat v = .ok f ↔ SaysFormat v f := by
  rw [SaysFormat]
  match v with
  | .string s => simp [decodeFormat, decodeFormatName_eq_ok_iff]
  | .table [(name, w)] => simp [decodeFormat_table_eq_ok_iff, and_comm]
  | .table [] | .table (_ :: _ :: _) | .integer _ | .float _ | .boolean _ | .datetime | .array _ =>
      simp [decodeFormat]

/-! ## Sections -/

/-- What a value says of the endpoint. -/
structure SaysEndpoint (v : Value) (h : HealthEndpoint) : Prop where
  isSection : v.IsSection
  enabled : Chosen SaysTruth true (v.member? 0 "enabled") h.enabled
  bindAddress : Chosen SaysText "0.0.0.0:8080" (v.member? 1 "bind_address") h.bindAddress

/-- What a value says of a job. -/
structure SaysJob (v : Value) (j : JobEntry) : Prop where
  isSection : v.IsSection
  name : Chosen SaysText "" (v.member? 0 "name") j.name
  intervalSecs : Chosen SaysNatural 60 (v.member? 1 "interval_secs") j.intervalSecs
  maxExecutionSecs : Chosen SaysNatural 30 (v.member? 2 "max_execution_secs") j.maxExecutionSecs
  initialDelaySecs : Chosen SaysNatural 0 (v.member? 3 "initial_delay_secs") j.initialDelaySecs
  enabled : Chosen SaysTruth true (v.member? 4 "enabled") j.enabled
  command : Chosen (SaysList SaysText) [] (v.member? 5 "command") j.command

/-- What a value says of the lock. -/
structure SaysLock (v : Value) (l : LockSettings) : Prop where
  isSection : v.IsSection
  enabled : Chosen SaysTruth true (v.member? 0 "enabled") l.enabled
  leaseSecs : Chosen SaysNatural 600 (v.member? 1 "lease_secs") l.leaseSecs

/-- What a value says of logs and metrics. -/
structure SaysObservability (v : Value) (o : Observability) : Prop where
  isSection : v.IsSection
  logLevel : Chosen SaysText "info" (v.member? 0 "log_level") o.logLevel
  logFormat : Chosen SaysFormat .pretty (v.member? 1 "log_format") o.logFormat
  metricsEnabled : Chosen SaysTruth false (v.member? 2 "metrics_enabled") o.metricsEnabled
  metricsAddress :
    Chosen SaysText "0.0.0.0:9090" (v.member? 3 "metrics_address") o.metricsAddress

theorem HealthEndpoint.independent_fields : Independent fields := by
  simp [Independent, fields, Field.commutes_of]

theorem JobEntry.independent_fields : Independent fields := by
  simp [Independent, fields, Field.commutes_of]

theorem LockSettings.independent_fields : Independent fields := by
  simp [Independent, fields, Field.commutes_of]

theorem Observability.independent_fields : Independent fields := by
  simp [Independent, fields, Field.commutes_of]

theorem HealthEndpoint.decode_eq_ok_iff {v : Value} (hv : v.OwnKeysDistinct)
    {h : HealthEndpoint} : decode v = .ok h ↔ SaysEndpoint v h := by
  rw [decode, decodeSection_eq_ok_iff independent_fields hv]
  simp only [fields, readFields_of_eq_some_iff HealthEndpoint.enabled,
    readFields_of_eq_some_iff HealthEndpoint.bindAddress, readFields_nil, implies_true,
    decodeTruth_eq_ok_iff, decodeText_eq_ok_iff]
  constructor
  · rintro ⟨hv, _, henabled, _, haddress, ⟨⟩⟩
    exact ⟨hv, henabled, haddress⟩
  · rintro ⟨hv, henabled, haddress⟩
    exact ⟨hv, _, henabled, _, haddress, rfl⟩

theorem JobEntry.decode_eq_ok_iff {v : Value} (hv : v.OwnKeysDistinct) {j : JobEntry} :
    decode v = .ok j ↔ SaysJob v j := by
  rw [decode, decodeSection_eq_ok_iff independent_fields hv]
  simp only [fields, readFields_of_eq_some_iff JobEntry.name,
    readFields_of_eq_some_iff JobEntry.intervalSecs,
    readFields_of_eq_some_iff JobEntry.maxExecutionSecs,
    readFields_of_eq_some_iff JobEntry.initialDelaySecs,
    readFields_of_eq_some_iff JobEntry.enabled, readFields_of_eq_some_iff JobEntry.command,
    readFields_nil, implies_true, decodeTruth_eq_ok_iff, decodeText_eq_ok_iff,
    decodeNatural_eq_ok_iff, decodeList_eq_ok_iff]
  constructor
  · rintro ⟨hv, _, hname, _, hinterval, _, hmax, _, hdelay, _, henabled, _, hcommand, ⟨⟩⟩
    exact ⟨hv, hname, hinterval, hmax, hdelay, henabled, hcommand⟩
  · rintro ⟨hv, hname, hinterval, hmax, hdelay, henabled, hcommand⟩
    exact ⟨hv, _, hname, _, hinterval, _, hmax, _, hdelay, _, henabled, _, hcommand, rfl⟩

theorem LockSettings.decode_eq_ok_iff {v : Value} (hv : v.OwnKeysDistinct) {l : LockSettings} :
    decode v = .ok l ↔ SaysLock v l := by
  rw [decode, decodeSection_eq_ok_iff independent_fields hv]
  simp only [fields, readFields_of_eq_some_iff LockSettings.enabled,
    readFields_of_eq_some_iff LockSettings.leaseSecs, readFields_nil, implies_true,
    decodeTruth_eq_ok_iff, decodeNatural_eq_ok_iff]
  constructor
  · rintro ⟨hv, _, henabled, _, hlease, ⟨⟩⟩
    exact ⟨hv, henabled, hlease⟩
  · rintro ⟨hv, henabled, hlease⟩
    exact ⟨hv, _, henabled, _, hlease, rfl⟩

theorem Observability.decode_eq_ok_iff {v : Value} (hv : v.OwnKeysDistinct) {o : Observability} :
    decode v = .ok o ↔ SaysObservability v o := by
  rw [decode, decodeSection_eq_ok_iff independent_fields hv]
  simp only [fields, readFields_of_eq_some_iff Observability.logLevel,
    readFields_of_eq_some_iff Observability.logFormat,
    readFields_of_eq_some_iff Observability.metricsEnabled,
    readFields_of_eq_some_iff Observability.metricsAddress, readFields_nil, implies_true,
    decodeTruth_eq_ok_iff, decodeText_eq_ok_iff, decodeFormat_eq_ok_iff]
  constructor
  · rintro ⟨hv, _, hlevel, _, hformat, _, henabled, _, haddress, ⟨⟩⟩
    exact ⟨hv, hlevel, hformat, henabled, haddress⟩
  · rintro ⟨hv, hlevel, hformat, henabled, haddress⟩
    exact ⟨hv, _, hlevel, _, hformat, _, henabled, _, haddress, rfl⟩

theorem independent_sections : Independent sections := by
  simp [Independent, sections, Field.commutes_of]

end Config

open Config

/-- What a document says of the configuration. -/
@[mk_iff]
structure SaysConfiguration (d : Toml.Value) (c : Configuration) : Prop where
  isSection : d.IsSection
  health : Chosen SaysEndpoint .default (d.member? 0 "health") c.health
  jobs : Chosen (SaysList SaysJob) [] (d.member? 1 "jobs") c.jobs
  lock : Chosen SaysLock .default (d.member? 2 "lock") c.lock
  observability : Chosen SaysObservability .default (d.member? 3 "observability") c.observability

namespace Configuration

theorem ofDocument_eq_ok_iff {d : Toml.Value} (hd : d.OwnKeysDistinct) {c : Configuration} :
    ofDocument d = .ok c ↔ d.IsSection ∧
      Chosen (fun v h => HealthEndpoint.decode v = .ok h) .default (d.member? 0 "health")
        c.health ∧
      Chosen (fun v js => decodeList JobEntry.decode v = .ok js) [] (d.member? 1 "jobs") c.jobs ∧
      Chosen (fun v l => LockSettings.decode v = .ok l) .default (d.member? 2 "lock") c.lock ∧
      Chosen (fun v o => Observability.decode v = .ok o) .default (d.member? 3 "observability")
        c.observability := by
  rw [ofDocument, decodeSection_eq_ok_iff independent_sections hd]
  simp only [sections, readFields_of_eq_some_iff Configuration.health,
    readFields_of_eq_some_iff Configuration.jobs, readFields_of_eq_some_iff Configuration.lock,
    readFields_of_eq_some_iff Configuration.observability, readFields_nil, implies_true]
  constructor
  · rintro ⟨hd, _, hhealth, _, hjobs, _, hlock, _, hobservability, ⟨⟩⟩
    exact ⟨hd, hhealth, hjobs, hlock, hobservability⟩
  · rintro ⟨hd, hhealth, hjobs, hlock, hobservability⟩
    exact ⟨hd, _, hhealth, _, hjobs, _, hlock, _, hobservability, rfl⟩

/-- A document is the configuration that it says. -/
theorem ofDocument_eq_ok_iff_said {d : Toml.Value} (hd : d.KeysDistinct) {c : Configuration} :
    ofDocument d = .ok c ↔ SaysConfiguration d c := by
  rw [ofDocument_eq_ok_iff hd.own, saysConfiguration_iff]
  refine and_congr_right fun _ => and_congr (Chosen.congr fun v hv => ?_)
    (and_congr (Chosen.congr fun v hv => ?_)
      (and_congr (Chosen.congr fun v hv => ?_) (Chosen.congr fun v hv => ?_)))
  · exact HealthEndpoint.decode_eq_ok_iff (hd.member? hv).own
  · rw [decodeList_eq_ok_iff]
    exact saysList_congr fun w hw j => JobEntry.decode_eq_ok_iff ((hd.member? hv).item hw).own
  · exact LockSettings.decode_eq_ok_iff (hd.member? hv).own
  · exact Observability.decode_eq_ok_iff (hd.member? hv).own

end Configuration

end JobSupervisor
