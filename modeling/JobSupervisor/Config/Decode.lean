import JobSupervisor.Config.Schema
import JobSupervisor.Toml.Document

/-!
# Reading a configuration from a document

A section is read from a table, whose keys name the fields, or from an array, whose items
are the values of the fields in their order of declaration.  Either way a section starts
as its default and each value that is written replaces one field; keys that name no field
and items beyond the last field are ignored.  The first value that does not fit its field
ends the reading.

## Main definitions

* `Field`, `decodeSection` — sections in general.
* `Configuration.ofDocument` — the configuration of a document.
* `DecodeError` — what does not fit, with its text `DecodeError.message?`.
-/

namespace JobSupervisor.Config

open Toml (Value)

/-- What a field or a section asks for. -/
inductive Expected where
  | natural
  | text
  | truth
  | list
  | record (title : String)
  deriving DecidableEq, Repr

/-- The words for what is asked for. -/
def Expected.words : Expected → String
  | .natural => "u64"
  | .text => "a string"
  | .truth => "a boolean"
  | .list => "a sequence"
  | .record title => "struct " ++ title

/-- Why a document is no configuration. -/
inductive DecodeError where
  /-- A value of another kind than the one asked for. -/
  | wrongKind (found : Value) (expected : Expected)
  /-- A negative number where a natural one is asked for. -/
  | negative (n : Int)
  /-- A name that is none of the layouts of log lines. -/
  | unknownFormat (name : String)
  /-- A layout that is neither a name nor a table with one name. -/
  | formatShape
  deriving Repr

/-- Floating-point numbers in messages are positional and have a point. -/
def floatLayout : Decimal.Layout := ⟨none, true⟩

/-- The words for a value that does not fit. -/
def foundWords : Value → String
  | .string s => "string " ++ Text.quoted s
  | .integer n => "integer `" ++ toString n ++ "`"
  | .float x => "floating point `" ++ floatLayout.render x ++ "`"
  | .boolean b => "boolean `" ++ (if b then "true" else "false") ++ "`"
  | .array _ => "sequence"
  | .datetime | .table _ => "map"

/-- The text of an error; the shape of a layout has none of its own. -/
def DecodeError.message? : DecodeError → Option String
  | .wrongKind found expected =>
      some ("invalid type: " ++ foundWords found ++ ", expected " ++ expected.words)
  | .negative n =>
      some ("invalid value: integer `" ++ toString n ++ "`, expected " ++
        Expected.natural.words)
  | .unknownFormat name =>
      some ("unknown variant `" ++ name ++ "`, expected `pretty` or `json`")
  | .formatShape => none

/-- The result of reading. -/
abbrev Decoded (α : Type) := Except DecodeError α

/-! ## Values -/

/-- A natural number. -/
def decodeNatural : Value → Decoded Nat
  | .integer n => if n < 0 then .error (.negative n) else .ok n.toNat
  | v => .error (.wrongKind v .natural)

/-- A text. -/
def decodeText : Value → Decoded String
  | .string s => .ok s
  | v => .error (.wrongKind v .text)

/-- A truth value. -/
def decodeTruth : Value → Decoded Bool
  | .boolean b => .ok b
  | v => .error (.wrongKind v .truth)

/-- A list of values of one kind. -/
def decodeList {α : Type} (item : Value → Decoded α) : Value → Decoded (List α)
  | .array items => items.mapM item
  | v => .error (.wrongKind v .list)

/-- The layout of a name. -/
def decodeFormatName (s : String) : Decoded LogFormat :=
  match LogFormat.ofWord? s with
  | some f => .ok f
  | none => .error (.unknownFormat s)

/-- A layout of log lines: its name, or a table whose one key is the name and whose value
there is empty. -/
def decodeFormat : Value → Decoded LogFormat
  | .string s => decodeFormatName s
  | .table [(name, v)] => do
      let f ← decodeFormatName name
      match v with
      | .table [] | .array [] => return f
      | _ => throw .formatShape
  | _ => .error .formatShape

/-! ## Sections -/

/-- A field of a section: its name, and how a value changes the section. -/
structure Field (σ : Type) where
  name : String
  assign : Value → σ → Decoded σ

/-- A field that is read by a function and stored by another one. -/
def Field.of {σ α : Type} (name : String) (decode : Value → Decoded α) (set : α → σ → σ) :
    Field σ :=
  ⟨name, fun v s => (decode v).map fun a => set a s⟩

/-- What one entry of a table does to a section. -/
def assignNamed {σ : Type} (fields : List (Field σ)) (s : σ) (entry : String × Value) :
    Decoded σ :=
  match fields.find? (·.name = entry.1) with
  | some f => f.assign entry.2 s
  | none => .ok s

/-- A section from a table or an array.  A date has no part that names a field. -/
def decodeSection {σ : Type} (title : String) (fields : List (Field σ)) (start : σ) :
    Value → Decoded σ
  | .table entries => entries.foldlM (assignNamed fields) start
  | .array items => (fields.zip items).foldlM (fun s (f, v) => f.assign v s) start
  | .datetime => .ok start
  | v => .error (.wrongKind v (.record title))

/-- The fields of the endpoint section. -/
def HealthEndpoint.fields : List (Field HealthEndpoint) := [
  .of "enabled" decodeTruth fun b s => { s with enabled := b },
  .of "bind_address" decodeText fun a s => { s with bindAddress := a }]

/-- The endpoint section. -/
def HealthEndpoint.decode : Value → Decoded HealthEndpoint :=
  decodeSection "HealthEndpointConfig" fields default

/-- The fields of a job. -/
def JobEntry.fields : List (Field JobEntry) := [
  .of "name" decodeText fun a s => { s with name := a },
  .of "interval_secs" decodeNatural fun n s => { s with intervalSecs := n },
  .of "max_execution_secs" decodeNatural fun n s => { s with maxExecutionSecs := n },
  .of "initial_delay_secs" decodeNatural fun n s => { s with initialDelaySecs := n },
  .of "enabled" decodeTruth fun b s => { s with enabled := b },
  .of "command" (decodeList decodeText) fun c s => { s with command := c }]

/-- A job. -/
def JobEntry.decode : Value → Decoded JobEntry :=
  decodeSection "JobConfig" fields default

/-- The fields of the lock section. -/
def LockSettings.fields : List (Field LockSettings) := [
  .of "enabled" decodeTruth fun b s => { s with enabled := b },
  .of "lease_secs" decodeNatural fun n s => { s with leaseSecs := n }]

/-- The lock section. -/
def LockSettings.decode : Value → Decoded LockSettings :=
  decodeSection "LockConfig" fields default

/-- The fields of the observability section. -/
def Observability.fields : List (Field Observability) := [
  .of "log_level" decodeText fun a s => { s with logLevel := a },
  .of "log_format" decodeFormat fun f s => { s with logFormat := f },
  .of "metrics_enabled" decodeTruth fun b s => { s with metricsEnabled := b },
  .of "metrics_address" decodeText fun a s => { s with metricsAddress := a }]

/-- The observability section. -/
def Observability.decode : Value → Decoded Observability :=
  decodeSection "ObservabilityConfig" fields default

/-- The sections of a configuration. -/
def sections : List (Field Configuration) := [
  .of "health" HealthEndpoint.decode fun h c => { c with health := h },
  .of "jobs" (decodeList JobEntry.decode) fun js c => { c with jobs := js },
  .of "lock" LockSettings.decode fun l c => { c with lock := l },
  .of "observability" Observability.decode fun o c => { c with observability := o }]

end JobSupervisor.Config

namespace JobSupervisor

/-- The configuration of a document. -/
def Configuration.ofDocument : Toml.Value → Config.Decoded Configuration :=
  Config.decodeSection "SentinelConfig" Config.sections Configuration.default

end JobSupervisor
