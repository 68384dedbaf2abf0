import JobSupervisor.Host.Exit
import JobSupervisor.Host.Shell.Arithmetic
import JobSupervisor.Host.Shell.Pattern
import JobSupervisor.Host.Shell.Syntax
import JobSupervisor.NameMap
import JobSupervisor.Time

/-!
# The state of a shell, and expansion

A shell has parameters, variables and functions, the status of the last command, input that
is not yet read, and the two outputs.  Each descriptor leads to one of the outputs or to
nothing.

Expansion turns words into fields.  An unquoted expansion is split at white space; a
quoted one is not, except that all parameters in quotes stay fields of their own.

## Main definitions

* `Machine` — the state of a shell; `Halt` — why it passes over commands.
* `Machine.fields` — the fields of words; the output of a command inside a word is
  supplied from outside.
-/

namespace JobSupervisor.Host.Shell

/-- Where a descriptor leads. -/
inductive Sink where
  | output
  | errors
  | nowhere
  deriving DecidableEq, Repr

/-- Why commands are passed over: the process has ended, or a function or some loops have
been left, perhaps to go on with the outermost of them. -/
inductive Halt where
  | process (s : ExitStatus)
  | function
  | loop (more : Nat) (again : Bool)
  deriving DecidableEq, Repr

/-- The state of a shell. -/
structure Machine where
  name : String
  parameters : List String
  bindings : NameMap String
  exported : List String
  functions : NameMap Command
  status : Nat
  halt : Option Halt
  input : List UInt8
  output : Array UInt8
  errors : Array UInt8
  sinks : List (Nat × Sink)
  elapsed : Duration
  /-- The number of loops around the command that is run. -/
  loops : Nat
  /-- Whether a failure ends the shell. -/
  strict : Bool
  /-- Whether the command that is run is a test, which may fail. -/
  tested : Bool
  /-- What is done on a signal, and on the end of the shell under zero. -/
  traps : List (Nat × String)
  /-- What is to be done because of signals. -/
  pending : List String

namespace Machine

/-- The number of the shell process. -/
def process : String := "4711"

/-- A shell at its start. -/
def start (name : String) (parameters : List String) (input : List UInt8) : Machine where
  name := name
  parameters := parameters
  bindings := .empty
  exported := []
  functions := .empty
  status := 0
  halt := none
  input := input
  output := #[]
  errors := #[]
  sinks := [(1, .output), (2, .errors)]
  elapsed := ⟨0⟩
  loops := 0
  strict := false
  tested := false
  traps := []
  pending := []

/-- Where a descriptor leads now. -/
def sink (m : Machine) (descriptor : Nat) : Sink :=
  ((m.sinks.find? (·.1 = descriptor)).map Prod.snd).getD .nowhere

/-- Leads a descriptor elsewhere. -/
def lead (m : Machine) (descriptor : Nat) (s : Sink) : Machine :=
  { m with sinks := (descriptor, s) :: m.sinks.filter (·.1 ≠ descriptor) }

/-- Writes to a descriptor. -/
def write (m : Machine) (descriptor : Nat) (bytes : List UInt8) : Machine :=
  match m.sink descriptor with
  | .output => { m with output := m.output ++ bytes.toArray }
  | .errors => { m with errors := m.errors ++ bytes.toArray }
  | .nowhere => m

/-- Writes a text to a descriptor. -/
def print (m : Machine) (descriptor : Nat) (s : String) : Machine :=
  m.write descriptor (Text.Utf8.encode s)

/-- Sets the status. -/
def done (m : Machine) (status : Nat) : Machine := { m with status := status }

/-- Ends the process. -/
def leave (m : Machine) (s : ExitStatus) : Machine := { m with halt := some (.process s) }

/-- Complains on the second descriptor and sets the status. -/
def complain (m : Machine) (text : String) (status : Nat) : Machine :=
  (m.print 2 (m.name ++ ": 1: " ++ text ++ "\n")).done status

/-- Complains and ends the shell. -/
def fail (m : Machine) (text : String) : Machine := (m.complain text 2).leave (.code 2)

/-- The value of a parameter or variable, if it has one. -/
def value? (m : Machine) (name : String) : Option String :=
  match name with
  | "?" => some (toString m.status)
  | "$" => some process
  | "#" => some (toString m.parameters.length)
  | "0" => some m.name
  | "-" => some (if m.strict then "e" else "")
  | "*" | "@" => some (String.intercalate " " m.parameters)
  | name =>
      match name.toNat? with
      | some n => m.parameters[n - 1]?
      | none => m.bindings.get? name

/-- The value of a parameter or variable, empty if it has none. -/
def value (m : Machine) (name : String) : String := (m.value? name).getD ""

/-- Sets a variable. -/
def assign (m : Machine) (name value : String) : Machine :=
  { m with bindings := m.bindings.insert name value }

end Machine

/-- Fields under construction: the finished ones, the last one first, and the current one,
if it has begun. -/
structure Fields where
  finished : List String
  current : Option String

namespace Fields

/-- No fields. -/
def none : Fields := ⟨[], Option.none⟩

/-- Adds to the current field. -/
def append (f : Fields) (s : String) : Fields :=
  { f with current := some (f.current.getD "" ++ s) }

/-- Ends the current field. -/
def close (f : Fields) : Fields :=
  match f.current with
  | some s => ⟨s :: f.finished, Option.none⟩
  | Option.none => f

/-- Adds a text that is split at white space. -/
def appendSplit (f : Fields) (s : String) : Fields :=
  s.toList.foldl (fun f c =>
    if c = ' ' || c = '\t' || c = '\n' then f.close else f.append (String.singleton c)) f

/-- Adds a text. -/
def add (f : Fields) (quoted : Bool) (s : String) : Fields :=
  if quoted then f.append s else f.appendSplit s

/-- Adds texts with ends of fields in between. -/
def addAll (f : Fields) : List String → Fields
  | [] => f
  | [s] => f.append s
  | s :: rest => (f.append s).close.addAll rest

/-- The fields in order. -/
def toList (f : Fields) : List String := f.close.finished.reverse

end Fields

namespace Machine

/-- How the output of a command inside a word is obtained. -/
abbrev Capture := String → Machine → String × Machine

/-- A text inside braces without its quotation marks. -/
def unquoted (s : String) : String :=
  String.ofList (s.toList.filter fun c => c ≠ '"' && c ≠ '\'')

/-- Whether a value is there. -/
def isThere (ifEmpty : Bool) (value : Option String) : Bool :=
  match value with
  | some v => !(ifEmpty && v.isEmpty)
  | none => false

/-- What is said about a parameter that is missing. -/
def missingText (ifEmpty : Bool) (text : String) : String :=
  if text.isEmpty then "parameter not set" ++ (if ifEmpty then " or null" else "")
  else unquoted text

/-- The value of a parameter in a form. -/
def formed (m : Machine) (name : String) (form : Form) : String × Machine :=
  let v := m.value name
  match form with
  | .plain => (v, m)
  | .senseless => ("", m.fail "Bad substitution")
  | .fallback ifEmpty text =>
      (if isThere ifEmpty (m.value? name) then v else unquoted text, m)
  | .assigned ifEmpty text =>
      if isThere ifEmpty (m.value? name) then (v, m)
      else (unquoted text, m.assign name (unquoted text))
  | .alternative ifEmpty text =>
      (if isThere ifEmpty (m.value? name) then unquoted text else "", m)
  | .required ifEmpty text =>
      if isThere ifEmpty (m.value? name) then (v, m)
      else ("", m.fail (name ++ ": " ++ missingText ifEmpty text))
  | .withoutStart longest pattern =>
      ((Pattern.ofChars (Pattern.mark false pattern)).withoutStart longest v, m)
  | .withoutEnd longest pattern =>
      ((Pattern.ofChars (Pattern.mark false pattern)).withoutEnd longest v, m)

/-- What is wrong with an expression that has no value. -/
def arithmeticText (expression : String) : String :=
  let reason := if (expression.splitOn "/0").length ≠ 1 || (expression.splitOn "%0").length ≠ 1
    then "division by zero" else "expecting primary"
  "arithmetic expression: " ++ reason ++ ": \"" ++ expression ++ "\""

/-- Adds the expansion of a part to fields. -/
def addPart (capture : Capture) (f : Fields) (m : Machine) : Part → Fields × Machine
  | .text _ s => (f.append s, m)
  | .parameter true "@" _ => (f.addAll m.parameters, m)
  | .parameter quoted name form =>
      let (v, m) := m.formed name form
      (f.add quoted v, m)
  | .length quoted name => (f.add quoted (toString (m.value name).length), m)
  | .arithmetic quoted e =>
      match Arithmetic.evaluate? m.value e with
      | some n => (f.add quoted (toString n), m)
      | Option.none => (f, m.fail (arithmeticText e))
  | .output quoted script =>
      let (s, m) := capture script m
      (f.add quoted s, m)

/-- Adds the expansion of a word to fields. -/
def addWord (capture : Capture) (f : Fields) (m : Machine) (w : Word) : Fields × Machine :=
  w.foldl (fun (f, m) p => addPart capture f m p) (f, m)

/-- The fields of words. -/
def fields (capture : Capture) (m : Machine) (ws : List Word) : List String × Machine :=
  let (f, m) := ws.foldl (fun (f, m) w =>
    let (f, m) := addWord capture f m w
    (f.close, m)) (Fields.none, m)
  (f.toList, m)

/-- A part that is not split. -/
def whole : Part → Part
  | .text _ s => .text true s
  | .parameter _ name form => .parameter true name form
  | .length _ name => .length true name
  | .arithmetic _ e => .arithmetic true e
  | .output _ script => .output true script

/-- The text of a word that is not split. -/
def text (capture : Capture) (m : Machine) (w : Word) : String × Machine :=
  let (f, m) := addWord capture Fields.none m (w.map whole)
  (String.intercalate " " f.toList, m)

/-- The characters of the expansion of a word. -/
def marked (capture : Capture) (m : Machine) (w : Word) : List Pattern.Marked × Machine :=
  w.foldl (fun (cs, m) part =>
    let quoted := match part with
      | .text q _ | .parameter q _ _ | .length q _ | .arithmetic q _ | .output q _ => q
    let (s, m) := m.text capture [part]
    (cs ++ Pattern.mark quoted s, m)) ([], m)

/-- Whether one of some patterns matches a text. -/
def selects (capture : Capture) (s : String) : List Word → Machine → Bool × Machine
  | [], m => (false, m)
  | w :: rest, m =>
      let (cs, m) := m.marked capture w
      if (Pattern.ofChars cs).matchesText s then (true, m) else selects capture s rest m

end Machine

end JobSupervisor.Host.Shell
