import JobSupervisor.Log.Event
import JobSupervisor.Text.Blank

/-!
# Log filters

A filter is a list of directives that are separated by commas.  A directive sets a
threshold for the events of a target, or of a span, or of those that have a field; the
most specific directive for an event decides.  A directive that names a span, or a field
of one, admits every event inside such a span up to its threshold.

A target without a threshold, and an empty threshold, stand for the most verbose one.

## Main definitions

* `Threshold`, `Directive`, `Filter` — the parts of a filter.
* `Directive.parse?` — the directive of a text.
* `Filter.parse?`, `Filter.configured` — a filter that has to be valid as a whole, and one
  in which invalid directives are passed over.
* `Filter.admits` — whether a filter lets an event pass.
-/

namespace JobSupervisor.Log

/-- The rank of a severity; more verbose ones have higher ranks. -/
def Level.rank : Level → Nat
  | .error => 1
  | .warn => 2
  | .info => 3
  | .debug => 4
  | .trace => 5

/-- The most verbose severity that passes, if any does. -/
inductive Threshold where
  | off
  | upTo (l : Level)
  deriving DecidableEq, Repr

namespace Threshold

/-- The rank of the most verbose severity that passes. -/
def rank : Threshold → Nat
  | .off => 0
  | .upTo l => l.rank

/-- The thresholds in ascending order of their ranks, with their names. -/
def named : List (Threshold × String) := [
  (.off, "off"), (.upTo .error, "error"), (.upTo .warn, "warn"), (.upTo .info, "info"),
  (.upTo .debug, "debug"), (.upTo .trace, "trace")]

/-- The name of a threshold. -/
def word (t : Threshold) : String :=
  ((named.find? (·.1 = t)).map Prod.snd).getD ""

/-- Whether a severity passes. -/
def admits (t : Threshold) (l : Level) : Bool := l.rank ≤ t.rank

/-- The more verbose of two thresholds. -/
def max (a b : Threshold) : Threshold := if a.rank < b.rank then b else a

/-- The number of a text of digits, which a plus sign may precede. -/
def ordinal? (s : String) : Option Nat :=
  let ds := match s.toList with
    | '+' :: ds => ds
    | ds => ds
  if ds.isEmpty || !ds.all Char.isDigit then none
  else some (ds.foldl (fun n c => n * 10 + (c.toNat - '0'.toNat)) 0)

/-- A threshold by its number or by its name in upper or lower case. -/
def parse? (s : String) : Option Threshold :=
  match (ordinal? s).bind fun n => named[n]? with
  | some (t, _) => some t
  | none => (named.find? (·.2 = s.toLower)).map Prod.fst

end Threshold

/-- A field that a directive asks for, and perhaps its text. -/
structure FieldTest where
  name : String
  value : Option String
  deriving DecidableEq, Repr

/-- A threshold and what it applies to. -/
structure Directive where
  target : Option String
  span : Option String
  fields : List FieldTest
  threshold : Threshold
  deriving DecidableEq, Repr

/-- Why a text is no directive: its threshold is none, or something else is wrong. -/
inductive DirectiveError where
  | threshold
  | shape
  deriving DecidableEq, Repr

/-- The text of an error. -/
def DirectiveError.message : DirectiveError → String
  | .threshold =>
      "error parsing level filter: expected one of \"off\", \"error\", \"warn\", \"info\", " ++
        "\"debug\", \"trace\", or a number 0-5"
  | .shape => "invalid filter directive"

namespace Directive

/-- The directive that admits everything up to the most verbose severity. -/
def everything : Directive := ⟨none, none, [], .upTo .trace⟩

/-- A text between its first and last character that is not white space, and the text
itself.  Positions are counted within the former and cut from the latter, so that white
space at the front shifts the cuts. -/
structure Source where
  raw : List Char
  core : List Char

namespace Source

/-- A text as a source. -/
def ofText (s : String) : Source := ⟨s.toList, Text.trimChars s.toList⟩

/-- The text from one position up to another. -/
def cut (s : Source) (first last : Nat) : String :=
  String.ofList ((s.raw.drop first).take (last - first))

/-- The text from a position on. -/
def rest (s : Source) (first : Nat) : String := String.ofList (s.raw.drop first)

/-- The first of some characters from a position on, with its position. -/
def find? (s : Source) (wanted : List Char) (first : Nat) : Option (Nat × Char) :=
  let tail := s.core.drop first
  let n := (tail.takeWhile fun c => !wanted.contains c).length
  (tail[n]?).map fun c => (first + n, c)

end Source

/-- Sets the threshold from the text at a position. -/
def withThreshold (s : Source) (first : Nat) (d : Directive) :
    Except DirectiveError Directive :=
  let text := s.rest first
  if text.isEmpty then .ok d
  else match Threshold.parse? text with
    | some t => .ok { d with threshold := t }
    | none => .error .threshold

/-- What follows the closing bracket of a span: nothing, or a threshold. -/
def afterSpan (s : Source) (first : Nat) (d : Directive) : Except DirectiveError Directive :=
  match s.core[first]? with
  | none => .ok d
  | some c => if c = '=' then withThreshold s (first + 1) d else .error .shape

/-- A field test: a name, and perhaps a value after an equals sign. -/
def fieldTest (text : String) : FieldTest :=
  match text.splitOn "=" with
  | name :: value :: _ => ⟨name, some value⟩
  | _ => ⟨text, none⟩

/-- The part of a directive after the opening bracket of a span. -/
def inSpan (s : Source) (first : Nat) (d : Directive) : Except DirectiveError Directive :=
  match s.find? [']', '\x7b'] first with
  | none => .error .shape
  | some (q, c) =>
      let name := s.cut first q
      if c = ']' then afterSpan s (q + 1) { d with span := some name }
      else
        let d := { d with span := if name.isEmpty then none else some name }
        match s.find? ['\x7d'] (q + 1) with
        | none => .error .shape
        | some (r, _) =>
            let field := s.cut (q + 1) r
            if field.isEmpty then .error .shape
            else if s.core[r + 1]? = some ']' then
              afterSpan s (r + 2) { d with fields := [fieldTest field] }
            else .error .shape

/-- Whether a target may begin with a character. -/
def beginsTarget (c : Char) : Bool :=
  c = '-' || c = ':' || c = '_' || c.isAlphanum || (0x80 ≤ c.toNat && Text.hasShape c)

/-- The directive of a text. -/
def parse (text : String) : Except DirectiveError Directive :=
  let s := Source.ofText text
  match s.core with
  | [] => .error .shape
  | '[' :: _ => inSpan s 1 everything
  | c :: _ =>
      if !beginsTarget c then .error .shape
      else match s.find? ['=', '['] 1 with
        | none =>
            match Threshold.parse? text with
            | some t => .ok { everything with threshold := t }
            | none => .ok { everything with target := some text }
        | some (n, c) =>
            let d := { everything with target := some (s.cut 0 n) }
            if c = '=' then withThreshold s (n + 1) d else inSpan s (n + 1) d

/-- The text of a field test. -/
def fieldText (f : FieldTest) : String :=
  f.name ++ match f.value with
    | some v => "=" ++ v
    | none => ""

/-- The text of a directive. -/
def text (d : Directive) : String :=
  let fields := String.intercalate "," (d.fields.map fieldText)
  let inner := d.span.getD "" ++ (if d.fields.isEmpty then "" else "\x7b" ++ fields ++ "\x7d")
  let span := if d.span.isNone && d.fields.isEmpty then "" else "[" ++ inner ++ "]"
  let scope := d.target.getD "" ++ span
  let named := d.target.isSome || d.span.isSome || !d.fields.isEmpty
  scope ++ (if named then "=" else "") ++ d.threshold.word

/-- Whether a directive applies to events by themselves. -/
def isPlain (d : Directive) : Bool := d.span.isNone && d.fields.all (·.value.isNone)

/-- Whether a directive applies to what is inside spans. -/
def isScoped (d : Directive) : Bool := d.span.isSome || !d.fields.isEmpty

/-- Whether two directives apply to the same things. -/
def sameScope (a b : Directive) : Bool :=
  a.target = b.target && a.span = b.span && a.fields = b.fields

/-- Whether a directive applies to a target. -/
def coversTarget (d : Directive) (target : String) : Bool :=
  match d.target with
  | some t => t.toList.isPrefixOf target.toList
  | none => true

/-- How specific a directive is: by the length of its target first, and then by the number
of its fields. -/
def specificity (d : Directive) : Nat × Nat :=
  ((d.target.map fun t => t.utf8ByteSize + 1).getD 0, d.fields.length)

/-- Whether one directive is less specific than another. -/
def lessSpecific (a b : Directive) : Bool :=
  let (m, n) := a.specificity
  let (m', n') := b.specificity
  m < m' || (m = m' && n < n')

end Directive

/-- The directives for events by themselves and for what is inside spans, and the most
verbose threshold of all directives that were given. -/
structure Filter where
  plain : List Directive
  inside : List Directive
  ceiling : Threshold
  deriving DecidableEq, Repr

namespace Filter

/-- The filter that admits nothing. -/
def nothing : Filter := ⟨[], [], .off⟩

/-- Adds a directive, in the place of an earlier one for the same things. -/
def put (d : Directive) (ds : List Directive) : List Directive :=
  if ds.any d.sameScope then ds.map fun e => if d.sameScope e then d else e else ds ++ [d]

/-- Adds a directive to a filter. -/
def add (f : Filter) (d : Directive) : Filter :=
  { plain := if d.isPlain then put d f.plain else f.plain
    inside := if d.isScoped then put d f.inside else f.inside
    ceiling := f.ceiling.max d.threshold }

/-- The filter of some directives. -/
def ofDirectives (ds : List Directive) : Filter := ds.foldl add nothing

/-- The parts of a text between commas that are not empty. -/
def parts (text : String) : List String :=
  (text.splitOn ",").filter fun s => !s.isEmpty

/-- The filter of a text, if all its directives are valid. -/
def parse? (text : String) : Option Filter :=
  match (parts text).mapM Directive.parse with
  | .ok ds => some (ofDirectives ds)
  | .error _ => none

/-- The text that sets one level for the events of the program and of its requests. -/
def levelText (level : String) : String :=
  "job_sentinel=" ++ level ++ ",tower_http=" ++ level

/-- The parts of a text that are no directives, with the reasons. -/
def ignored (text : String) : List (String × DirectiveError) :=
  (parts text).filterMap fun s =>
    match Directive.parse s with
    | .ok _ => none
    | .error e => some (s, e)

/-- The filter of a text without its invalid directives; if none is left, errors pass. -/
def lenient (text : String) : Filter :=
  match (parts text).filterMap fun s => (Directive.parse s).toOption with
  | [] => ofDirectives [{ Directive.everything with threshold := .upTo .error }]
  | ds => ofDirectives ds

/-- The filter in effect: the one from outside if there is a valid one, and otherwise the
one of the configured level. -/
def configured (level : String) (outside : Option String) : Filter :=
  match outside.bind parse? with
  | some f => f
  | none => lenient (levelText level)

/-- What is reported about invalid directives when a filter is set up. -/
def complaints (level : String) (outside : Option String) : List String :=
  match outside.bind parse? with
  | some _ => []
  | none =>
      (ignored (levelText level)).map fun (s, e) => "ignoring `" ++ s ++ "`: " ++ e.message

/-- The texts of the directives. -/
def texts (f : Filter) : List String := (f.plain ++ f.inside).map Directive.text

/-- The most verbose threshold that can take effect; tests on the texts of fields are made
too late to rule anything out. -/
def maxLevel (f : Filter) : Threshold :=
  if f.inside.any fun d => d.fields.any (·.value.isSome) then .upTo .trace else f.ceiling

/-- The part of the program that opens a span. -/
def spanTarget : Span → String
  | .run .. => "job_sentinel::jobs::executor"
  | .request .. => "job_sentinel::http::server"

/-- Whether a field test holds among fields. -/
def holds (fields : List (String × String)) (t : FieldTest) : Bool :=
  fields.any fun (name, text) =>
    name = t.name && match t.value with
      | some v => text = v
      | none => true

/-- Whether a directive for what is inside spans applies inside one. -/
def appliesInside (d : Directive) (s : Span) : Bool :=
  d.coversTarget (spanTarget s) && (d.span.isNone || d.span = some s.name) &&
    d.fields.all (holds s.fields)

/-- Whether a directive for events by themselves applies to one. -/
def appliesTo (d : Directive) (e : Event) : Bool :=
  d.coversTarget e.target && d.fields.all (holds e.fields)

/-- The most specific of some directives. -/
def mostSpecific? (ds : List Directive) : Option Directive :=
  ds.foldl (fun best d =>
    match best with
    | some b => if b.lessSpecific d then some d else some b
    | none => some d) none

/-- Whether a filter lets an event pass. -/
def admits (f : Filter) (e : Entry) : Bool :=
  let level := e.event.level
  (f.inside.any fun d => d.threshold.admits level && e.spans.any (appliesInside d)) ||
    match mostSpecific? (f.plain.filter fun d => appliesTo d e.event) with
    | some d => d.threshold.admits level
    | none => false

end Filter

end JobSupervisor.Log
