import JobSupervisor.Config.Schema
import JobSupervisor.Json.Value
import JobSupervisor.Log.Event

/-!
# Log lines

An event is shown on one line, either as a JSON value or as a text for readers.  Both show
the spans, outermost first, the part of the program and the fields; neither shows a time.

## Main definitions

* `Entry.line` — the line of an event in a layout.
-/

namespace JobSupervisor.Log

/-- The fields that hold numbers. -/
def numericFields : List String :=
  ["elapsed_ms", "budget_ms", "interval_secs", "budget_secs", "listeners", "degraded", "jobs"]

/-- The fields that hold truth values. -/
def booleanFields : List String := ["lock_enabled"]

/-- The value of a field. -/
def fieldJson (name text : String) : Json :=
  if numericFields.contains name then .number text
  else if booleanFields.contains name then .bool (text = "true")
  else .string text

/-- The members for some fields. -/
def members (fields : List (String × String)) : List (String × Json) :=
  fields.map fun f => (f.1, fieldJson f.1 f.2)

/-- A span as JSON. -/
def Span.json (s : Span) : Json := .object (members s.fields ++ [("name", .string s.name)])

/-- The fields as a text for readers. -/
def assignments (fields : List (String × String)) : String :=
  String.intercalate " " (fields.map fun f => f.1 ++ "=" ++ f.2)

/-- A span as a text for readers. -/
def Span.text (s : Span) : String := s.name ++ "\x7b" ++ assignments s.fields ++ "\x7d"

namespace Entry

/-- The line of an event as JSON. -/
def json (e : Entry) : Json :=
  let fields := ("message", Json.string e.event.message) :: members e.event.fields
  let spans := match e.spans.getLast? with
    | some s => [("span", s.json), ("spans", Json.array (e.spans.map Span.json))]
    | none => []
  .object ([("level", .string e.event.level.word), ("fields", .object fields),
    ("target", .string e.event.target)] ++ spans)

/-- The line of an event for readers. -/
def text (e : Entry) : String :=
  let spans := if e.spans.isEmpty then ""
    else String.intercalate ":" (e.spans.map Span.text) ++ ": "
  let fields := if e.event.fields.isEmpty then "" else " " ++ assignments e.event.fields
  e.event.level.word ++ " " ++ spans ++ e.event.target ++ ": " ++ e.event.message ++ fields

/-- The line of an event in a layout. -/
def line (e : Entry) : Config.LogFormat → String
  | .json => e.json.compact
  | .pretty => e.text

end Entry

end JobSupervisor.Log
