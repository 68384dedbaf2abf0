import JobSupervisor.Config.Decode
import JobSupervisor.Config.Validation
import JobSupervisor.Host.Error
import JobSupervisor.Text.Utf8
import JobSupervisor.Toml.Text

/-!
# Loading a configuration

A text is loaded in three stages: it is parsed, the document is read section by section,
and the rules are checked.  The first stage that fails decides the error.  Before a file
is loaded, its bytes have to be readable and have to be UTF-8.

## Main definitions

* `LoadError` — the stage that failed, with the texts of its errors.
* `Configuration.ofText` — the configuration of a text.
* `Configuration.ofFile` — the configuration of what reading a file gave.
-/

namespace JobSupervisor.Config

/-- Why there is no configuration. -/
inductive LoadError where
  | unreadable (e : Host.IoError)
  /-- The text is no document. -/
  | malformed
  /-- The document has a value that does not fit. -/
  | undecodable (e : DecodeError)
  /-- Some rules are broken. -/
  | invalid (vs : List Violation)
  deriving Repr

namespace LoadError

/-- The text of an error.  A malformed text has no text of its own. -/
def message? : LoadError → Option String
  | .unreadable e => some ("IO error: " ++ e.message)
  | .malformed => none
  | .undecodable e => e.message?
  | .invalid vs =>
      some ("Validation failed: " ++ String.intercalate ", " (vs.map Violation.message))

/-- The error with its parts, as the daemon prints it. -/
def detail : LoadError → String
  | .unreadable e => "Io(" ++ e.detail ++ ")"
  | .malformed | .undecodable _ => "Parse"
  | .invalid vs => "Validation(" ++ Text.listed (vs.map Violation.detail) ++ ")"

end LoadError

end JobSupervisor.Config

namespace JobSupervisor.Configuration

open Config

/-- The document of a text, read but not checked. -/
def read (text : String) : Except LoadError Configuration :=
  match Toml.parse? text with
  | none => .error .malformed
  | some document =>
      match ofDocument document with
      | .error e => .error (.undecodable e)
      | .ok c => .ok c

/-- The configuration of a text. -/
def ofText (text : String) : Except LoadError Configuration :=
  match read text with
  | .error e => .error e
  | .ok c => if c.violations.isEmpty then .ok c else .error (.invalid c.violations)

/-- The error of bytes that are no text. -/
def notText : Host.IoError := .described "stream did not contain valid UTF-8"

/-- The configuration of what reading a file gave. -/
def ofFile : Except Host.IoError (List UInt8) → Except LoadError Configuration
  | .error e => .error (.unreadable e)
  | .ok bytes =>
      match Text.Utf8.decode? bytes with
      | none => .error (.unreadable notText)
      | some text => ofText text

/-- A text that is accepted breaks no rule. -/
theorem violations_of_ofText {text : String} {c : Configuration} (h : ofText text = .ok c) :
    c.violations = [] := by
  unfold ofText at h
  split at h
  · cases h
  · split at h
    · rename_i hv
      cases h
      simpa using hv
    · cases h

end JobSupervisor.Configuration
