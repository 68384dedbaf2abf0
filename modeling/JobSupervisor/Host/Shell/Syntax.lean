/-!
# Shell commands

The commands of the shell language, as far as job commands use them: simple commands with
assignments and redirections, pipelines, lists, conditionals, selections, loops and
functions.  A word is kept in parts, because quoting decides whether a part is split into
fields later.

## Main definitions

* `Form`, `Part`, `Word` — words before expansion.
* `Redirection` — where a descriptor leads.
* `Command` — the commands.
-/

namespace JobSupervisor.Host.Shell

/-- What becomes of the value of a parameter.  The flag tells whether an empty value counts
as none. -/
inductive Form where
  | plain
  /-- A text stands for a missing value. -/
  | fallback (ifEmpty : Bool) (text : String)
  /-- A text becomes the value if there is none. -/
  | assigned (ifEmpty : Bool) (text : String)
  /-- A text stands for a value that is there. -/
  | alternative (ifEmpty : Bool) (text : String)
  /-- A missing value ends the shell with a text. -/
  | required (ifEmpty : Bool) (text : String)
  /-- Without what a pattern matches at the start. -/
  | withoutStart (longest : Bool) (pattern : String)
  /-- Without what a pattern matches at the end. -/
  | withoutEnd (longest : Bool) (pattern : String)
  /-- Something that no form has. -/
  | senseless
  deriving DecidableEq, Repr

/-- A part of a word; the flag tells whether it is quoted. -/
inductive Part where
  | text (quoted : Bool) (s : String)
  | parameter (quoted : Bool) (name : String) (form : Form)
  | length (quoted : Bool) (name : String)
  | arithmetic (quoted : Bool) (expression : String)
  | output (quoted : Bool) (script : String)
  deriving DecidableEq, Repr

/-- A word before expansion. -/
abbrev Word := List Part

/-- Where a redirection leads. -/
inductive Target where
  | descriptor (w : Word)
  | file (w : Word)
  deriving DecidableEq, Repr

/-- A redirection of a descriptor. -/
structure Redirection where
  descriptor : Nat
  reading : Bool
  target : Target
  deriving DecidableEq, Repr

/-- The commands. -/
inductive Command where
  | simple (assignments : List (String × Word)) (words : List Word)
      (redirections : List Redirection)
  | negation (c : Command)
  | pipe (a b : Command)
  | both (a b : Command)
  | either (a b : Command)
  | sequence (a b : Command)
  | conditional (test yes no : Command)
  /-- The first of two commands if a word matches one of some patterns. -/
  | select (subject : Word) (patterns : List Word) (yes no : Command)
  | loop (expected : Bool) (test body : Command)
  | each (name : String) (words : List Word) (body : Command)
  | subshell (c : Command)
  | redirected (c : Command) (redirections : List Redirection)
  | define (name : String) (body : Command)
  deriving Repr

/-- The command that does nothing. -/
def Command.nothing : Command := .simple [] [] []

end JobSupervisor.Host.Shell
