import JobSupervisor.Arguments

/-!
# The orders of the client

The client takes the base address of a supervisor as an option in front of a query, which
is a word of its own.  The name of a job follows the word.

## Main definitions

* `Query`, `Order` — what the client is asked to do.
* `Order.parse?` — reads the arguments.
-/

namespace JobSupervisor.Client

open Arguments

/-- What can be asked of a supervisor. -/
inductive Query where
  | status
  | job (name : String)
  | jobs
  deriving DecidableEq, Repr

/-- The path that answers a query. -/
def Query.path : Query → String
  | .status => "/health"
  | .job name => "/health/jobs/" ++ name
  | .jobs => "/jobs"

/-- What the client is asked to do. -/
inductive Order where
  | help
  | ask (base : String) (q : Query)
  deriving DecidableEq, Repr

namespace Order

/-- The option for the base address. -/
def baseOption : ValuedOption := ⟨"--url", "-u", true⟩

/-- The base address that is used if none is given. -/
def defaultBase : String := "http://localhost:8080"

/-- The words that may begin the operands. -/
def words : List String := ["status", "job", "jobs", "help"]

/-- The order that a word and the arguments after it stand for. -/
def ofWord? (base word : String) (rest : List String) : Option Order :=
  match word with
  | "status" => (operands? 0 rest).map fun found => found.elim .help fun _ => .ask base .status
  | "jobs" => (operands? 0 rest).map fun found => found.elim .help fun _ => .ask base .jobs
  | "job" =>
      match operands? 1 rest with
      | some none => some .help
      | some (some [name]) => some (.ask base (.job name))
      | _ => none
  | "help" =>
      match rest with
      | [] => some .help
      | [word] => if words.contains word then some .help else none
      | _ => none
  | _ => none

/-- Reads the arguments. -/
def parse? (args : List String) : Option Order :=
  match Leading.parse? baseOption args with
  | some .help => some .help
  | some (.options base (word :: rest)) => ofWord? (base.getD defaultBase) word rest
  | _ => none

end Order

end JobSupervisor.Client
