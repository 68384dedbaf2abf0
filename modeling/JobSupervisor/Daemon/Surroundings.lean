import JobSupervisor.Arguments
import JobSupervisor.Config.Load
import JobSupervisor.Log.Event

/-!
# What the daemon finds around it

The daemon is given arguments, two variables of the environment, and files to read.  The
path of its configuration is the value of an option, or of a variable if the option is not
given; without a path the configuration is the default one.

## Main definitions

* `Surroundings` — what the daemon is given.
* `Surroundings.order?` — what it is asked to do.
* `Surroundings.configuration` — its configuration.
-/

namespace JobSupervisor.Daemon

open Arguments

/-- What the daemon is given. -/
structure Surroundings where
  arguments : List String
  /-- The variable that names the configuration. -/
  path : Option String
  /-- The variable that holds a log filter. -/
  filter : Option String
  read : String → Except Host.IoError (List UInt8)

/-- What the daemon is asked to do. -/
inductive Order where
  | help
  | run (path : Option String)
  deriving DecidableEq, Repr

namespace Surroundings

/-- The option for the path of the configuration. -/
def pathOption : ValuedOption := ⟨"--config", "-c", false⟩

/-- What the daemon is asked to do, if its arguments can be understood. -/
def order? (s : Surroundings) : Option Order :=
  match Leading.parse? pathOption s.arguments with
  | none => none
  | some .help => some .help
  | some (.options given operands) =>
      match operands? 0 operands with
      | none => none
      | some none => some .help
      | some (some _) =>
          let path := given.or s.path
          if path = some "" then none else some (.run path)

/-- The configuration of a path. -/
def configuration (s : Surroundings) : Option String → Except Config.LoadError Configuration
  | some path => Configuration.ofFile (s.read path)
  | none => .ok .default

end Surroundings

/-- What somebody does who watches the daemon: waits for lines that contain certain texts,
asks the endpoint for some paths, and sends a signal. -/
structure Watch where
  awaited : List (String × Nat)
  visits : List String
  signal : Log.StopSignal
  deriving DecidableEq, Repr

end JobSupervisor.Daemon
