import JobSupervisor.Job.Run

/-!
# The configuration

The configuration has four sections, and every field has a default, so the empty document
is a configuration.  The jobs are listed in the order in which they are registered.

## Main definitions

* `Configuration` and its sections `HealthEndpoint`, `JobEntry`, `LockSettings` and
  `Observability`.
* `JobEntry.descriptor`, `JobEntry.interval`, `JobEntry.initialDelay` — a job as the
  scheduler sees it.
-/

namespace JobSupervisor.Config

/-- Whether and where health is served. -/
structure HealthEndpoint where
  enabled : Bool
  bindAddress : String
  deriving DecidableEq, Repr

/-- By default health is served on port 8080 of every interface. -/
def HealthEndpoint.default : HealthEndpoint := ⟨true, "0.0.0.0:8080"⟩

/-- A scheduled job; a job without a command is a heartbeat. -/
structure JobEntry where
  name : String
  intervalSecs : Nat
  maxExecutionSecs : Nat
  initialDelaySecs : Nat
  enabled : Bool
  command : List String
  deriving DecidableEq, Repr

namespace JobEntry

/-- By default a job runs every minute from the start on and may take half a minute. -/
def default : JobEntry := ⟨"", 60, 30, 0, true, []⟩

/-- The name and the budget of a job. -/
def descriptor (j : JobEntry) : Descriptor := ⟨j.name, .ofSecs j.maxExecutionSecs⟩

/-- The time between two runs. -/
def interval (j : JobEntry) : Duration := .ofSecs j.intervalSecs

/-- The time before the first run. -/
def initialDelay (j : JobEntry) : Duration := .ofSecs j.initialDelaySecs

end JobEntry

/-- Whether overlapping runs of a job are prevented, and for how long a lease lasts. -/
structure LockSettings where
  enabled : Bool
  leaseSecs : Nat
  deriving DecidableEq, Repr

/-- By default runs do not overlap and a lease lasts ten minutes. -/
def LockSettings.default : LockSettings := ⟨true, 600⟩

/-- The layout of log lines. -/
inductive LogFormat where
  | pretty
  | json
  deriving DecidableEq, Repr

namespace LogFormat

/-- The name of a layout. -/
def word : LogFormat → String
  | .pretty => "pretty"
  | .json => "json"

/-- The layout of a name. -/
def ofWord? (s : String) : Option LogFormat :=
  if s = "pretty" then some .pretty else if s = "json" then some .json else none

theorem ofWord?_word (f : LogFormat) : ofWord? f.word = some f := by
  cases f <;> decide

end LogFormat

/-- What is logged and whether metrics are served. -/
structure Observability where
  logLevel : String
  logFormat : LogFormat
  metricsEnabled : Bool
  metricsAddress : String
  deriving DecidableEq, Repr

/-- By default the level is `info` and no metrics are served. -/
def Observability.default : Observability := ⟨"info", .pretty, false, "0.0.0.0:9090"⟩

end JobSupervisor.Config

namespace JobSupervisor

/-- A whole configuration. -/
structure Configuration where
  health : Config.HealthEndpoint
  jobs : List Config.JobEntry
  lock : Config.LockSettings
  observability : Config.Observability
  deriving DecidableEq, Repr

/-- The configuration of the empty document. -/
def Configuration.default : Configuration :=
  ⟨.default, [], .default, .default⟩

end JobSupervisor
