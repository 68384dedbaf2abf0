import JobSupervisor.Text.Quoted
import JobSupervisor.Time

/-!
# Log events

An event says what happened, with the data that belong to it.  Its level, its message and
the texts of its fields are functions of the event, so every wording is written once.
Events are recorded together with the spans that are open on the recording thread,
outermost first.

## Main definitions

* `Event` — everything the supervisor logs.
* `Event.level`, `Event.message`, `Event.fields`, `Event.target` — how an event is shown.
* `Span` — a run or a request in progress; `Entry` — an event within its spans.
-/

namespace JobSupervisor.Log

/-- The severities of events, the most severe one first. -/
inductive Level where
  | error
  | warn
  | info
  | debug
  | trace
  deriving DecidableEq, Repr

/-- The name of a severity in log lines. -/
def Level.word : Level → String
  | .error => "ERROR"
  | .warn => "WARN"
  | .info => "INFO"
  | .debug => "DEBUG"
  | .trace => "TRACE"

/-- How a run ended, as events and metrics tell it. -/
inductive Outcome where
  | success
  | failure
  | overrun
  deriving DecidableEq, Repr

/-- The name of an outcome. -/
def Outcome.word : Outcome → String
  | .success => "success"
  | .failure => "failure"
  | .overrun => "overrun"

/-- The signals that stop the daemon. -/
inductive StopSignal where
  | interrupt
  | terminate
  deriving DecidableEq, Repr

/-- Everything that is logged. -/
inductive Event where
  | recordRegistered (job : String)
  | runStarted
  | runFailed (job correlation error : String) (diagnostics : List (String × String))
  | runOverran (job correlation : String) (elapsed budget : Duration)
  | runFinished (elapsed : Duration) (outcome : Outcome)
  | commandRunning (program : String) (args : List String)
  | leaseTakenOver (job : String)
  | runSkipped (job : String)
  | taskAborted (job error : String)
  | jobRegistered (job : String) (interval budget : Duration)
  | loopStopping (job : String)
  | loopLost (error : String)
  | shutdownBroadcast (listeners : Nat)
  | signalReceived (s : StopSignal)
  | shutdownRequested
  | healthRestricted (degraded : Nat) (diagnostics : List (String × String))
  | unknownJobRequested (job : String) (diagnostics : List (String × String))
  | endpointListening (address : String)
  | endpointStopped
  | subscriberPresent
  | exporterListening (address : String)
  | exporterFailed (address error : String)
  | daemonStarting (version : String)
  | configurationLoaded (jobs : Nat) (healthBind : String) (lockEnabled : Bool)
  | metricsAddressUnreadable (address error : String)
  | shutdownComplete
  deriving DecidableEq, Repr

namespace Event

/-- The severity of an event. -/
def level : Event → Level
  | .runFailed .. | .taskAborted .. | .exporterFailed .. | .metricsAddressUnreadable .. =>
      .error
  | .runOverran .. | .leaseTakenOver .. | .loopLost .. => .warn
  | .jobRegistered .. | .loopStopping .. | .signalReceived .. | .shutdownRequested
  | .endpointListening .. | .endpointStopped | .exporterListening ..
  | .daemonStarting .. | .configurationLoaded .. | .shutdownComplete => .info
  | .recordRegistered .. | .runStarted | .runFinished .. | .commandRunning ..
  | .runSkipped .. | .shutdownBroadcast .. | .healthRestricted ..
  | .unknownJobRequested .. | .subscriberPresent => .debug

/-- The message of an event. -/
def message : Event → String
  | .recordRegistered .. => "Registering health record"
  | .runStarted => "Job run started"
  | .runFailed .. => "Job run failed"
  | .runOverran .. => "Job exceeded its maximum execution time"
  | .runFinished .. => "Job run finished"
  | .commandRunning .. => "Running job command"
  | .leaseTakenOver .. => "Taking over expired job lease"
  | .runSkipped .. => "Job lock held, skipping run"
  | .taskAborted .. => "Job task did not complete"
  | .jobRegistered .. => "Job registered"
  | .loopStopping .. => "Trigger loop received shutdown signal, exiting"
  | .loopLost .. => "Trigger loop ended abnormally"
  | .shutdownBroadcast .. => "Broadcasting shutdown"
  | .signalReceived .interrupt => "Received Ctrl+C"
  | .signalReceived .terminate => "Received SIGTERM"
  | .shutdownRequested => "Shutdown signal received"
  | .healthRestricted .. => "Reporting restricted health"
  | .unknownJobRequested .. => "Unknown job requested"
  | .endpointListening .. => "Health endpoint listening"
  | .endpointStopped => "Health endpoint stopped"
  | .subscriberPresent => "Global subscriber already installed"
  | .exporterListening .. => "Metrics exporter listening"
  | .exporterFailed .. => "Failed to install metrics exporter"
  | .daemonStarting .. => "job-sentinel starting"
  | .configurationLoaded .. => "Configuration loaded"
  | .metricsAddressUnreadable .. => "Failed to parse metrics address"
  | .shutdownComplete => "Shutdown complete"

/-- The diagnostics of a thread as a field value. -/
def diagnosticsText (entries : List (String × String)) : String :=
  Text.listed (entries.map Text.quotedPair)

/-- The fields of an event and their texts. -/
def fields : Event → List (String × String)
  | .recordRegistered job | .leaseTakenOver job | .runSkipped job | .loopStopping job =>
      [("job", job)]
  | .runFailed job correlation error diagnostics =>
      [("job", job), ("correlation_id", correlation), ("error", error),
        ("diagnostics", diagnosticsText diagnostics)]
  | .runOverran job correlation elapsed budget =>
      [("job", job), ("correlation_id", correlation),
        ("elapsed_ms", toString elapsed.millisWord), ("budget_ms", toString budget.millisWord)]
  | .runFinished elapsed outcome =>
      [("elapsed_ms", toString elapsed.millisWord), ("outcome", outcome.word)]
  | .commandRunning program args =>
      [("program", program), ("args", Text.listed (args.map Text.quoted))]
  | .taskAborted job error => [("job", job), ("error", error)]
  | .jobRegistered job interval budget =>
      [("job", job), ("interval_secs", interval.secondsText),
        ("budget_secs", budget.secondsText)]
  | .loopLost error => [("error", error)]
  | .shutdownBroadcast listeners => [("listeners", toString listeners)]
  | .healthRestricted degraded diagnostics =>
      [("degraded", toString degraded), ("diagnostics", diagnosticsText diagnostics)]
  | .unknownJobRequested job diagnostics =>
      [("job", job), ("diagnostics", diagnosticsText diagnostics)]
  | .endpointListening address | .exporterListening address => [("address", address)]
  | .exporterFailed address error => [("address", address), ("error", error)]
  | .daemonStarting version => [("version", version)]
  | .configurationLoaded jobs healthBind lockEnabled =>
      [("jobs", toString jobs), ("health_bind", healthBind),
        ("lock_enabled", if lockEnabled then "true" else "false")]
  | .metricsAddressUnreadable address error =>
      [("metrics_address", address), ("error", error)]
  | .runStarted | .signalReceived .. | .shutdownRequested | .endpointStopped
  | .subscriberPresent | .shutdownComplete => []

/-- The part of the program that an event comes from, to which filters refer. -/
def target : Event → String
  | .recordRegistered .. => "job_sentinel::health::registry"
  | .runStarted | .runFailed .. | .runOverran .. | .runFinished .. =>
      "job_sentinel::jobs::executor"
  | .commandRunning .. => "job_sentinel::jobs::command"
  | .leaseTakenOver .. => "job_sentinel::jobs::lock"
  | .runSkipped .. | .taskAborted .. | .jobRegistered .. | .loopStopping .. =>
      "job_sentinel::jobs::trigger"
  | .shutdownBroadcast .. => "job_sentinel::lifecycle::shutdown"
  | .signalReceived .. | .shutdownRequested => "job_sentinel::lifecycle::signals"
  | .healthRestricted .. | .unknownJobRequested .. | .endpointListening ..
  | .endpointStopped => "job_sentinel::http::server"
  | .subscriberPresent => "job_sentinel::observability::logging"
  | .exporterListening .. | .exporterFailed .. => "job_sentinel::observability::metrics"
  | .loopLost .. | .daemonStarting .. | .configurationLoaded ..
  | .metricsAddressUnreadable .. | .shutdownComplete => "job_sentinel"

end Event

/-- A piece of work in progress on a thread. -/
inductive Span where
  | run (job correlation : String)
  | request (method path correlation : String)
  deriving DecidableEq, Repr

namespace Span

/-- The name of a span. -/
def name : Span → String
  | .run .. => "job_run"
  | .request .. => "http_request"

/-- The fields of a span. -/
def fields : Span → List (String × String)
  | .run job correlation => [("job", job), ("correlation_id", correlation)]
  | .request method path correlation =>
      [("method", method), ("path", path), ("correlation_id", correlation)]

end Span

/-- An event with the spans that were open when it was logged, outermost first. -/
structure Entry where
  event : Event
  spans : List Span
  deriving DecidableEq, Repr

end JobSupervisor.Log
