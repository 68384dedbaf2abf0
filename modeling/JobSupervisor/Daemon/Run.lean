import JobSupervisor.Daemon.Surroundings
import JobSupervisor.Host.Listener
import JobSupervisor.Log.Filter
import JobSupervisor.Log.Line
import JobSupervisor.Session.Play

/-!
# A run of the daemon

The daemon loads its configuration, logs that it has started, installs the exporter of
metrics if it is wanted, registers the enabled jobs, starts their loops, and serves the
health endpoint if it is enabled.  Then it runs until a stop signal comes, which triggers
the shutdown; it waits for the loops and for the endpoint and ends.

Nothing reaches the endpoint over the network.

## Main definitions

* `Daemon.start` — everything up to the serving of the endpoint.
* `Daemon.stop` — everything after the stop signal.
* `Daemon.run?` — a whole run under somebody's watch.
-/

namespace JobSupervisor.Daemon

open Session (emit)

/-- The version that the daemon logs. -/
def version : String := "0.1.0"

/-- The lock of a configuration. -/
def policyOf (c : Configuration) : LockPolicy := if c.lock.enabled then .table else .unlocked

/-- The scheduler of a configuration, without jobs. -/
def schedulerOf (c : Configuration) : Scheduler Session.Work :=
  ⟨policyOf c, .ofSecs c.lock.leaseSecs, []⟩

/-- Listens at an address, if it is one. -/
def listen (address : String) : Except Host.IoError Unit :=
  match Net.SocketAddress.parse? address with
  | some a => Host.Listener.bind a
  | none => .error (.described "invalid socket address")

/-- Installs the exporter of metrics at an address. -/
def installExporter (address : String) (x : Session) : Session :=
  match Net.SocketAddress.parse? address with
  | none => x.emit (.metricsAddressUnreadable address "invalid socket address syntax")
  | some a =>
      match Host.Listener.bind a with
      | .ok () => x.emit (.exporterListening a.text)
      | .error e =>
          x.emit (.exporterFailed a.text ("failed to create HTTP listener: " ++ e.message))

/-- Registers a job. -/
def registerJob (x : Session) (j : ScheduledJob Session.Work) : Except JobError Session :=
  match x.scheduler.register j x.supervisor with
  | .ok (scheduler, s) => .ok { x.withSupervisor s with scheduler := scheduler }
  | .error e => .error e

/-- Registers the jobs of a configuration one after the other. -/
def registerAll (js : List Config.JobEntry) (x : Session) : Except JobError Session :=
  (js.map Session.configuredJob).foldlM registerJob x

/-- The daemon with its jobs registered. -/
def prepare (c : Configuration) : Except JobError Session :=
  let x := { Session.initial with scheduler := schedulerOf c }
  let x := x.emit (.daemonStarting version)
  let x := x.emit (.configurationLoaded c.jobs.length c.health.bindAddress c.lock.enabled)
  let x := if c.observability.metricsEnabled then
      installExporter c.observability.metricsAddress x
    else x
  registerAll (c.jobs.filter (·.enabled)) x

/-- Serves the endpoint with a listener of its own. -/
def serve (address : String) (x : Session) : Session :=
  ((x.askShutdown 0 Shutdown.subscribe).2).emit (.endpointListening address)

/-- What is printed about an error that ends the daemon. -/
def complaint (detail : String) : String := "Error: " ++ detail

/-- Starts the daemon.  On a failure the log so far comes with what is printed. -/
def start (c : Configuration) : Except (String × Session) Session :=
  match prepare c with
  | .error e => .error (complaint e.message, Session.initial)
  | .ok x =>
      let (_, x) := x.startLoops 0
      if c.health.enabled then
        match listen c.health.bindAddress with
        | .ok () => .ok (serve c.health.bindAddress x)
        | .error e => .error (complaint e.detail, x)
      else .ok x

/-- The loops that ended abnormally. -/
def lostLoops (x : Session) : List Session.RunningLoop :=
  x.loops.filter fun l => l.loop.phase = .panicked

/-- What is logged about a loop that ended abnormally. -/
def lossText : String := "task panicked with message " ++ Text.quoted Session.overflowText

/-- Stops the daemon. -/
def stop (c : Configuration) (signal : Log.StopSignal) (x : Session) : Session :=
  let (_, x) := x.receiveSignal signal 0
  let x := (lostLoops x).foldl (fun x _ => x.emit (.loopLost lossText)) x
  let x := if c.health.enabled then x.emit .endpointStopped else x
  x.emit .shutdownComplete

/-- The filter of a configuration. -/
def filterOf (c : Configuration) (outside : Option String) : Log.Filter :=
  .configured c.observability.logLevel outside

/-- What has been logged and passes a filter. -/
def shownBy (f : Log.Filter) (x : Session) : List Log.Entry :=
  x.supervisor.journal.toList.filter f.admits

/-- Whether a text occurs within another one. -/
def occursIn (part text : String) : Bool :=
  part.isEmpty || (text.splitOn part).length ≠ 1

/-- What is seen of a daemon: the log as far as it passes a filter, in a layout. -/
structure Sight where
  filter : Log.Filter
  format : Config.LogFormat

/-- The number of lines that contain a text; a loop that ends abnormally prints one. -/
def linesWith (text : String) (v : Sight) (x : Session) : Nat :=
  ((shownBy v.filter x).filter fun e => occursIn text (e.line v.format)).length +
    if occursIn text Session.overflowText then (lostLoops x).length else 0

/-- Whether everything awaited has come. -/
def isMet (awaited : List (String × Nat)) (v : Sight) (x : Session) : Bool :=
  awaited.all fun (text, count) => count ≤ linesWith text v x

/-- For how long lines are awaited. -/
def patience : Duration := .ofSecs 5

/-- Lets the daemon run until everything awaited has come.  Jobs without an initial delay
have begun their first run by then. -/
def attend (awaited : List (String × Nat)) (v : Sight) (x : Session) : Session :=
  (x.pass ⟨0⟩).passTo (isMet awaited v) (x.now.after patience)

/-- What came of a run: the exit code, the lines of the error output if the daemon failed,
the log as far as it passed the filter, and its layout. -/
structure Ending where
  exit : Nat
  errors : List String
  entries : List Log.Entry
  format : Option Config.LogFormat
  printed : Bool

namespace Ending

/-- The end before anything was done. -/
def early (exit : Nat) (errors : List String) (printed : Bool) : Ending :=
  ⟨exit, errors, [], none, printed⟩

end Ending

/-- Whether the endpoint was seen to listen. -/
def isListening (es : List Log.Entry) : Bool :=
  es.any fun e => match e.event with
    | .endpointListening _ => true
    | _ => false

/-- Runs a configuration under somebody's watch, whose visits must not be answerable. -/
def runWith? (c : Configuration) (outside : Option String) (w : Watch) : Option Ending :=
  let f := filterOf c outside
  let format := c.observability.logFormat
  match start c with
  | .error (text, x) =>
      let complaints := Log.Filter.complaints c.observability.logLevel outside
      some ⟨1, complaints ++ [text], shownBy f x, some format, false⟩
  | .ok x =>
      let x := attend w.awaited ⟨f, format⟩ x
      if isListening (shownBy f x) && !w.visits.isEmpty then none
      else
        let shown := shownBy f (stop c w.signal x)
        some ⟨0, [], shown, some format, !shown.isEmpty⟩

/-- A whole run, which has no end if a visit had to be made. -/
def run? (s : Surroundings) (w : Watch) : Option Ending :=
  match s.order? with
  | none => some (.early 2 [] false)
  | some .help => some (.early 0 [] true)
  | some (.run path) =>
      match s.configuration path with
      | .error e => some (.early 1 [complaint e.detail] false)
      | .ok c => runWith? c s.filter w

end JobSupervisor.Daemon
