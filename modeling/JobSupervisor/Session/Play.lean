import JobSupervisor.Session.Timeline

/-!
# Playing a session

A session is played step by step.  After each step the loops that it woke react, and what
they log belongs to the step.  A session in which something was done that cannot be done
has no answer at all.

The endpoint of a session can listen, but nothing reaches it over the network.

## Main definitions

* `Session.performStep` — one step.
* `Session.play?` — a whole session.
-/

namespace JobSupervisor.Session

/-- What is said about an exporter that is installed after another one. -/
def exporterPresentText : String :=
  "failed to install exporter as global recorder: attempted to set a recorder after the " ++
    "metrics system was already initialized"

/-- The network of a session. -/
def network : Client.Network := .isolated

/-- The address of an endpoint of a session. -/
def endpointAddress : String := "127.0.0.1:8080"

/-- Logs an event. -/
def emit (e : Log.Event) (x : Session) : Session := x.modify (·.emit e)

/-- Receives a stop signal; the answer is seen after the loops have reacted. -/
def receiveSignal (s : Log.StopSignal) (i : Nat) (x : Session) : Reply × Session :=
  let before := (x.shutdownAt i).triggered
  let x := (x.emit (.signalReceived s)).emit .shutdownRequested
  let x := react (x.triggerShutdown i)
  (.signalled before (x.shutdownAt i).triggered (x.shutdownAt i).receivers, x)

/-- Serves the endpoint to nobody until the shutdown, which is triggered. -/
def serveNobody (i : Nat) (x : Session) : Reply × Session :=
  let (id, x) := x.askShutdown i Shutdown.subscribe
  let x := (x.emit (.endpointListening endpointAddress)).triggerShutdown i
  let (_, x) := x.askShutdown i fun sd => ((), sd.dropListener id)
  let x := react (x.emit .endpointStopped)
  (.served (x.shutdownAt i).receivers, x)

/-- Runs the client against an endpoint of its own. -/
def runClient (args : List String) (x : Session) : Reply × Session :=
  let x := x.emit (.endpointListening endpointAddress)
  let (outcome, x) := x.ask (Client.run network args)
  (.client outcome, x.emit .endpointStopped)

/-- The plan of a scheduled job. -/
def planOfScheduled (j : ScheduledJob Work) : JobPlan :=
  ⟨j.descriptor, j.interval, j.initialDelay⟩

/-- Registers a job. -/
def register (job : ScheduledJob Work) (x : Session) : Reply × Session :=
  match x.scheduler.register job x.supervisor with
  | .ok (scheduler, s) =>
      let x := { x.withSupervisor s with scheduler := scheduler }
      (.registered scheduler.jobs.length x.supervisor.registry.names, x)
  | .error e => (.refused e, x)

/-- Fires a job by hand. -/
def runOnce (name : String) (x : Session) : Reply × Session :=
  let x := { x with bodies := [] }
  let (answer, x) :=
    x.scheduler.runOnce Session.supervisor withSupervisor name (work name) x
  let shown := match answer with
    | .ok fired => RunAnswer.fired fired
    | .error e => .failed e
  (.fired shown x.bodies.reverse (x.viewOfName name) (x.supervisor.isHeld name), x)

/-- Begins to fire a job by hand. -/
def beginFire (name : String) (x : Session) :
    (RunAnswer × Option (ScheduledJob Work × Lease)) × Session :=
  match x.scheduler.find? name with
  | none => ((.failed (.unknownJob name), none), x)
  | some job =>
      let (answer, x) := x.ask (Fire.request x.scheduler.policy x.scheduler.lease name)
      match answer with
      | .overflow => ((.fired .overflow, none), x)
      | .skipped => ((.fired .skipped, none), x)
      | .started lease => ((.fired .ran, some (job, lease)), x)

/-- Runs a job that was begun to be fired. -/
def completeFire (begun : Option (ScheduledJob Work × Lease)) (x : Session) : Session :=
  match begun with
  | some (job, lease) =>
      let body := work job.descriptor.name
      Fire.complete Session.supervisor withSupervisor job lease body x
  | none => x

/-- Fires two jobs by hand at once: both ask for their leases before either runs. -/
def runPair (a b : String) (x : Session) : Reply × Session :=
  let ((first, begunFirst), x) := x.beginFire a
  let ((second, begunSecond), x) := x.beginFire b
  (.firedPair first second, (x.completeFire begunFirst).completeFire begunSecond)

/-- Performs a step. -/
def performStep (step : Step) (x : Session) : Reply × Session :=
  match step with
  | .act a => perform a x
  | .signal s =>
      match x.coordinator with
      | some i => x.receiveSignal s i
      | none => x.fault
  | .installExporter address =>
      (.nothing, x.emit (.exporterFailed address.text exporterPresentText))
  | .request r =>
      if r.isWellFormed then
        let (response, x) := x.ask (Supervisor.respond r)
        (.response response, x)
      else x.fault
  | .client args => x.runClient args
  | .serve paths =>
      match x.coordinator with
      | some i => if paths.isEmpty then x.serveNobody i else x.fault
      | none => x.fault
  | .newScheduler policy lease => (.nothing, { x with scheduler := ⟨policy, lease, []⟩ })
  | .register job => x.register job
  | .jobs => (.plans (x.scheduler.jobs.map planOfScheduled), x)
  | .schedulerText => (.text x.scheduler.text, x)
  | .runOnce name => x.runOnce name
  | .runPair a b => x.runPair a b
  | .start =>
      match x.coordinator with
      | some i =>
          let (n, x) := x.startLoops i
          (.count n, x)
      | none => x.fault
  | .runFor d =>
      let x := x.pass d
      (.calls x.calls, x)
  | .advance d =>
      let x := x.jump d
      (.calls x.calls, x)
  | .join =>
      let (states, x) := x.joinAll
      (.loops states x.calls, x)

/-- The answer of a step, and what was logged during it. -/
structure Scene where
  reply : Reply
  entries : Array Log.Entry

/-- Plays a step; the loops react to it. -/
def playStep (step : Step) (x : Session) : Scene × Session :=
  let logged := x.supervisor.journal.size
  let (reply, x) := performStep step x
  let x := react x
  (⟨reply, x.supervisor.journal.extract logged x.supervisor.journal.size⟩, x)

/-- Plays steps one after the other. -/
def playAll : List Step → Session → List Scene × Session
  | [], x => ([], x)
  | step :: rest, x =>
      let (scene, x) := playStep step x
      let (scenes, x) := playAll rest x
      (scene :: scenes, x)

/-- Plays a session, which has no answer if something was done that cannot be done. -/
def play? (steps : List Step) : Option (List Scene) :=
  let (scenes, x) := playAll steps initial
  if x.failed then none else some scenes

end JobSupervisor.Session
