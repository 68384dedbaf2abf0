import JobSupervisor.Config.Schema
import JobSupervisor.Http.Message
import JobSupervisor.Job.Schedule
import JobSupervisor.Net.SocketAddress

/-!
# What is done in a session

An action is something that code on one thread can do: read and change records, open and
close correlation scopes, run a job, ask for a lease, use the shutdown.  The body of a run
and the work of a further thread are lists of actions themselves.  A step is an action or
something that only the outermost thread of a session can do, such as letting time pass.

Records, leases, scopes and listeners that are kept for later have names of their own,
called slots.

## Main definitions

* `Action`, `Step` — what is done.
* `BodyEnd` — how a scripted body ends.
* `Work` — the bodies of scheduled jobs.
-/

namespace JobSupervisor.Session

/-- A record by the name of its job, or by the slot in which it is kept. -/
inductive RecordRef where
  | named (name : String)
  | kept (slot : String)
  deriving DecidableEq, Repr

/-- How a scripted body ends.  The value of a success is kept as text. -/
inductive BodyEnd where
  | success (value : String)
  | message (text : String)
  | failure (e : JobError)
  | panic (text : Option String)
  deriving Repr

namespace BodyEnd

/-- How a run ends by it. -/
def ending : BodyEnd → Ending String
  | .success value => .value value
  | .message text => .error text
  | .failure e => .error e.message
  | .panic text => .panicked text

/-- How a scheduled run ends by it. -/
def silentEnding : BodyEnd → Ending Unit
  | .success _ => .value ()
  | .message text => .error text
  | .failure e => .error e.message
  | .panic text => .panicked text

end BodyEnd

/-- What code on one thread can do. -/
inductive Action where
  | getOrCreate (name : String)
  | get (name : String)
  | keep (name slot : String)
  | keepNew (slot : String)
  | same (a b : String)
  | view (r : RecordRef)
  | change (r : RecordRef) (op : Health.Operation)
  | aggregate
  | list
  | names
  | size
  | getTogether (name : String) (threads : Nat)
  | enter (id : Option String)
  | exit
  | context
  | openScope (slot : String) (id : Option String)
  | scopeId (slot : String)
  | dropScope (slot : String)
  | put (key value : String)
  | lookUp (key : String)
  | remove (key : String)
  | snapshot
  | thread (steps : List Action)
  | run (job : Descriptor) (body : List Action) (sleep : Duration) (ending : BodyEnd)
  | command (program : String) (args : List String)
  | configuredBody (j : Config.JobEntry)
  | acquire (policy : LockPolicy) (name : String) (lease : Duration) (slot : String)
  | release (slot : String)
  | isHeld (name : String)
  | sleep (d : Duration)
  | newShutdown
  | dropCoordinator
  | subscribe (slot : String)
  | trigger
  | shutdownState
  | poll (slot : String)
  | dropListener (slot : String)
  | metrics
  | installLogging
  | calls
  /-- Something that cannot be done here. -/
  | impossible
  deriving Repr

/-- The body of a scheduled job: a script, of which the calls end one after the other as
listed and then always like the last one, or the body of a configured job. -/
inductive Work where
  | scripted (body : List Action) (sleep : Duration) (ends : List BodyEnd)
  | configured (j : Config.JobEntry)
  deriving Repr

/-- A configured job with its schedule. -/
def configuredJob (j : Config.JobEntry) : ScheduledJob Work :=
  ⟨j.descriptor, j.interval, j.initialDelay, .configured j⟩

/-- What the outermost thread of a session can do. -/
inductive Step where
  | act (a : Action)
  | signal (s : Log.StopSignal)
  | installExporter (address : Net.SocketAddress)
  | request (r : Http.Request)
  | client (args : List String)
  | serve (paths : List String)
  | newScheduler (policy : LockPolicy) (lease : Duration)
  | register (job : ScheduledJob Work)
  | jobs
  | schedulerText
  | runOnce (name : String)
  | runPair (a b : String)
  | start
  | runFor (d : Duration)
  | advance (d : Duration)
  | join

end JobSupervisor.Session
