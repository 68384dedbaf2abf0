import JobSupervisor.Job.Command
import JobSupervisor.Session.Action
import JobSupervisor.Session.Reply

/-!
# The state of a session

A session is a supervisor together with a scheduler, shutdowns, loops, a time of its own
for the loops, and everything that is kept in slots.  A session fails when something is
done that cannot be done, such as using an empty slot.

## Main definitions

* `Session` — the state.
* `Session.initial` — the state at the beginning.
* `Session.loseGuards` and the other small changes.
-/

namespace JobSupervisor

/-- A loop with its number in the order of the starts, the shutdown it listens to, and
whether it is still waited for. -/
structure Session.RunningLoop where
  number : Nat
  loop : TriggerLoop Session.Work
  shutdown : Nat
  tracked : Bool

/-- The state of a session. -/
structure Session where
  supervisor : Supervisor
  records : NameMap Health.RecordId
  leases : NameMap Lease
  /-- The open scopes of the running thread: whether each began an epoch. -/
  guards : NameMap Bool
  workerGuards : NameMap Bool
  shutdowns : List Shutdown
  coordinator : Option Nat
  listeners : NameMap (Nat × ListenerId)
  scheduler : Scheduler Session.Work
  /-- The loops in the order in which they began to wait. -/
  loops : List Session.RunningLoop
  calls : NameMap Nat
  now : Instant
  /-- The answers of bodies that have ended, the last one first. -/
  bodies : List (List Session.Reply)
  failed : Bool

namespace Session

/-- How long a lease of the scheduler is unless something else is said. -/
def defaultLease : Duration := .ofSecs 60

/-- A session at its beginning: one coordinator, and a scheduler with the lease table. -/
def initial : Session where
  supervisor := .initial
  records := .empty
  leases := .empty
  guards := .empty
  workerGuards := .empty
  shutdowns := [.new]
  coordinator := some 0
  listeners := .empty
  scheduler := ⟨.table, defaultLease, []⟩
  loops := []
  calls := .empty
  now := Supervisor.startOfTime
  bodies := []
  failed := false

/-- Replaces the supervisor. -/
def withSupervisor (s : Supervisor) (x : Session) : Session := { x with supervisor := s }

/-- Changes the supervisor. -/
def modify (f : Supervisor → Supervisor) (x : Session) : Session :=
  x.withSupervisor (f x.supervisor)

/-- Changes the supervisor with an answer. -/
def ask {α : Type} (f : Supervisor → α × Supervisor) (x : Session) : α × Session :=
  let (a, s) := f x.supervisor
  (a, x.withSupervisor s)

/-- Something was done that cannot be done. -/
def fault (x : Session) : Reply × Session := (.nothing, { x with failed := true })

/-- What is seen of a record. -/
def viewOf (x : Session) (id : Health.RecordId) : RecordView := .of (x.supervisor.record id)

/-- What is seen of the record of a name, if there is one. -/
def viewOfName (x : Session) (name : String) : Option RecordView :=
  (x.supervisor.registry.lookup name).map x.viewOf

/-- What is seen of the context of the running thread. -/
def contextView (x : Session) : ContextView := .of x.supervisor.thread.context

/-- The place of a record; a named one is created if it is missing. -/
def resolve (r : RecordRef) (x : Session) : Option Health.RecordId × Session :=
  match r with
  | .named name =>
      let (id, x) := x.ask (·.ensureRecord name)
      (some id, x)
  | .kept slot => (x.records.get? slot, x)

/-- Keeps the answers of a body that has ended. -/
def pushBody (replies : List Reply) (x : Session) : Session :=
  { x with bodies := replies :: x.bodies }

/-- Takes the answers of the body that ended last. -/
def popBody (x : Session) : List Reply × Session :=
  (x.bodies.headD [], { x with bodies := x.bodies.tail })

/-- The shutdown of an index. -/
def shutdownAt (x : Session) (i : Nat) : Shutdown := x.shutdowns.getD i .new

/-- Changes the shutdown of an index with an answer. -/
def askShutdown {α : Type} (i : Nat) (f : Shutdown → α × Shutdown) (x : Session) :
    α × Session :=
  let (a, sd) := f (x.shutdownAt i)
  (a, { x with shutdowns := x.shutdowns.set i sd })

/-- Goes on with the worker and its open scopes, or comes back. -/
def swapGuards (x : Session) : Session :=
  { x with guards := x.workerGuards, workerGuards := x.guards }

/-- The least time that passes while a body runs. -/
def bodyTime : Duration := ⟨1⟩

/-- Lets the time of a body pass. -/
def elapse (d : Duration) (x : Session) : Session :=
  x.modify fun s => (s.elapse d).elapse bodyTime

/-- Triggers a shutdown; the call that sends the broadcast logs it. -/
def triggerShutdown (i : Nat) (x : Session) : Session :=
  let (sent, x) := x.askShutdown i Shutdown.trigger
  match sent with
  | some listeners => x.modify (·.emit (.shutdownBroadcast listeners))
  | none => x

/-- Counts a call of a scheduled body; the answer is the number of calls before. -/
def countCall (name : String) (x : Session) : Nat × Session :=
  (x.calls.getD name 0, { x with calls := x.calls.modify name 0 (· + 1) })

end Session

end JobSupervisor
