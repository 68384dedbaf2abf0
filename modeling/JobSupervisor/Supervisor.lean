import JobSupervisor.Context.Correlation
import JobSupervisor.Context.Identifier
import JobSupervisor.Health.Report
import JobSupervisor.Job.Lease
import JobSupervisor.Metrics

/-!
# The state of the supervisor

The supervisor as it is seen from one thread: what all threads share (records, metrics,
leases, the clock, the supply of identifiers and the journal of events) and the context
and open spans of the thread itself.  The operations here are the smallest ones that
touch more than one part, because they log.  Scheduled runs work on a thread of their own,
which stays the same from run to run.

## Main definitions

* `Thread` — the context and the open spans of a thread.
* `Supervisor` — the shared state and the current thread.
* `Supervisor.emit`, `ensureRecord`, `enterScope`, `exitScope`, `tryAcquire`, `giveBack`.
* `Supervisor.onThread` — runs an operation on another thread.
* `Supervisor.swapThreads` — changes between the running thread and the worker.
-/

namespace JobSupervisor

/-- The context of a thread and its open spans, innermost first. -/
structure Thread where
  context : Context
  spans : List Log.Span

/-- A thread that has done nothing yet. -/
def Thread.initial : Thread := ⟨Context.initial, []⟩

/-- The shared state, the thread that is running, and the thread of scheduled runs. -/
structure Supervisor where
  registry : Health.Registry
  metrics : Metrics
  leases : LeaseTable
  clock : Instant
  drawn : Nat
  journal : Array Log.Entry
  thread : Thread
  worker : Thread

namespace Supervisor

/-- The clock reading at which a supervisor starts. -/
def startOfTime : Instant := ⟨3600 * 1000000000⟩

/-- A supervisor at its start. -/
def initial : Supervisor :=
  ⟨.empty, .zero, .empty, startOfTime, 0, #[], Thread.initial, Thread.initial⟩

/-- Records an event within the open spans. -/
def emit (s : Supervisor) (e : Log.Event) : Supervisor :=
  { s with journal := s.journal.push ⟨e, s.thread.spans.reverse⟩ }

/-- Opens a span. -/
def openSpan (s : Supervisor) (span : Log.Span) : Supervisor :=
  { s with thread := { s.thread with spans := span :: s.thread.spans } }

/-- Closes the innermost span. -/
def closeSpan (s : Supervisor) : Supervisor :=
  { s with thread := { s.thread with spans := s.thread.spans.tail } }

/-- Changes the context of the running thread. -/
def withContext (s : Supervisor) (c : Context) : Supervisor :=
  { s with thread := { s.thread with context := c } }

/-- Lets time pass. -/
def elapse (s : Supervisor) (d : Duration) : Supervisor :=
  { s with clock := s.clock.after d }

/-- Draws a fresh identifier. -/
def freshIdentifier (s : Supervisor) : String × Supervisor :=
  (Context.Identifier.nth s.drawn, { s with drawn := s.drawn + 1 })

/-- Opens a scope on the running thread, drawing an identifier only if one is needed. -/
def enterScope (s : Supervisor) (supplied : Option String) : Bool × Supervisor :=
  let (fresh, s) :=
    if s.thread.context.drawsFresh supplied then s.freshIdentifier else ("", s)
  let (created, c) := s.thread.context.enter supplied fresh
  (created, s.withContext c)

/-- Closes a scope on the running thread. -/
def exitScope (s : Supervisor) : Bool × Supervisor :=
  let (cleared, c) := s.thread.context.exit
  (cleared, s.withContext c)

/-- The identifier in effect on the running thread, empty if there is none. -/
def correlation (s : Supervisor) : String := s.thread.context.currentText

/-- The record of a job, registered if it is missing. -/
def ensureRecord (s : Supervisor) (name : String) : Health.RecordId × Supervisor :=
  let (found, g) := s.registry.getOrCreate name
  let s := { s with registry := g }
  (found.id, if found.inserted then s.emit (.recordRegistered name) else s)

/-- The record at a place. -/
def record (s : Supervisor) (id : Health.RecordId) : Health.Record := s.registry.record id

/-- Changes the record at a place. -/
def perform (s : Supervisor) (id : Health.RecordId) (op : Health.Operation) : Supervisor :=
  { s with registry := s.registry.perform id op }

/-- The health of all jobs. -/
def report (s : Supervisor) : Health.Report := s.registry.report

/-- Whether a job name is held. -/
def isHeld (s : Supervisor) (name : String) : Bool := s.leases.isHeld name s.clock

/-- Asks the lease table for a lease and logs a takeover. -/
def acquireFromTable (s : Supervisor) (name : String) (lease : Duration) :
    Acquisition × Supervisor :=
  let (a, t) := s.leases.tryAcquire name s.clock lease
  let s := { s with leases := t }
  match a with
  | .granted token true => (.granted token true, s.emit (.leaseTakenOver name))
  | a => (a, s)

/-- Gives a lease back. -/
def giveBack (s : Supervisor) (l : Lease) : Supervisor :=
  { s with leases := s.leases.giveBack l }

/-- Runs an operation on another thread; the answer comes with that thread's state at the
end, and the running thread is the one before. -/
def onThread {α : Type} (s : Supervisor) (t : Thread) (f : Supervisor → α × Supervisor) :
    α × Thread × Supervisor :=
  let (a, s') := f { s with thread := t }
  (a, s'.thread, { s' with thread := s.thread })

/-- Goes on with the worker; the thread that was running waits in its place. -/
def swapThreads (s : Supervisor) : Supervisor :=
  { s with thread := s.worker, worker := s.thread }

@[simp] theorem swapThreads_swapThreads (s : Supervisor) : s.swapThreads.swapThreads = s := rfl

/-- Looking a record up changes at most the registry and the journal. -/
theorem ensureRecord_frame (s : Supervisor) (name : String) :
    ∃ registry journal, (s.ensureRecord name).2 =
      { s with registry := registry, journal := journal } := by
  simp only [ensureRecord]
  split
  · exact ⟨_, _, rfl⟩
  · exact ⟨_, _, rfl⟩

/-- Opening a scope changes at most the context of the running thread and the supply of
identifiers. -/
theorem enterScope_frame (s : Supervisor) (supplied : Option String) :
    ∃ context drawn, (s.enterScope supplied).2 =
      { s with thread := { s.thread with context := context }, drawn := drawn } := by
  simp only [enterScope]
  split
  · exact ⟨_, _, rfl⟩
  · exact ⟨_, _, rfl⟩

end Supervisor

/-- What a lock answers. -/
inductive LockAnswer where
  /-- The request failed: the lease is too long for the clock. -/
  | overflow
  | denied
  | granted (l : Lease)
  deriving DecidableEq

/-- Asks a lock for a lease on a job name. -/
def LockPolicy.tryAcquire (p : LockPolicy) (name : String) (lease : Duration)
    (s : Supervisor) : LockAnswer × Supervisor :=
  match p with
  | .unlocked => (.granted .detached, s)
  | .table | .faultyReturn =>
      match s.acquireFromTable name lease with
      | (.overflow, s) => (.overflow, s)
      | (.denied, s) => (.denied, s)
      | (.granted token _, s) =>
          (.granted (if p = .faultyReturn then .faulty name token else .attached name token), s)

end JobSupervisor
