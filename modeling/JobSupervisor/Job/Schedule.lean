import JobSupervisor.Job.Run

/-!
# Scheduled jobs

A scheduler keeps the accepted jobs in the order of their registration.  To fire a job it
asks its lock for a lease on the job's name; a denied request is a skip.  A granted lease
is kept while the job runs on the worker and is given back whichever way the run ends.

## Main definitions

* `ScheduledJob`, `Scheduler` — jobs with their schedules.
* `Scheduler.register` — adds a job.
* `Fire.request`, `Fire.complete` — the two halves of a fire.
* `Scheduler.runOnce` — fires the earliest job of a name.
-/

namespace JobSupervisor

/-- A job with its schedule; `β` is the type of bodies. -/
structure ScheduledJob (β : Type) where
  descriptor : Descriptor
  interval : Duration
  initialDelay : Duration
  body : β

/-- The lock, the length of leases, and the accepted jobs in order. -/
structure Scheduler (β : Type) where
  policy : LockPolicy
  lease : Duration
  jobs : List (ScheduledJob β)

/-- The text of a job in the text of a scheduler. -/
def ScheduledJob.text {β : Type} (j : ScheduledJob β) : String :=
  "ScheduledJob \x7b descriptor: JobDescriptor \x7b name: " ++ Text.quoted j.descriptor.name ++
    ", max_execution_time: " ++ j.descriptor.budget.text ++ " \x7d, interval: " ++
    j.interval.text ++ ", initial_delay: " ++ j.initialDelay.text ++ ", .. \x7d"

namespace Scheduler

variable {β : Type}

/-- The text of a scheduler. -/
def text (c : Scheduler β) : String :=
  "Scheduler \x7b lease: " ++ c.lease.text ++ ", jobs: " ++
    Text.listed (c.jobs.map ScheduledJob.text) ++ ", .. \x7d"

/-- Why a schedule without an interval is refused. -/
def zeroInterval : String := "interval must be greater than zero"

/-- Adds a job and creates its record, unless its interval is zero. -/
def register (c : Scheduler β) (j : ScheduledJob β) (s : Supervisor) :
    Except JobError (Scheduler β × Supervisor) :=
  if j.interval.isZero then .error (.invalidSchedule j.descriptor.name zeroInterval)
  else
    let (_, s) := s.ensureRecord j.descriptor.name
    let s := s.emit (.jobRegistered j.descriptor.name j.interval j.descriptor.budget)
    .ok ({ c with jobs := c.jobs ++ [j] }, s)

/-- The earliest job of a name. -/
def find? (c : Scheduler β) (name : String) : Option (ScheduledJob β) :=
  c.jobs.find? (·.descriptor.name = name)

end Scheduler

/-- What came of firing a job. -/
inductive Fired where
  /-- The lease is too long for the clock; nothing was run. -/
  | overflow
  | skipped
  | ran
  deriving DecidableEq, Repr

namespace Fire

/-- What came of asking for a lease. -/
inductive Answer where
  | overflow
  | skipped
  | started (l : Lease)
  deriving DecidableEq

/-- Asks for a lease on a job name.  A denied request is logged and counted. -/
def request (policy : LockPolicy) (lease : Duration) (name : String) (s : Supervisor) :
    Answer × Supervisor :=
  match policy.tryAcquire name lease s with
  | (.overflow, s) => (.overflow, s)
  | (.denied, s) =>
      let s := s.emit (.runSkipped name)
      (.skipped, { s with metrics := s.metrics.recordSkipped name })
  | (.granted l, s) => (.started l, s)

/-- What is logged about a lease whose return failed. -/
def abortText : String := "task panicked"

variable {σ β : Type} (view : σ → Supervisor) (put : Supervisor → σ → σ)

/-- Changes the supervisor within a larger state. -/
def within (f : Supervisor → Supervisor) (x : σ) : σ := put (f (view x)) x

/-- Runs a job on the worker under a granted lease and gives the lease back. -/
def complete (job : ScheduledJob β) (lease : Lease) (body : β → σ → Ending Unit × σ)
    (x : σ) : σ :=
  let x := within view put Supervisor.swapThreads x
  let (_, x) := supervise view put job.descriptor (body job.body) x
  let x := within view put (·.giveBack lease) x
  let x := within view put Supervisor.swapThreads x
  if lease.returnFails then
    within view put (·.emit (.taskAborted job.descriptor.name abortText)) x
  else x

/-- Fires a job. -/
def fire (policy : LockPolicy) (lease : Duration) (job : ScheduledJob β)
    (body : β → σ → Ending Unit × σ) (x : σ) : Fired × σ :=
  match request policy lease job.descriptor.name (view x) with
  | (.overflow, s) => (.overflow, put s x)
  | (.skipped, s) => (.skipped, put s x)
  | (.started l, s) => (.ran, complete view put job l body (put s x))

end Fire

/-- Fires the earliest job of a name. -/
def Scheduler.runOnce {σ β : Type} (view : σ → Supervisor) (put : Supervisor → σ → σ)
    (c : Scheduler β) (name : String) (body : β → σ → Ending Unit × σ) (x : σ) :
    Except JobError Fired × σ :=
  match c.find? name with
  | none => (.error (.unknownJob name), x)
  | some job =>
      let (fired, x) := Fire.fire view put c.policy c.lease job body x
      (.ok fired, x)

end JobSupervisor
