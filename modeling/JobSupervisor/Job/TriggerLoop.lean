import JobSupervisor.Job.Schedule
import JobSupervisor.Shutdown

/-!
# Trigger loops

Each job of a scheduler that was started has a loop.  The loop first waits for the initial
delay, if there is one, and then for one tick after another; the first tick comes at once.
A tick that is late by more than five milliseconds is followed by the next whole multiple
of the interval, and any other tick by the next interval.  The loop ends when it hears of
the shutdown while it waits; after the initial delay it logs that.  A tick fires the job,
and a lease too long for the clock ends the loop abnormally.

## Main definitions

* `Phase`, `TriggerLoop` — a loop and what it waits for.
* `TriggerLoop.begin`, `TriggerLoop.wake`, `TriggerLoop.stop` — its steps.
* `Phase.nextTick?` — when the next tick comes.
* `TriggerLoop.LostAt` — a loop is lost over its tick.
-/

namespace JobSupervisor

/-- What a loop waits for, or how it ended. -/
inductive Phase where
  | delaying (untilThen : Instant)
  | ticking (next : Instant)
  | exited
  | panicked
  deriving DecidableEq, Repr

/-- A loop with the job that it fires, the lock it asks, and its listener. -/
structure TriggerLoop (β : Type) where
  job : ScheduledJob β
  policy : LockPolicy
  lease : Duration
  listener : ListenerId
  phase : Phase

namespace Phase

/-- How late a tick may be and still count as punctual. -/
def tolerance : Duration := .ofMillis 5

/-- The instant that stands for one beyond what the clock can hold: thirty years away. -/
def farFuture (now : Instant) : Instant := now.after (.ofSecs (86400 * 365 * 30))

/-- An instant after a duration, or one far away if the clock cannot hold it. -/
def afterOrFar (start now : Instant) (d : Duration) : Instant :=
  (start.later? d).getD (farFuture now)

/-- The tick after one that was due at `due` and came at `now`.  After a late one there is none if
the clock cannot hold an interval more, or if a word cannot hold the part of an interval that has
been missed. -/
def nextTick? (due now : Instant) (interval : Duration) : Option Instant :=
  if tolerance < now.since due then
    let missed := (now.nanos - due.nanos) % interval.nanos
    if missed < UInt64.size then (now.later? interval).map fun i => ⟨i.nanos - missed⟩ else none
  else some (afterOrFar due now interval)

/-- After a tick that is not late there is always another one. -/
theorem nextTick?_of_le {due now : Instant} (h : now.nanos ≤ due.nanos) (interval : Duration) :
    nextTick? due now interval = some (afterOrFar due now interval) := by
  have hpunctual : ¬ tolerance < now.since due := by
    show ¬ tolerance.nanos < now.nanos - due.nanos
    omega
  rw [nextTick?, if_neg hpunctual]

theorem le_afterOrFar (start : Instant) (d : Duration) :
    start.nanos ≤ (afterOrFar start start d).nanos := by
  cases h : start.later? d with
  | none => simp [afterOrFar, h, farFuture, Instant.after]
  | some i =>
      obtain ⟨rfl, -⟩ := Instant.later?_eq_some_iff.1 h
      simp [afterOrFar, h, Instant.after]

/-- The instant a loop waits for, unless it ended. -/
def due? : Phase → Option Instant
  | .delaying i | .ticking i => some i
  | .exited | .panicked => none

/-- Whether a loop has not ended. -/
def isAlive (p : Phase) : Bool := p.due?.isSome

/-- Whether the instant has come that a loop waits for. -/
def isDue (p : Phase) (now : Instant) : Bool :=
  match p.due? with
  | some due => !decide (now < due)
  | none => false

end Phase

namespace TriggerLoop

variable {β : Type}

/-- A loop at its start. -/
def begin (c : Scheduler β) (job : ScheduledJob β) (listener : ListenerId) (now : Instant) :
    TriggerLoop β :=
  let phase := if job.initialDelay.isZero then Phase.ticking now
    else .delaying (Phase.afterOrFar now now job.initialDelay)
  ⟨job, c.policy, c.lease, listener, phase⟩

/-- The loop after it ended abnormally. -/
def lose (l : TriggerLoop β) : TriggerLoop β := { l with phase := .panicked }

/-- There is no tick after the one that comes now, so that the loop is lost over it. -/
def LostAt (l : TriggerLoop β) (now : Instant) : Prop :=
  ∃ due, l.phase = .ticking due ∧ Phase.nextTick? due now l.job.interval = none

/-- The loop after a tick was fired. -/
def ticked (l : TriggerLoop β) (next : Instant) (fired : Fired) : TriggerLoop β :=
  match fired with
  | .overflow => l.lose
  | .skipped | .ran => { l with phase := .ticking next }

/-- The loop after it has heard of the shutdown, and what it logs. -/
def stop (l : TriggerLoop β) : TriggerLoop β × Option Log.Event :=
  match l.phase with
  | .delaying _ => ({ l with phase := .exited }, none)
  | .ticking _ => ({ l with phase := .exited }, some (.loopStopping l.job.descriptor.name))
  | .exited | .panicked => (l, none)

/-- The end of the initial delay: the first tick is due at once. -/
def endDelay (l : TriggerLoop β) (now : Instant) : TriggerLoop β :=
  { l with phase := .ticking now }

/-- What a loop does when the instant has come that it waits for. -/
def wake {σ : Type} (view : σ → Supervisor) (put : Supervisor → σ → σ)
    (body : β → σ → Ending Unit × σ) (now : Instant) (l : TriggerLoop β) (x : σ) :
    TriggerLoop β × σ :=
  match l.phase with
  | .delaying _ => (l.endDelay now, x)
  | .ticking due =>
      match Phase.nextTick? due now l.job.interval with
      | some next =>
          let (fired, x) := Fire.fire view put l.policy l.lease l.job body x
          (l.ticked next fired, x)
      | none => (l.lose, x)
  | .exited | .panicked => (l, x)

end TriggerLoop

/-- Starts one loop for each job, each with a listener of its own. -/
def Scheduler.startLoops {β : Type} (c : Scheduler β) (now : Instant) :
    List (ScheduledJob β) → Shutdown → List (TriggerLoop β) × Shutdown
  | [], sd => ([], sd)
  | job :: rest, sd =>
      let (listener, sd) := sd.subscribe
      let (loops, sd) := c.startLoops now rest sd
      (TriggerLoop.begin c job listener now :: loops, sd)

/-- Starts the loops of a scheduler. -/
def Scheduler.start {β : Type} (c : Scheduler β) (now : Instant) (sd : Shutdown) :
    List (TriggerLoop β) × Shutdown :=
  c.startLoops now c.jobs sd

end JobSupervisor
