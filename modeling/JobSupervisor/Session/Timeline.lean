import JobSupervisor.Session.Perform

/-!
# The time of the loops

The loops of a session live in a time of their own, which passes only when it is let pass.
Whenever the earliest loop is due, the time moves on to that moment and the loop is woken;
runs take none of this time.  After every wake, and after every step of a session, each
loop that hears of its shutdown ends.  Loops that are due at the same moment are woken
together, and a loop that is due could take its tick as well as stop when a body has
triggered the shutdown meanwhile: it takes its tick.

A stretch of time wakes each loop a bounded number of times, because a tick is followed by
one that is at least an interval later.

## Main definitions

* `Session.react`, `Session.reactBetween` — let the loops hear of their shutdowns.
* `Session.passTo` — lets time pass until a moment, or until something has happened.
* `Session.startLoops`, `Session.joinAll` — starts loops and waits for them.
-/

namespace JobSupervisor.Session

/-- A loop's listener goes away. -/
def releaseListener (l : RunningLoop) (x : Session) : Session :=
  (x.askShutdown l.shutdown fun sd => ((), sd.dropListener l.loop.listener)).2

/-- A loop hears whether its shutdown was triggered, and ends if it was. -/
def hear (l : RunningLoop) (x : Session) : RunningLoop × Session :=
  if l.loop.phase.isAlive then
    let (ready, x) := x.askShutdown l.shutdown (·.poll l.loop.listener)
    if ready then
      let (stopped, event) := l.loop.stop
      let x := x.releaseListener l
      let x := match event with
        | some e => x.modify (·.emit e)
        | none => x
      ({ l with loop := stopped }, x)
    else (l, x)
  else (l, x)

/-- Loops hear of their shutdowns one after the other, as far as they listen. -/
def hearAll (listens : RunningLoop → Bool) : List RunningLoop → Session →
    List RunningLoop × Session
  | [], x => ([], x)
  | l :: rest, x =>
      let (l, x) := if listens l then hear l x else (l, x)
      let (rest, x) := hearAll listens rest x
      (l :: rest, x)

/-- Lets the loops hear of their shutdowns. -/
def react (x : Session) : Session :=
  let (loops, x) := hearAll (fun _ => true) x.loops x
  { x with loops := loops }

/-- Lets the loops that are not due hear of their shutdowns. -/
def reactBetween (x : Session) : Session :=
  let (loops, x) := hearAll (fun l => !l.loop.phase.isDue x.now) x.loops x
  { x with loops := loops }

/-- Whether a loop waits for an instant before the one that another waits for. -/
def isDueBefore (a b : RunningLoop) : Bool :=
  match a.loop.phase.due?, b.loop.phase.due? with
  | some i, some j => i < j
  | some _, none => true
  | none, _ => false

/-- The loop that is due first; of several, the one that has waited longest. -/
def earliest? (ls : List RunningLoop) : Option RunningLoop :=
  ls.foldl (fun best l => match best with
    | none => some l
    | some b => if isDueBefore l b then some l else some b) none

/-- The loop that is due first, with its moment, if that has come by `target`. -/
def nextDue? (target : Instant) (x : Session) : Option (RunningLoop × Instant) :=
  (earliest? x.loops).bind fun l => l.loop.phase.due?.bind fun due =>
    if target < due then none else some (l, due)

/-- The later of two instants. -/
def laterOf (i j : Instant) : Instant := if i < j then j else i

/-- Wakes a loop that is due; afterwards it waits behind the others. -/
def wake (l : RunningLoop) (due : Instant) (x : Session) : Session :=
  let x := { x with now := laterOf x.now due }
  let body := work l.loop.job.descriptor.name
  let (woken, x) := l.loop.wake Session.supervisor withSupervisor body x.now x
  let others := x.loops.filter fun o => o.number ≠ l.number
  let x := { x with loops := others ++ [{ l with loop := woken }] }
  if woken.phase.isAlive then x else x.releaseListener l

/-- How often a loop can be woken until a moment. -/
def wakesUntil (target now : Instant) (l : RunningLoop) : Nat :=
  (target.nanos - now.nanos) / l.loop.job.interval.nanos + 3

/-- Wakes the loops that are due by `target`, at most `fuel` times, until something has
happened. -/
def wakeUntil (fuel : Nat) (happened : Session → Bool) (target : Instant) (x : Session) :
    Session :=
  match fuel with
  | 0 => x
  | fuel + 1 =>
      if happened x then x
      else match x.nextDue? target with
        | some (l, due) => wakeUntil fuel happened target (reactBetween (x.wake l due))
        | none => { x with now := laterOf x.now target }

/-- Lets time pass until a moment, or until something has happened. -/
def passTo (happened : Session → Bool) (target : Instant) (x : Session) : Session :=
  let bound := x.loops.foldl (fun n l => n + wakesUntil target x.now l) 1
  wakeUntil bound happened target x

/-- Lets time pass. -/
def pass (d : Duration) (x : Session) : Session := x.passTo (fun _ => false) (x.now.after d)

/-- How long the loops are given after the clock was moved at once. -/
def settlingTime : Duration := .ofMillis 5

/-- Moves the time on at once; what became due meanwhile is late. -/
def jump (d : Duration) (x : Session) : Session :=
  { x with now := x.now.after d }.pass settlingTime

/-- Starts the loops of the scheduler; the answer is their number. -/
def startLoops (i : Nat) (x : Session) : Nat × Session :=
  let (started, x) := x.askShutdown i (x.scheduler.start x.now)
  let first := x.loops.length
  let added := started.zipIdx.map fun (l, n) => ⟨first + n, l, i, true⟩
  (started.length, { x with loops := x.loops ++ added })

/-- How long a loop is waited for. -/
def joinTime : Duration := .ofSecs 5

/-- How the loop of a number stands. -/
def stateOf (number : Nat) (x : Session) : LoopState :=
  match x.loops.find? (·.number = number) with
  | some l => .of l.loop.phase
  | none => .exited

/-- Waits for a loop to end; the answer is how it stands then. -/
def join (number : Nat) (x : Session) : LoopState × Session :=
  let ended (x : Session) : Bool := x.stateOf number ≠ .running
  let x := x.passTo ended (x.now.after joinTime)
  (x.stateOf number, x)

/-- Waits for loops one after the other. -/
def joinEach : List Nat → Session → List LoopState × Session
  | [], x => ([], x)
  | n :: rest, x =>
      let (state, x) := x.join n
      let (states, x) := joinEach rest x
      (state :: states, x)

/-- Waits for all loops that are still waited for, in the order of their starts. -/
def joinAll (x : Session) : List LoopState × Session :=
  let waited := (x.loops.filter (·.tracked)).map (·.number)
  let (states, x) := joinEach (waited.mergeSort (· ≤ ·)) x
  (states, { x with loops := x.loops.map fun l => { l with tracked := false } })

end JobSupervisor.Session
