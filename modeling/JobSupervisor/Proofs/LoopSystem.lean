import JobSupervisor.Session.Timeline
import Mathlib.Data.List.Basic

/-!
# Loops that select

A waiting loop selects between its timer and the shutdown.  The selection looks at the two in
an order that nothing determines, and takes the first that is ready; so when the timer is due
and the shutdown was triggered, either can be taken.  The order is part of the move with which
a loop selects.

## Main definitions

* `LoopTask` — a started loop, with or without a run in flight.
* `LoopSystem`, `LoopSystem.step`, `LoopSystem.run` — loops with their shutdown and clock.
* `LoopSystem.fires` — the number of fires that a loop has begun.
* `LoopSystem.standings` — the jobs of the loops, and which of them have a run in flight.
* `LoopSystem.select_cases` — a loop that selects takes a tick, or all loops are as busy as before.
-/

namespace JobSupervisor

variable {β : Type}

/-- A place whose value under a function stays the same may change. -/
theorem map_set_of_eq {α γ : Type} {l : List α} {i : Nat} {a b : α} {φ : α → γ}
    (hi : l[i]? = some a) (h : φ b = φ a) : (l.set i b).map φ = l.map φ := by
  obtain ⟨hlt, rfl⟩ := List.getElem?_eq_some_iff.1 hi
  refine List.ext_getElem? fun k => ?_
  by_cases hik : i = k
  · subst hik
    simp [hlt, h]
  · simp [List.getElem?_set_ne hik]

/-- A started loop, whether a run of its job is in flight, and how many fires it has begun. -/
structure LoopTask (β : Type) where
  loop : TriggerLoop β
  running : Bool
  fires : Nat

namespace LoopTask

/-- The loop waits for its timer and for the shutdown. -/
def Waits (t : LoopTask β) : Prop := t.running = false ∧ t.loop.phase.isAlive = true

instance (t : LoopTask β) : Decidable t.Waits :=
  inferInstanceAs (Decidable (_ ∧ _))

/-- The loop takes a tick and a run begins. -/
def tick (t : LoopTask β) (next : Instant) : LoopTask β :=
  ⟨t.loop.ticked next .ran, true, t.fires + 1⟩

/-- The loop takes its timer: after the initial delay the ticks begin, and a tick begins a
fire unless the loop is lost over it. -/
def takeTimer (t : LoopTask β) (now : Instant) : LoopTask β :=
  match t.loop.phase with
  | .delaying _ => { t with loop := t.loop.endDelay now }
  | .ticking due =>
      match Phase.nextTick? due now t.loop.job.interval with
      | some next => t.tick next
      | none => { t with loop := t.loop.lose }
  | .exited | .panicked => t

theorem takeTimer_of_next (t : LoopTask β) {due now next : Instant}
    (h : t.loop.phase = .ticking due)
    (hnext : Phase.nextTick? due now t.loop.job.interval = some next) :
    t.takeTimer now = t.tick next := by
  simp only [takeTimer, h, hnext]

theorem takeTimer_of_lostAt (t : LoopTask β) {now : Instant} (h : t.loop.LostAt now) :
    t.takeTimer now = { t with loop := t.loop.lose } := by
  obtain ⟨due, hphase, hnext⟩ := h
  simp only [takeTimer, hphase, hnext]

/-- The loop stops. -/
def stop (t : LoopTask β) : LoopTask β := { t with loop := t.loop.stop.1 }

/-- The run in flight ends. -/
def finish (t : LoopTask β) (fired : Fired) : LoopTask β :=
  match fired with
  | .overflow => { t with loop := t.loop.lose, running := false }
  | .skipped | .ran => { t with running := false }

/-- A tick and the end of its run together are what a loop does with a fired tick. -/
theorem loop_finish_tick (t : LoopTask β) (next : Instant) (fired : Fired) :
    ((t.tick next).finish fired).loop = t.loop.ticked next fired := by
  cases fired <;> rfl

/-- A woken loop that waits for a tick takes it and fires, unless it is lost over the tick. -/
theorem loop_wake {σ : Type} (view : σ → Supervisor) (put : Supervisor → σ → σ)
    (body : β → σ → Ending Unit × σ) {t : LoopTask β} {due : Instant}
    (h : t.loop.phase = .ticking due) (now : Instant) (x : σ) :
    (t.loop.wake view put body now x).1 =
      match Phase.nextTick? due now t.loop.job.interval with
      | some next => ((t.tick next).finish
          (Fire.fire view put t.loop.policy t.loop.lease t.loop.job body x).1).loop
      | none => (t.takeTimer now).loop := by
  cases hnext : Phase.nextTick? due now t.loop.job.interval with
  | some next => simp only [TriggerLoop.wake, h, hnext, loop_finish_tick]
  | none =>
      rw [t.takeTimer_of_lostAt ⟨due, h, hnext⟩]
      simp only [TriggerLoop.wake, h, hnext]

@[simp] theorem fires_finish (t : LoopTask β) (fired : Fired) :
    (t.finish fired).fires = t.fires := by
  cases fired <;> rfl

theorem isAlive_stop (t : LoopTask β) : t.stop.loop.phase.isAlive = false := by
  simp only [stop, TriggerLoop.stop]
  split <;> simp_all [Phase.isAlive, Phase.due?]

/-- The job of a loop, the lock that it asks, and how long a lease it asks for. -/
def seat (t : LoopTask β) : ScheduledJob β × LockPolicy × Duration :=
  (t.loop.job, t.loop.policy, t.loop.lease)

/-- The seat of a loop, whether it awaits a fire, and how many it has begun. -/
def standing (t : LoopTask β) : (ScheduledJob β × LockPolicy × Duration) × Bool × Nat :=
  (t.seat, t.running, t.fires)

theorem standing_stop (t : LoopTask β) : t.stop.standing = t.standing := by
  simp only [stop, TriggerLoop.stop]
  split <;> rfl

theorem seat_tick (t : LoopTask β) (next : Instant) : (t.tick next).seat = t.seat := rfl

theorem seat_finish (t : LoopTask β) (fired : Fired) : (t.finish fired).seat = t.seat := by
  cases fired <;> rfl

end LoopTask

/-- In a session, too, a waiting loop that hears of the trigger stops. -/
theorem Session.loop_hear {l : Session.RunningLoop} {x : Session}
    (hs : (x.shutdownAt l.shutdown).triggered = true) (halive : l.loop.phase.isAlive = true) :
    (Session.hear l x).1.loop = l.loop.stop.1 := by
  have hpoll : (x.askShutdown l.shutdown (·.poll l.loop.listener)).1 = true := by
    simp [Session.askShutdown, Shutdown.poll_of_triggered _ _ hs]
  simp only [Session.hear, halive, hpoll, if_true]

/-- Loops with the shutdown that they listen to and the clock. -/
structure LoopSystem (β : Type) where
  shutdown : Shutdown
  clock : Instant
  tasks : List (LoopTask β)

namespace LoopSystem

/-- What can happen to loops: the loops of a scheduler are started, time passes, the shutdown
is triggered, a loop selects, looking at its timer first or last, and a run ends. -/
inductive Move (β : Type) where
  | start (c : Scheduler β)
  | pass (d : Duration)
  | trigger
  | select (i : Nat) (timerFirst : Bool)
  | finish (i : Nat) (fired : Fired)

/-- The system before anything happened. -/
def initial (now : Instant) : LoopSystem β := ⟨.new, now, []⟩

/-- The number of fires that a loop has begun. -/
def fires (s : LoopSystem β) (i : Nat) : Nat := ((s.tasks[i]?).map LoopTask.fires).getD 0

/-- Changes a loop. -/
def setTask (i : Nat) (t : LoopTask β) (s : LoopSystem β) : LoopSystem β :=
  { s with tasks := s.tasks.set i t }

/-- A waiting loop hears of the shutdown and stops; its listener goes away. -/
def hear (i : Nat) (t : LoopTask β) (s : LoopSystem β) : LoopSystem β :=
  let sd := (s.shutdown.poll t.loop.listener).2
  { s with shutdown := sd.dropListener t.loop.listener }.setTask i t.stop

/-- A waiting loop takes the first of its timer and the shutdown that is ready. -/
def resolve (i : Nat) (timerFirst : Bool) (t : LoopTask β) (s : LoopSystem β) : LoopSystem β :=
  let ready := (s.shutdown.poll t.loop.listener).1
  if t.loop.phase.isDue s.clock ∧ (timerFirst ∨ ¬ ready) then s.setTask i (t.takeTimer s.clock)
  else if ready then s.hear i t
  else s

/-- The system after a move; a move that cannot be made changes nothing. -/
def step (m : Move β) (s : LoopSystem β) : LoopSystem β :=
  match m with
  | .start c =>
      let (loops, sd) := c.start s.clock s.shutdown
      { s with shutdown := sd, tasks := s.tasks ++ loops.map fun l => ⟨l, false, 0⟩ }
  | .pass d => { s with clock := s.clock.after d }
  | .trigger => { s with shutdown := s.shutdown.trigger.2 }
  | .select i timerFirst =>
      match s.tasks[i]? with
      | some t => if t.Waits then s.resolve i timerFirst t else s
      | none => s
  | .finish i fired =>
      match s.tasks[i]? with
      | some t => if t.running then s.setTask i (t.finish fired) else s
      | none => s

/-- The system after moves one after the other. -/
def run (moves : List (Move β)) (s : LoopSystem β) : LoopSystem β :=
  moves.foldl (fun s m => s.step m) s

@[simp] theorem run_nil (s : LoopSystem β) : s.run [] = s := rfl

@[simp] theorem run_cons (m : Move β) (moves : List (Move β)) (s : LoopSystem β) :
    s.run (m :: moves) = (s.step m).run moves := rfl

@[simp] theorem run_append (moves moves' : List (Move β)) (s : LoopSystem β) :
    s.run (moves ++ moves') = (s.run moves).run moves' :=
  List.foldl_append

variable {s : LoopSystem β} {i j : Nat} {t : LoopTask β}

theorem getElem?_setTask_self (hi : s.tasks[i]? = some t) (t' : LoopTask β) :
    (s.setTask i t').tasks[i]? = some t' := by
  have hlt : i < s.tasks.length := (List.getElem?_eq_some_iff.1 hi).1
  simp [setTask, hlt]

theorem getElem?_setTask_of_ne (h : j ≠ i) (t : LoopTask β) (s : LoopSystem β) :
    (s.setTask j t).tasks[i]? = s.tasks[i]? := by
  simp [setTask, List.getElem?_set_ne h]

theorem fires_eq (hi : s.tasks[i]? = some t) : s.fires i = t.fires := by
  simp [fires, hi]

/-! ## Selections -/

theorem step_select (hi : s.tasks[i]? = some t) (ht : t.Waits) (timerFirst : Bool) :
    s.step (.select i timerFirst) = s.resolve i timerFirst t := by
  simp [step, hi, ht]

/-- Only a waiting loop selects. -/
theorem step_select_of_not_waits (h : ∀ t, s.tasks[i]? = some t → ¬ t.Waits)
    (timerFirst : Bool) : s.step (.select i timerFirst) = s := by
  cases hi : s.tasks[i]? with
  | none => simp [step, hi]
  | some t => simp [step, hi, h t hi]

/-- A waiting loop that looks at its timer first takes it when it is due. -/
theorem step_select_of_due (hi : s.tasks[i]? = some t) (ht : t.Waits)
    (hdue : t.loop.phase.isDue s.clock = true) :
    s.step (.select i true) = s.setTask i (t.takeTimer s.clock) := by
  simp [step_select hi ht, resolve, hdue]

/-- After the trigger a waiting loop whose timer is not due stops. -/
theorem step_select_of_not_due (hs : s.shutdown.triggered = true) (hi : s.tasks[i]? = some t)
    (ht : t.Waits) (hdue : t.loop.phase.isDue s.clock = false) (timerFirst : Bool) :
    s.step (.select i timerFirst) = s.hear i t := by
  simp [step_select hi ht, resolve, hdue, Shutdown.poll_of_triggered _ _ hs]

/-! ## The trigger lasts -/

theorem triggered_startLoops (c : Scheduler β) (now : Instant) (jobs : List (ScheduledJob β))
    (sd : Shutdown) : (c.startLoops now jobs sd).2.triggered = sd.triggered := by
  induction jobs generalizing sd with
  | nil => rfl
  | cons job jobs ih => exact ih sd.subscribe.2

theorem triggered_hear (hs : s.shutdown.triggered = true) (i : Nat) (t : LoopTask β) :
    (s.hear i t).shutdown.triggered = true := by
  simp only [hear, setTask, Shutdown.poll_of_triggered _ _ hs]
  exact hs

/-- Once triggered, the shutdown stays triggered. -/
theorem triggered_step (hs : s.shutdown.triggered = true) (m : Move β) :
    (s.step m).shutdown.triggered = true := by
  cases m with
  | start c => exact (triggered_startLoops c s.clock c.jobs s.shutdown).trans hs
  | pass d => exact hs
  | trigger => exact s.shutdown.triggered_trigger
  | select i timerFirst =>
      simp only [step, resolve]
      repeat' split
      all_goals first | exact hs | exact triggered_hear hs _ _
  | finish i fired =>
      simp only [step]
      repeat' split
      all_goals exact hs

theorem triggered_run (hs : s.shutdown.triggered = true) (moves : List (Move β)) :
    (s.run moves).shutdown.triggered = true := by
  induction moves generalizing s with
  | nil => exact hs
  | cons m moves ih => exact ih (triggered_step hs m)

/-! ## Moves of other loops -/

/-- A selection changes only the loop that selects. -/
theorem getElem?_step_select (h : j ≠ i) (timerFirst : Bool) (s : LoopSystem β) :
    (s.step (.select j timerFirst)).tasks[i]? = s.tasks[i]? := by
  simp only [step, resolve, hear]
  repeat' split
  all_goals simp [getElem?_setTask_of_ne h]

/-- The end of a run changes only the loop of that run. -/
theorem getElem?_step_finish (h : j ≠ i) (fired : Fired) (s : LoopSystem β) :
    (s.step (.finish j fired)).tasks[i]? = s.tasks[i]? := by
  simp only [step]
  repeat' split
  all_goals simp [getElem?_setTask_of_ne h]

/-- Started loops come after the loops that there are. -/
theorem getElem?_step_start (hi : s.tasks[i]? = some t) (c : Scheduler β) :
    (s.step (.start c)).tasks[i]? = some t := by
  have hlt : i < s.tasks.length := (List.getElem?_eq_some_iff.1 hi).1
  simp [step, List.getElem?_append_left hlt, hi]

theorem fires_step_start (c : Scheduler β) (s : LoopSystem β) (i : Nat) :
    (s.step (.start c)).fires i = s.fires i := by
  cases hi : s.tasks[i]? with
  | some t => rw [fires_eq hi, fires_eq (getElem?_step_start hi c)]
  | none =>
      have hle : s.tasks.length ≤ i := List.getElem?_eq_none_iff.1 hi
      simp only [fires, step, hi, List.getElem?_append_right hle, List.getElem?_map]
      cases (c.start s.clock s.shutdown).1[i - s.tasks.length]? <;> rfl

theorem fires_step_finish (fired : Fired) (s : LoopSystem β) :
    (s.step (.finish j fired)).fires i = s.fires i := by
  by_cases hji : j = i
  · subst hji
    simp only [step]
    split
    · split
      · rename_i t hi _
        rw [fires_eq hi, fires_eq (getElem?_setTask_self hi _), LoopTask.fires_finish]
      · rfl
    · rfl
  · simp only [fires, getElem?_step_finish hji]

/-! ## What the loops stand for -/

/-- The seats of all loops. -/
def seats (s : LoopSystem β) : List (ScheduledJob β × LockPolicy × Duration) :=
  s.tasks.map LoopTask.seat

/-- The standings of all loops. -/
def standings (s : LoopSystem β) : List ((ScheduledJob β × LockPolicy × Duration) × Bool × Nat) :=
  s.tasks.map LoopTask.standing

theorem seats_eq (s : LoopSystem β) : s.seats = s.standings.map Prod.fst := by
  rw [seats, standings, List.map_map]
  rfl

theorem seats_eq_of_standings {s s' : LoopSystem β} (h : s'.standings = s.standings) :
    s'.seats = s.seats := by
  rw [seats_eq, seats_eq, h]

theorem getElem?_of_standings {s s' : LoopSystem β} (h : s'.standings = s.standings)
    (hi : s.tasks[i]? = some t) : ∃ t', s'.tasks[i]? = some t' ∧ t'.standing = t.standing := by
  have hget := congrArg (·[i]?) h
  simp only [standings, List.getElem?_map, hi, Option.map_some] at hget
  exact Option.map_eq_some_iff.1 hget

/-- A loop that selects takes a tick, or all loops are as busy as they were. -/
theorem select_cases (s : LoopSystem β) (i : Nat) (timerFirst : Bool) :
    (∃ t next, s.tasks[i]? = some t ∧ t.Waits ∧
      s.step (.select i timerFirst) = s.setTask i (t.tick next)) ∨
    (s.step (.select i timerFirst)).standings = s.standings := by
  cases hi : s.tasks[i]? with
  | none => exact .inr (by simp [step, hi])
  | some t =>
      by_cases ht : t.Waits
      · rw [step_select hi ht, resolve]
        split
        · rw [LoopTask.takeTimer]
          split
          · exact .inr (map_set_of_eq hi rfl)
          · split
            · exact .inl ⟨t, _, rfl, ht, rfl⟩
            · exact .inr (map_set_of_eq hi rfl)
          · exact .inr (map_set_of_eq hi rfl)
          · exact .inr (map_set_of_eq hi rfl)
        · split
          · exact .inr (map_set_of_eq hi t.standing_stop)
          · exact .inr rfl
      · exact .inr (by simp [step, hi, ht])

theorem step_finish (hi : s.tasks[i]? = some t) (ht : t.running = true) (fired : Fired) :
    s.step (.finish i fired) = s.setTask i (t.finish fired) := by
  simp [step, hi, ht]

/-- The loops of a scheduler have its jobs in their order, and none of them awaits a fire. -/
theorem standings_start (c : Scheduler β) (now : Instant) :
    ((initial now).step (.start c)).standings =
      c.jobs.map fun j => ((j, c.policy, c.lease), false, 0) := by
  have hloops (jobs : List (ScheduledJob β)) (sd : Shutdown) :
      (c.startLoops now jobs sd).1.map (fun l => (⟨l, false, 0⟩ : LoopTask β).standing) =
        jobs.map fun j => ((j, c.policy, c.lease), false, 0) := by
    induction jobs generalizing sd with
    | nil => rfl
    | cons job jobs ih => exact congrArg (_ :: ·) (ih sd.subscribe.2)
  simp only [standings, step, initial, Scheduler.start, List.nil_append, List.map_map]
  exact hloops c.jobs .new

end LoopSystem

end JobSupervisor
