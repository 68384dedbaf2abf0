import JobSupervisor.Proofs.LoopSystem

/-!
# Loops and the shutdown

A loop that selects after the trigger and finds its timer not due stops, and never fires
again; this holds also for a loop that had a run in flight, at the selection after that run.
A loop that finds its timer due can take the tick instead and begin another fire.  Which of
the two happens is decided by the timer at that selection alone, save for a tick so late and an
interval so long that the loop is lost over the tick.

## Main definitions

* `LoopSystem.Ended` — a loop has ended, with no run in flight.
* `LoopSystem.Prompt` — whenever a loop selects, its timer is not due.
* `LoopSystem.fires_after_trigger` — which loops begin another fire after the trigger.
-/

namespace JobSupervisor.LoopSystem

variable {β : Type} {s : LoopSystem β} {i j : Nat} {t : LoopTask β}

/-! ## Loops that have ended -/

/-- A loop has ended and no run of its job is in flight. -/
def Ended (s : LoopSystem β) (i : Nat) : Prop :=
  ∃ t, s.tasks[i]? = some t ∧ t.running = false ∧ t.loop.phase.isAlive = false

theorem ended_hear (hi : s.tasks[i]? = some t) (ht : t.Waits) : (s.hear i t).Ended i :=
  ⟨t.stop, getElem?_setTask_self hi _, ht.1, t.isAlive_stop⟩

/-- A loop that has ended does not select. -/
theorem Ended.step_select (h : s.Ended i) (timerFirst : Bool) :
    s.step (.select i timerFirst) = s := by
  obtain ⟨t, hi, -, halive⟩ := h
  refine step_select_of_not_waits (fun t' hi' hwaits => ?_) timerFirst
  obtain rfl : t = t' := Option.some.inj (hi.symm.trans hi')
  simp [LoopTask.Waits, halive] at hwaits

/-- A loop that has ended does nothing any more. -/
theorem Ended.step (h : s.Ended i) (m : Move β) : (s.step m).Ended i := by
  obtain ⟨t, hi, hrunning, halive⟩ := h
  cases m with
  | start c => exact ⟨t, getElem?_step_start hi c, hrunning, halive⟩
  | pass d => exact ⟨t, hi, hrunning, halive⟩
  | trigger => exact ⟨t, hi, hrunning, halive⟩
  | select j timerFirst =>
      by_cases hji : j = i
      · subst hji
        rw [Ended.step_select ⟨t, hi, hrunning, halive⟩]
        exact ⟨t, hi, hrunning, halive⟩
      · exact ⟨t, (getElem?_step_select hji timerFirst s).trans hi, hrunning, halive⟩
  | finish j fired =>
      refine ⟨t, ?_, hrunning, halive⟩
      by_cases hji : j = i
      · subst hji
        simp [LoopSystem.step, hi, hrunning]
      · rw [getElem?_step_finish hji, hi]

theorem Ended.run (h : s.Ended i) (moves : List (Move β)) : (s.run moves).Ended i := by
  induction moves generalizing s with
  | nil => exact h
  | cons m moves ih => exact ih (h.step m)

/-- However often a loop that has ended is let select, nothing happens. -/
theorem Ended.run_select (h : s.Ended i) (choices : List Bool) :
    s.run (choices.map (.select i)) = s := by
  induction choices with
  | nil => rfl
  | cons timerFirst choices ih => rw [List.map_cons, run_cons, h.step_select, ih]

/-! ## Prompt selections -/

/-- A move is prompt for a loop unless the loop selects when its timer is due. -/
def PromptMove (i : Nat) (m : Move β) (s : LoopSystem β) : Prop :=
  match m with
  | .select j _ => j = i → ∀ t, s.tasks[i]? = some t → t.Waits →
      t.loop.phase.isDue s.clock = false
  | _ => True

/-- Whenever the loop selects, its timer is not due. -/
def Prompt (i : Nat) : List (Move β) → LoopSystem β → Prop
  | [], _ => True
  | m :: moves, s => s.PromptMove i m ∧ Prompt i moves (s.step m)

theorem Prompt.of_append {moves moves' : List (Move β)} (h : s.Prompt i (moves ++ moves')) :
    (s.run moves).Prompt i moves' := by
  induction moves generalizing s with
  | nil => exact h
  | cons m moves ih => exact ih h.2

theorem fires_hear (hi : s.tasks[i]? = some t) : (s.hear i t).fires i = s.fires i := by
  have hi' : (s.hear i t).tasks[i]? = some t.stop := getElem?_setTask_self hi _
  rw [fires_eq hi, fires_eq hi']
  rfl

/-- A prompt move after the trigger begins no fire. -/
theorem fires_step (hs : s.shutdown.triggered = true) {m : Move β} (hprompt : s.PromptMove i m) :
    (s.step m).fires i = s.fires i := by
  cases m with
  | start c => exact fires_step_start c s i
  | pass d => rfl
  | trigger => rfl
  | select j timerFirst =>
      by_cases hji : j = i
      · subst hji
        by_cases hwaits : ∀ t, s.tasks[j]? = some t → ¬ t.Waits
        · rw [step_select_of_not_waits hwaits]
        · simp only [not_forall, not_not] at hwaits
          obtain ⟨t, hi, ht⟩ := hwaits
          rw [step_select_of_not_due hs hi ht (hprompt rfl t hi ht), fires_hear hi]
      · simp only [fires, getElem?_step_select hji]
  | finish j fired => exact fires_step_finish fired s

theorem fires_run (hs : s.shutdown.triggered = true) {moves : List (Move β)}
    (hprompt : s.Prompt i moves) : (s.run moves).fires i = s.fires i := by
  induction moves generalizing s with
  | nil => rfl
  | cons m moves ih =>
      exact (ih (triggered_step hs m) hprompt.2).trans (fires_step hs hprompt.1)

/-- A prompt selection after the trigger ends the loop. -/
theorem ended_select (hs : s.shutdown.triggered = true) {timerFirst : Bool}
    (hprompt : s.PromptMove i (.select i timerFirst)) (hi : s.tasks[i]? = some t)
    (hfree : t.running = false) : (s.step (.select i timerFirst)).Ended i := by
  cases halive : t.loop.phase.isAlive with
  | true =>
      have ht : t.Waits := ⟨hfree, halive⟩
      rw [step_select_of_not_due hs hi ht (hprompt rfl t hi ht)]
      exact ended_hear hi ht
  | false =>
      have hended : s.Ended i := ⟨t, hi, hfree, halive⟩
      rw [hended.step_select]
      exact hended

/-- A loop that selects promptly after the trigger, with no run in flight, has ended from then
on. -/
theorem ended_run (hs : s.shutdown.triggered = true) {before after : List (Move β)}
    {timerFirst : Bool} (hprompt : s.Prompt i (before ++ .select i timerFirst :: after))
    (hi : (s.run before).tasks[i]? = some t) (hfree : t.running = false) :
    (s.run (before ++ .select i timerFirst :: after)).Ended i := by
  rw [run_append, run_cons]
  exact (ended_select (triggered_run hs before) hprompt.of_append.1 hi hfree).run after

/-! ## Late selections -/

/-- A loop that takes a tick that is due begins a fire, if there is a tick after it. -/
theorem fires_select_of_tick (hi : s.tasks[i]? = some t) (hfree : t.running = false)
    {due next : Instant} (hphase : t.loop.phase = .ticking due) (hdue : ¬ s.clock < due)
    (hnext : Phase.nextTick? due s.clock t.loop.job.interval = some next) :
    (s.step (.select i true)).fires i = s.fires i + 1 := by
  have ht : t.Waits := ⟨hfree, by simp [hphase, Phase.isAlive, Phase.due?]⟩
  rw [step_select_of_due hi ht (by simp [hphase, Phase.isDue, Phase.due?, hdue]),
    t.takeTimer_of_next hphase hnext, fires_eq hi, fires_eq (getElem?_setTask_self hi _)]
  rfl

/-- A waiting loop whose timer is due and that is not lost over it can begin a fire, at once or
after the end of its initial delay. -/
theorem exists_fires_of_due (hi : s.tasks[i]? = some t) (ht : t.Waits)
    (hdue : t.loop.phase.isDue s.clock = true) (hlost : ¬ t.loop.LostAt s.clock) :
    ∃ choices : List Bool, (s.run (choices.map (.select i))).fires i = s.fires i + 1 := by
  have hstep := step_select_of_due hi ht hdue
  cases hphase : t.loop.phase with
  | delaying due =>
      have htimer : t.takeTimer s.clock = { t with loop := t.loop.endDelay s.clock } := by
        rw [LoopTask.takeTimer, hphase]
      rw [htimer] at hstep
      have hi' := getElem?_setTask_self hi { t with loop := t.loop.endDelay s.clock }
      refine ⟨[true, true], ?_⟩
      rw [List.map_cons, run_cons, hstep]
      -- The first tick is not late, for it comes when the delay ends.
      have hnext := Phase.nextTick?_of_le (Nat.le_refl s.clock.nanos) t.loop.job.interval
      refine (fires_select_of_tick hi' ht.1 rfl (Nat.lt_irrefl _) hnext).trans ?_
      rw [fires_eq hi, fires_eq hi']
  | ticking due =>
      obtain ⟨next, hnext⟩ := Option.ne_none_iff_exists'.1 fun h => hlost ⟨due, hphase, h⟩
      refine ⟨[true], fires_select_of_tick hi ht.1 hphase ?_ hnext⟩
      simpa [hphase, Phase.isDue, Phase.due?] using hdue
  | exited => simp [hphase, Phase.isDue, Phase.due?] at hdue
  | panicked => simp [hphase, Phase.isDue, Phase.due?] at hdue

/-- A waiting loop whose timer is not due begins no fire, however it selects. -/
theorem fires_run_select_of_not_due (hs : s.shutdown.triggered = true)
    (hi : s.tasks[i]? = some t) (ht : t.Waits) (hdue : t.loop.phase.isDue s.clock = false)
    (choices : List Bool) : (s.run (choices.map (.select i))).fires i = s.fires i := by
  cases choices with
  | nil => rfl
  | cons timerFirst choices =>
      rw [List.map_cons, run_cons, step_select_of_not_due hs hi ht hdue,
        (ended_hear hi ht).run_select, fires_hear hi]

/-- After the trigger, a loop that is lost over its tick begins no fire, however it selects. -/
theorem fires_run_select_of_lostAt (hs : s.shutdown.triggered = true)
    (hi : s.tasks[i]? = some t) (ht : t.Waits) (hlost : t.loop.LostAt s.clock)
    (choices : List Bool) : (s.run (choices.map (.select i))).fires i = s.fires i := by
  cases choices with
  | nil => rfl
  | cons timerFirst choices =>
      have hended : (s.step (.select i timerFirst)).Ended i ∧
          (s.step (.select i timerFirst)).fires i = s.fires i := by
        rw [step_select hi ht, resolve, t.takeTimer_of_lostAt hlost]
        split
        · have hi' := getElem?_setTask_self hi { t with loop := t.loop.lose }
          exact ⟨⟨_, hi', ht.1, rfl⟩, by rw [fires_eq hi, fires_eq hi']⟩
        · rw [if_pos (by simp [Shutdown.poll_of_triggered _ _ hs])]
          exact ⟨ended_hear hi ht, fires_hear hi⟩
      rw [List.map_cons, run_cons, hended.1.run_select, hended.2]

/-- **Fires after the trigger.**  Once the shutdown was triggered, a loop begins no fire as
long as its timer is not due whenever it selects, whatever else happens, and it has ended from
its first selection on with no run of its job in flight.  A waiting loop begins no fire under
every order in which it may look at its timer and the shutdown exactly if its timer is not
due, or if it is lost over the tick. -/
theorem fires_after_trigger (hs : s.shutdown.triggered = true) (i : Nat) :
    (∀ moves, s.Prompt i moves → (s.run moves).fires i = s.fires i ∧
      ∀ before timerFirst after t, moves = before ++ .select i timerFirst :: after →
        (s.run before).tasks[i]? = some t → t.running = false → (s.run moves).Ended i) ∧
    (∀ t, s.tasks[i]? = some t → t.Waits →
      ((∀ choices : List Bool, (s.run (choices.map (.select i))).fires i = s.fires i) ↔
        t.loop.phase.isDue s.clock = false ∨ t.loop.LostAt s.clock)) := by
  refine ⟨fun moves hprompt => ⟨fires_run hs hprompt, ?_⟩, fun t hi ht => ⟨fun h => ?_, ?_⟩⟩
  · rintro before timerFirst after t rfl hi hfree
    exact ended_run hs hprompt hi hfree
  · by_contra hcan
    obtain ⟨hdue, hlost⟩ := not_or.1 hcan
    obtain ⟨choices, hfires⟩ := exists_fires_of_due hi ht (by simpa using hdue) hlost
    rw [h choices] at hfires
    omega
  · rintro (hdue | hlost)
    · exact fires_run_select_of_not_due hs hi ht hdue
    · exact fires_run_select_of_lostAt hs hi ht hlost

/-- A job that is fired every second, the first time at once. -/
def everySecond : Scheduler Unit :=
  ⟨.unlocked, .ofSecs 60, [⟨⟨"sync", .ofSecs 60⟩, .ofSecs 1, ⟨0⟩, ()⟩]⟩

/-- The shutdown is triggered during the first run of the job. -/
def triggeredMidRun : LoopSystem Unit :=
  (initial ⟨0⟩).run [.start everySecond, .select 0 true, .trigger]

/-- The run takes two seconds, so the next tick is due when it ends, and the loop takes it. -/
theorem fires_of_late_tick :
    triggeredMidRun.shutdown.triggered = true ∧ triggeredMidRun.fires 0 = 1 ∧
      (triggeredMidRun.run [.pass (.ofSecs 2), .finish 0 .ran, .select 0 true]).fires 0 = 2 := by
  decide

/-- The run ends before the next tick is due, and the loop ends after it. -/
theorem fires_after_trigger_short_run :
    triggeredMidRun.shutdown.triggered = true ∧
      (triggeredMidRun.run [.finish 0 .ran, .select 0 true]).fires 0 = 1 ∧
      (triggeredMidRun.run [.finish 0 .ran, .select 0 true]).Ended 0 := by
  have hs : triggeredMidRun.shutdown.triggered = true := by decide
  have hprompt : triggeredMidRun.Prompt 0 [.finish 0 .ran, .select 0 true] := by
    refine ⟨trivial, fun _ t hi _ => ?_, trivial⟩
    obtain rfl := Option.some.inj hi
    decide
  obtain ⟨hfires, hended⟩ := (fires_after_trigger hs 0).1 _ hprompt
  exact ⟨hs, hfires, hended [.finish 0 .ran] true [] _ rfl rfl rfl⟩

end JobSupervisor.LoopSystem
