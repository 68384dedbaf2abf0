import JobSupervisor.Proofs.LoopShutdown

/-!
# Stopping the loops and the endpoint

The main task of a daemon waits for a stop signal.  Then it triggers the shutdown, waits for one
loop after the other to end, and at last waits for the endpoint.  The loops and the endpoint are
tasks of their own and all listen to the same shutdown, so what main waits for first need not
stop first.  An endpoint that has heard of the shutdown accepts no connection any more; it stops
when those that it had accepted are closed.

## Main definitions

* `EndpointStage`, `MainStage` — how far the endpoint and the main task are.
* `StopSystem`, `StopSystem.step`, `StopSystem.run` — main, the loops and the endpoint.
* `StopSystem.Sound` — the invariant, with `Sound.step` and `Sound.run`.
* `StopSystem.InOrder`, `StopSystem.PollsLast` — the endpoint refuses no connection before every
  loop has ended; it polls after the signal only when every loop has ended.
* `StopSystem.Sound.inOrder_iff`, `StopSystem.forall_inOrder_iff` — the two are the same, and
  nothing sees to them but the absence of loops.
-/

namespace JobSupervisor

/-! ## Before the trigger -/

namespace Shutdown

/-- Nothing was triggered, and a coordinator is left that could do it. -/
structure Quiet (sd : Shutdown) : Prop where
  untriggered : sd.triggered = false
  coordinator : 0 < sd.coordinators
  inboxes : ∀ l ∈ sd.listeners, l.unread = false

variable {sd : Shutdown}

theorem quiet_new : Shutdown.new.Quiet := ⟨rfl, Nat.one_pos, by simp [new]⟩

theorem Quiet.subscribe (h : sd.Quiet) : sd.subscribe.2.Quiet where
  untriggered := h.untriggered
  coordinator := h.coordinator
  inboxes l hl := by
    rcases List.mem_append.1 hl with hl | hl
    · exact h.inboxes l hl
    · rw [List.mem_singleton.1 hl]

/-- Before the trigger no poll is ready. -/
theorem Quiet.poll (h : sd.Quiet) (id : ListenerId) : sd.poll id = (false, sd) := by
  simp only [Shutdown.poll, h.untriggered, Bool.false_eq_true, if_false, receive]
  split
  · rename_i l hl
    simp [h.inboxes l (List.mem_of_find?_eq_some hl), Nat.ne_of_gt h.coordinator]
  · rfl

end Shutdown

namespace LoopSystem

variable {β : Type} {s : LoopSystem β}

/-- Starting loops only subscribes. -/
theorem quiet_startLoops (c : Scheduler β) (now : Instant) (jobs : List (ScheduledJob β))
    {sd : Shutdown} (h : sd.Quiet) : (c.startLoops now jobs sd).2.Quiet := by
  induction jobs generalizing sd with
  | nil => exact h
  | cons job jobs ih => exact ih h.subscribe

/-- Before the trigger a selection leaves the shutdown alone. -/
theorem shutdown_select (h : s.shutdown.Quiet) (i : Nat) (timerFirst : Bool) :
    (s.step (.select i timerFirst)).shutdown = s.shutdown := by
  cases hi : s.tasks[i]? with
  | none => simp [step, hi]
  | some t =>
      by_cases ht : t.Waits
      · rw [step_select hi ht, resolve, h.poll]
        simp only [Bool.false_eq_true, if_false]
        split <;> rfl
      · simp [step, hi, ht]

theorem shutdown_finish (s : LoopSystem β) (i : Nat) (fired : Fired) :
    (s.step (.finish i fired)).shutdown = s.shutdown := by
  simp only [step]
  repeat' split
  all_goals rfl

theorem length_select (s : LoopSystem β) (i : Nat) (timerFirst : Bool) :
    (s.step (.select i timerFirst)).tasks.length = s.tasks.length := by
  simp only [step, resolve, hear, setTask]
  repeat' split
  all_goals simp

theorem length_finish (s : LoopSystem β) (i : Nat) (fired : Fired) :
    (s.step (.finish i fired)).tasks.length = s.tasks.length := by
  simp only [step, setTask]
  repeat' split
  all_goals simp

/-- A loop that is started waits. -/
theorem waits_of_start (c : Scheduler β) (now : Instant) :
    ∀ t ∈ ((initial now).step (.start c)).tasks, t.Waits := by
  have hloops (jobs : List (ScheduledJob β)) (sd : Shutdown) :
      ∀ l ∈ (c.startLoops now jobs sd).1, l.phase.isAlive = true := by
    induction jobs generalizing sd with
    | nil => simp [Scheduler.startLoops]
    | cons job jobs ih =>
        refine List.forall_mem_cons.2 ⟨?_, ih sd.subscribe.2⟩
        simp only [TriggerLoop.begin]
        split <;> rfl
  intro t ht
  simp only [step, initial, List.nil_append, List.mem_map] at ht
  obtain ⟨l, hl, rfl⟩ := ht
  exact ⟨rfl, hloops c.jobs .new l hl⟩

instance (s : LoopSystem β) (i : Nat) : Decidable (s.Ended i) :=
  decidable_of_iff (∃ t ∈ s.tasks[i]?, t.running = false ∧ t.loop.phase.isAlive = false) Iff.rfl

/-- Every loop has ended, with no run in flight. -/
def AllEnded (s : LoopSystem β) : Prop := ∀ i < s.tasks.length, s.Ended i

instance (s : LoopSystem β) : Decidable s.AllEnded := inferInstanceAs (Decidable (∀ i < _, _))

end LoopSystem

/-! ## Main, the loops and the endpoint -/

/-- How far the endpoint is. -/
inductive EndpointStage where
  /-- It accepts connections, and polls its listener. -/
  | serving (listener : ListenerId)
  /-- It accepts none any more, and finishes those that it has. -/
  | draining
  | stopped
  deriving DecidableEq

/-- Whether the endpoint accepts connections. -/
def EndpointStage.accepts : EndpointStage → Bool
  | .serving _ => true
  | .draining | .stopped => false

/-- How far the main task is. -/
inductive MainStage where
  /-- It waits for the stop signal. -/
  | waiting
  /-- It waits for a loop to end. -/
  | joining (loop : Nat)
  /-- It waits for the endpoint to stop. -/
  | closing
  | done
  deriving DecidableEq

/-- Main has waited for a loop. -/
def MainStage.HasJoined (i : Nat) : MainStage → Prop
  | .waiting => False
  | .joining loop => i < loop
  | .closing | .done => True

/-- The loops with their shutdown, the endpoint with the number of its connections, and main. -/
structure StopSystem (β : Type) where
  loops : LoopSystem β
  endpoint : EndpointStage
  connections : Nat
  main : MainStage

namespace StopSystem

variable {β : Type}

/-- What happens to the loops by themselves: time passes, a loop selects, and a run ends. -/
inductive LoopMove where
  | pass (d : Duration)
  | select (i : Nat) (timerFirst : Bool)
  | finish (i : Nat) (fired : Fired)

/-- The move among those of loops. -/
def LoopMove.move : LoopMove → LoopSystem.Move β
  | .pass d => .pass d
  | .select i timerFirst => .select i timerFirst
  | .finish i fired => .finish i fired

/-- A single step of a loop, of main, of the endpoint, or of somebody who connects to it. -/
inductive Move where
  | loop (m : LoopMove)
  /-- Main gets the stop signal and triggers the shutdown. -/
  | signal
  /-- Main goes on if what it waits for has come. -/
  | join
  /-- The endpoint looks at the shutdown. -/
  | poll
  | connect
  | disconnect
  /-- The endpoint stops if it has no connection left. -/
  | close

/-- The loops of a scheduler as they are started, and an endpoint that is served after them. -/
def start (c : Scheduler β) (now : Instant) : StopSystem β :=
  let loops := (LoopSystem.initial now).step (.start c)
  let (id, sd) := loops.shutdown.subscribe
  ⟨{ loops with shutdown := sd }, .serving id, 0, .waiting⟩

/-- Main goes on if the loop or the endpoint that it waits for has ended. -/
def join (s : StopSystem β) : StopSystem β :=
  match s.main with
  | .joining i =>
      match s.loops.tasks[i]? with
      | some t =>
          if t.running = false ∧ t.loop.phase.isAlive = false then
            { s with main := .joining (i + 1) }
          else s
      | none => { s with main := .closing }
  | .closing => if s.endpoint = .stopped then { s with main := .done } else s
  | .waiting | .done => s

/-- The endpoint polls its listener, which goes away when it has heard of the shutdown. -/
def poll (s : StopSystem β) : StopSystem β :=
  match s.endpoint with
  | .serving id =>
      let (ready, sd) := s.loops.shutdown.poll id
      if ready then
        { s with loops := { s.loops with shutdown := sd.dropListener id }, endpoint := .draining }
      else { s with loops := { s.loops with shutdown := sd } }
  | .draining | .stopped => s

/-- The system after a move; a move that cannot be made changes nothing. -/
def step (m : Move) (s : StopSystem β) : StopSystem β :=
  match m with
  | .loop m => { s with loops := s.loops.step m.move }
  | .signal =>
      if s.main = .waiting then { s with loops := s.loops.step .trigger, main := .joining 0 } else s
  | .join => s.join
  | .poll => s.poll
  | .connect => if s.endpoint.accepts then { s with connections := s.connections + 1 } else s
  | .disconnect => { s with connections := s.connections - 1 }
  | .close =>
      if s.endpoint = .draining ∧ s.connections = 0 then { s with endpoint := .stopped } else s

/-- The system after moves one after the other. -/
def run (moves : List Move) (s : StopSystem β) : StopSystem β :=
  moves.foldl (fun s m => s.step m) s

@[simp] theorem run_nil (s : StopSystem β) : s.run [] = s := rfl

@[simp] theorem run_cons (m : Move) (moves : List Move) (s : StopSystem β) :
    s.run (m :: moves) = (s.step m).run moves := rfl

variable {s : StopSystem β}

/-! ## The single moves -/

/-- An endpoint that hears of the shutdown accepts no connection any more. -/
theorem poll_of_triggered (h : s.loops.shutdown.triggered = true) {id : ListenerId}
    (hid : s.endpoint = .serving id) :
    s.poll = { s with
      loops := { s.loops with shutdown := s.loops.shutdown.dropListener id }
      endpoint := .draining } := by
  simp [poll, hid, Shutdown.poll_of_triggered _ _ h]

/-- Before the trigger the endpoint hears of nothing. -/
theorem poll_of_quiet (h : s.loops.shutdown.Quiet) : s.poll = s := by
  rw [poll]
  split
  · rw [h.poll]
    rfl
  · rfl
  · rfl

/-- A poll concerns only the shutdown and the endpoint. -/
theorem exists_poll_eq (s : StopSystem β) : ∃ sd stage,
    s.poll = { s with loops := { s.loops with shutdown := sd }, endpoint := stage } := by
  rw [poll]
  split
  · simp only
    split <;> exact ⟨_, _, rfl⟩
  · exact ⟨_, _, rfl⟩
  · exact ⟨_, _, rfl⟩

@[simp] theorem tasks_poll (s : StopSystem β) : s.poll.loops.tasks = s.loops.tasks := by
  obtain ⟨sd, stage, h⟩ := s.exists_poll_eq
  rw [h]

@[simp] theorem main_poll (s : StopSystem β) : s.poll.main = s.main := by
  obtain ⟨sd, stage, h⟩ := s.exists_poll_eq
  rw [h]

/-- Main goes on from a loop that has ended, from the last loop, and from the endpoint when it has
stopped. -/
theorem join_cases (s : StopSystem β) :
    s.join = s ∨
    (∃ i, s.main = .joining i ∧ s.loops.Ended i ∧ s.join = { s with main := .joining (i + 1) }) ∨
    (∃ i, s.main = .joining i ∧ s.loops.tasks.length ≤ i ∧ s.join = { s with main := .closing }) ∨
    (s.main = .closing ∧ s.endpoint = .stopped ∧ s.join = { s with main := .done }) := by
  cases hmain : s.main with
  | waiting | done => exact .inl (by simp [join, hmain])
  | joining i =>
      cases ht : s.loops.tasks[i]? with
      | none =>
          have hle : s.loops.tasks.length ≤ i := List.getElem?_eq_none_iff.1 ht
          exact .inr (.inr (.inl ⟨i, rfl, hle, by simp [join, hmain, ht]⟩))
      | some t =>
          by_cases hended : t.running = false ∧ t.loop.phase.isAlive = false
          · exact .inr (.inl ⟨i, rfl, ⟨t, ht, hended⟩, by simp [join, hmain, ht, hended]⟩)
          · exact .inl (by simp only [join, hmain, ht, if_neg hended])
  | closing =>
      by_cases hstopped : s.endpoint = .stopped
      · exact .inr (.inr (.inr ⟨rfl, hstopped, by simp [join, hmain, hstopped]⟩))
      · exact .inl (by simp [join, hmain, hstopped])

@[simp] theorem loops_join (s : StopSystem β) : s.join.loops = s.loops := by
  rcases s.join_cases with h | ⟨i, -, -, h⟩ | ⟨i, -, -, h⟩ | ⟨-, -, h⟩ <;> rw [h]

@[simp] theorem endpoint_join (s : StopSystem β) : s.join.endpoint = s.endpoint := by
  rcases s.join_cases with h | ⟨i, -, -, h⟩ | ⟨i, -, -, h⟩ | ⟨-, -, h⟩ <;> rw [h]

/-- Only a poll keeps the endpoint from accepting connections. -/
theorem accepts_step {m : Move} (hm : m ≠ .poll) (s : StopSystem β) :
    (s.step m).endpoint.accepts = s.endpoint.accepts := by
  cases m with
  | poll => exact absurd rfl hm
  | join => simp [step]
  | close =>
      simp only [step]
      split
      · simp_all [EndpointStage.accepts]
      · rfl
  | signal | connect =>
      simp only [step]
      split <;> rfl
  | loop m | disconnect => rfl

/-- An endpoint that refuses connections does so from then on. -/
theorem refuses_step (h : s.endpoint.accepts = false) (m : Move) :
    (s.step m).endpoint.accepts = false := by
  by_cases hm : m = .poll
  · subst hm
    cases hid : s.endpoint with
    | serving id => simp [hid, EndpointStage.accepts] at h
    | draining | stopped => simp [step, poll, hid, EndpointStage.accepts]
  · rwa [accepts_step hm]

theorem refuses_run (h : s.endpoint.accepts = false) (moves : List Move) :
    (s.run moves).endpoint.accepts = false := by
  induction moves generalizing s with
  | nil => exact h
  | cons m moves ih => exact ih (refuses_step h m)

theorem length_loopMove (m : LoopMove) (s : LoopSystem β) :
    (s.step m.move).tasks.length = s.tasks.length := by
  cases m with
  | pass d => rfl
  | select i timerFirst => exact s.length_select i timerFirst
  | finish i fired => exact s.length_finish i fired

/-- No loop comes or goes. -/
theorem length_step (m : Move) (s : StopSystem β) :
    (s.step m).loops.tasks.length = s.loops.tasks.length := by
  cases m with
  | loop m => exact length_loopMove m s.loops
  | poll => simp [step]
  | join => simp [step]
  | signal | connect | close =>
      simp only [step]
      split <;> rfl
  | disconnect => rfl

/-- A loop that has ended stays so. -/
theorem ended_step {i : Nat} (h : s.loops.Ended i) (m : Move) : (s.step m).loops.Ended i := by
  cases m with
  | loop m => exact h.step m.move
  | poll => simpa only [LoopSystem.Ended, step, tasks_poll] using h
  | join => simpa only [step, loops_join] using h
  | signal =>
      simp only [step]
      split
      · exact h.step .trigger
      · exact h
  | connect | close =>
      simp only [step]
      split <;> exact h
  | disconnect => exact h

theorem allEnded_step (h : s.loops.AllEnded) (m : Move) : (s.step m).loops.AllEnded :=
  fun i hi => ended_step (h i (by rwa [length_step] at hi)) m

/-! ## The invariant -/

/-- The invariant: the shutdown is triggered by the signal and not before, the endpoint accepts
connections until then, the loops that main has waited for have ended, and main is done only
after the endpoint. -/
structure Sound (s : StopSystem β) : Prop where
  quiet : s.main = .waiting → s.loops.shutdown.Quiet
  triggered : s.main ≠ .waiting → s.loops.shutdown.triggered = true
  accepts : s.main = .waiting → s.endpoint.accepts = true
  joined : ∀ i < s.loops.tasks.length, s.main.HasJoined i → s.loops.Ended i
  stopped : s.main = .done → s.endpoint = .stopped

theorem sound_start (c : Scheduler β) (now : Instant) : (start c now).Sound where
  quiet _ := (LoopSystem.quiet_startLoops c now c.jobs Shutdown.quiet_new).subscribe
  triggered h := absurd rfl h
  accepts _ := rfl
  joined _ _ h := h.elim
  stopped h := by simp [start] at h

theorem Sound.loop (hs : s.Sound) (m : LoopMove) : (s.step (.loop m)).Sound where
  quiet h := by
    have hquiet := hs.quiet h
    cases m with
    | pass d => exact hquiet
    | select i timerFirst =>
        exact (LoopSystem.shutdown_select hquiet i timerFirst).symm ▸ hquiet
    | finish i fired => exact (s.loops.shutdown_finish i fired).symm ▸ hquiet
  triggered h := LoopSystem.triggered_step (hs.triggered h) m.move
  accepts := hs.accepts
  joined i hi h := (hs.joined i (by rwa [length_step] at hi) h).step m.move
  stopped := hs.stopped

theorem Sound.signal (hs : s.Sound) : (s.step .signal).Sound := by
  simp only [StopSystem.step]
  split
  · exact {
      quiet := fun h => by simp at h
      triggered := fun _ => s.loops.shutdown.triggered_trigger
      accepts := fun h => by simp at h
      joined := fun i _ h => absurd h (Nat.not_lt_zero i)
      stopped := fun h => by simp at h }
  · exact hs

/-- Main goes on after the signal, when what it waits for has ended. -/
theorem Sound.proceed (hs : s.Sound) (hmain : s.main ≠ .waiting) {stage : MainStage}
    (hstage : stage ≠ .waiting)
    (hjoined : ∀ i < s.loops.tasks.length, stage.HasJoined i → s.loops.Ended i)
    (hstopped : stage = .done → s.endpoint = .stopped) : ({ s with main := stage }).Sound where
  quiet h := absurd h hstage
  triggered _ := hs.triggered hmain
  accepts h := absurd h hstage
  joined := hjoined
  stopped := hstopped

theorem Sound.join (hs : s.Sound) : (s.step .join).Sound := by
  rw [StopSystem.step]
  rcases s.join_cases with h | ⟨i, hmain, hended, h⟩ | ⟨i, hmain, hle, h⟩ |
      ⟨hmain, hstopped, h⟩ <;> rw [h]
  · exact hs
  · refine hs.proceed (by simp [hmain]) (by simp) (fun j hj hlt => ?_) (by simp)
    rcases Nat.lt_succ_iff_lt_or_eq.1 hlt with hlt | rfl
    · exact hs.joined j hj (hmain ▸ hlt)
    · exact hended
  · refine hs.proceed (by simp [hmain]) (by simp) (fun j hj _ => ?_) (by simp)
    have hlt : j < i := Nat.lt_of_lt_of_le hj hle
    exact hs.joined j hj (hmain ▸ hlt)
  · exact hs.proceed (by simp [hmain]) (by simp) (fun j hj _ => hs.joined j hj (hmain ▸ trivial))
      fun _ => hstopped

/-- Before the signal the endpoint hears of nothing, and after it main is not done as long as the
endpoint serves. -/
theorem Sound.poll (hs : s.Sound) : (s.step .poll).Sound := by
  by_cases hmain : s.main = .waiting
  · rwa [StopSystem.step, poll_of_quiet (hs.quiet hmain)]
  · cases hid : s.endpoint with
    | serving id =>
        rw [StopSystem.step, poll_of_triggered (hs.triggered hmain) hid]
        exact { hs with
          quiet := fun h => absurd h hmain
          triggered := fun _ => hs.triggered hmain
          accepts := fun h => absurd h hmain
          stopped := fun h => by simpa [hid] using hs.stopped h }
    | draining | stopped => simpa only [StopSystem.step, StopSystem.poll, hid] using hs

theorem Sound.close (hs : s.Sound) : (s.step .close).Sound := by
  simp only [StopSystem.step]
  split
  · rename_i hclose
    exact { hs with
      accepts := fun h => by simpa [hclose.1, EndpointStage.accepts] using hs.accepts h
      stopped := fun _ => rfl }
  · exact hs

/-- Every move keeps the invariant. -/
theorem Sound.step (hs : s.Sound) (m : Move) : (s.step m).Sound := by
  cases m with
  | loop m => exact hs.loop m
  | signal => exact hs.signal
  | join => exact hs.join
  | poll => exact hs.poll
  | close => exact hs.close
  | connect =>
      simp only [StopSystem.step]
      split
      · exact { hs with }
      · exact hs
  | disconnect => exact { hs with }

/-- **Steps in any order keep the invariant.** -/
theorem Sound.run (hs : s.Sound) (moves : List Move) : (s.run moves).Sound := by
  induction moves generalizing s with
  | nil => exact hs
  | cons m moves ih => exact ih (hs.step m)

/-! ## The order -/

/-- A poll leaves the endpoint accepting connections exactly before the signal. -/
theorem Sound.accepts_poll (hs : s.Sound) :
    (s.step .poll).endpoint.accepts = true ↔ s.main = .waiting := by
  refine ⟨fun h => ?_, fun hmain => hs.poll.accepts (by simpa [StopSystem.step] using hmain)⟩
  by_contra hmain
  cases hid : s.endpoint with
  | serving id =>
      rw [StopSystem.step, poll_of_triggered (hs.triggered hmain) hid] at h
      simp [EndpointStage.accepts] at h
  | draining | stopped => simp [StopSystem.step, StopSystem.poll, hid, EndpointStage.accepts] at h

/-- After the signal, the endpoint refuses connections from its first poll on. -/
theorem Sound.refuses_poll (hs : s.Sound) (hmain : s.main ≠ .waiting) (later : List Move) :
    ((s.step .poll).run later).endpoint.accepts = false :=
  refuses_run (Bool.eq_false_iff.2 fun h => hmain (hs.accepts_poll.1 h)) later

/-- Main is done only when every loop has ended and the endpoint has stopped. -/
theorem Sound.ended_of_done (hs : s.Sound) (h : s.main = .done) :
    s.loops.AllEnded ∧ s.endpoint = .stopped :=
  ⟨fun i hi => hs.joined i hi (h ▸ trivial), hs.stopped h⟩

/-- The endpoint refuses connections only if every loop has ended. -/
def Orderly (s : StopSystem β) : Prop := s.endpoint.accepts = false → s.loops.AllEnded

/-- All along, the endpoint refuses no connection before every loop has ended. -/
def InOrder : List Move → StopSystem β → Prop
  | [], s => s.Orderly
  | m :: moves, s => s.Orderly ∧ InOrder moves (s.step m)

/-- Whenever the endpoint polls after the signal, every loop has ended. -/
def PollsLast : List Move → StopSystem β → Prop
  | [], _ => True
  | m :: moves, s =>
      (m = .poll → s.main ≠ .waiting → s.loops.AllEnded) ∧ PollsLast moves (s.step m)

instance (s : StopSystem β) : Decidable s.Orderly := inferInstanceAs (Decidable (_ → _))

instance decidableInOrder : (moves : List Move) → (s : StopSystem β) → Decidable (s.InOrder moves)
  | [], s => inferInstanceAs (Decidable s.Orderly)
  | m :: moves, s =>
      have := decidableInOrder moves (s.step m)
      inferInstanceAs (Decidable (_ ∧ _))

theorem orderly_start (c : Scheduler β) (now : Instant) : (start c now).Orderly := by
  intro h
  simp [start, EndpointStage.accepts] at h

theorem InOrder.orderly {moves : List Move} (h : s.InOrder moves) : s.Orderly := by
  cases moves with
  | nil => exact h
  | cons m moves => exact h.1

/-- A move keeps the order unless it is a poll after the signal and before the end of a loop. -/
theorem Sound.orderly_step_iff (hs : s.Sound) (horderly : s.Orderly) (m : Move) :
    (s.step m).Orderly ↔ (m = .poll → s.main ≠ .waiting → s.loops.AllEnded) := by
  by_cases hm : m = .poll
  · subst hm
    have hrefuses : (s.step .poll).endpoint.accepts = false ↔ s.main ≠ .waiting := by
      rw [← Bool.not_eq_true, hs.accepts_poll]
    have hended : (s.step .poll).loops.AllEnded ↔ s.loops.AllEnded := by
      simp only [LoopSystem.AllEnded, LoopSystem.Ended, StopSystem.step, tasks_poll]
    rw [Orderly, hrefuses, hended]
    exact ⟨fun h _ => h, fun h => h rfl⟩
  · refine ⟨fun _ h => absurd h hm, fun _ hrefuses => allEnded_step (horderly ?_) m⟩
    rwa [accepts_step hm] at hrefuses

/-- **The order is kept exactly if the endpoint polls last.** -/
theorem Sound.inOrder_iff (hs : s.Sound) (horderly : s.Orderly) (moves : List Move) :
    s.InOrder moves ↔ s.PollsLast moves := by
  induction moves generalizing s with
  | nil => exact ⟨fun _ => trivial, fun _ => horderly⟩
  | cons m moves ih =>
      have hstep := hs.orderly_step_iff horderly m
      constructor
      · rintro ⟨-, h⟩
        exact ⟨hstep.1 h.orderly, (ih (hs.step m) h.orderly).1 h⟩
      · rintro ⟨hm, h⟩
        exact ⟨horderly, (ih (hs.step m) (hstep.2 hm)).2 h⟩

/-- Without a loop the order is kept. -/
theorem inOrder_of_no_loop (h : s.loops.tasks.length = 0) (moves : List Move) :
    s.InOrder moves := by
  have horderly (s : StopSystem β) (h : s.loops.tasks.length = 0) : s.Orderly :=
    fun _ i hi => absurd hi (by omega)
  induction moves generalizing s with
  | nil => exact horderly s h
  | cons m moves ih => exact ⟨horderly s h, ih (by rwa [length_step])⟩

/-- Every order of the steps keeps the order of the stops only if there is no loop: with one, the
endpoint can poll as soon as main has triggered the shutdown. -/
theorem forall_inOrder_iff (c : Scheduler β) (now : Instant) :
    (∀ moves, (start c now).InOrder moves) ↔ c.jobs = [] := by
  have hlength : (start c now).loops.tasks.length = c.jobs.length := by
    have h := congrArg List.length (LoopSystem.standings_start c now)
    simpa [LoopSystem.standings, start] using h
  refine ⟨fun h => ?_, fun h => inOrder_of_no_loop (by rw [hlength, h]; rfl)⟩
  by_contra hjobs
  have hpolls := ((sound_start c now).inOrder_iff (orderly_start c now) _).1 (h [.signal, .poll])
  have hlt : 0 < (start c now).loops.tasks.length := by
    rw [hlength]
    exact List.length_pos_of_ne_nil hjobs
  obtain ⟨t, ht, hrunning, halive⟩ := hpolls.2.1 rfl (by simp [step, start]) 0 hlt
  have hwaits := LoopSystem.waits_of_start c now t (List.mem_of_getElem? ht)
  exact Bool.false_ne_true (halive.symm.trans hwaits.2)

end StopSystem

end JobSupervisor
