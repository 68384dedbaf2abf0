import JobSupervisor.Shutdown
import Mathlib.Logic.Function.Basic

/-!
# Coordinators and listeners in any order

Coordinators and listeners share a shutdown, and anything can happen between the steps that
they take.  A call of the trigger sets the flag, and if it found the flag unset it sends the
broadcast in a second step.  A poll of a listener reads the flag, and if that is unset it looks
into its inbox in a second step; a poll that finds nothing there waits, and looks again until it
is ready or given up.

## Main definitions

* `TriggerCall` — how far a call of the trigger is.
* `ShutdownSystem`, `ShutdownSystem.step`, `ShutdownSystem.run` — the calls and the listeners
  with their shutdown.
* `ShutdownSystem.finds` — whether a step of a poll finds it ready.
* `ShutdownSystem.shutdown_trigger`, `ShutdownSystem.shutdown_poll` — the steps undisturbed are
  a trigger and a poll.
-/

namespace JobSupervisor

/-- How far a call of the trigger is that has set the flag: it has still to send the broadcast,
or it has returned. -/
inductive TriggerCall where
  | sending
  | returned
  deriving DecidableEq

/-- A shutdown with the calls of the trigger in the order in which they set the flag, the
listeners that were handed out and are not dropped, which of them wait in a poll, and which had
a poll that was ready. -/
structure ShutdownSystem where
  shutdown : Shutdown
  calls : List TriggerCall
  handles : List ListenerId
  waiting : ListenerId → Bool
  heard : ListenerId → Bool

namespace ShutdownSystem

/-- A single step of a coordinator, of a call of the trigger, or of a listener. -/
inductive Move where
  | subscribe
  | clone
  | dropCoordinator
  | dropListener (id : ListenerId)
  /-- Somebody reads the flag. -/
  | look
  | setFlag
  | send (call : Nat)
  /-- The first step of a poll. -/
  | check (id : ListenerId)
  /-- The second step of a poll, made again as long as the poll waits. -/
  | receive (id : ListenerId)
  /-- A poll that waits is given up. -/
  | cancel (id : ListenerId)

/-- The system before anything happened. -/
def initial : ShutdownSystem := ⟨.new, [], [], fun _ => false, fun _ => false⟩

/-- The listener is alive and no poll of it waits. -/
def Rests (s : ShutdownSystem) (id : ListenerId) : Prop :=
  id ∈ s.handles ∧ s.waiting id = false

/-- The listener is alive and a poll of it has read the flag as unset and waits. -/
def Waits (s : ShutdownSystem) (id : ListenerId) : Prop :=
  id ∈ s.handles ∧ s.waiting id = true

instance (s : ShutdownSystem) (id : ListenerId) : Decidable (s.Rests id) :=
  inferInstanceAs (Decidable (_ ∧ _))

instance (s : ShutdownSystem) (id : ListenerId) : Decidable (s.Waits id) :=
  inferInstanceAs (Decidable (_ ∧ _))

/-- What a step of a poll finds: whether the poll is ready. -/
def finds (m : Move) (s : ShutdownSystem) : Option Bool :=
  match m with
  | .check id => if s.Rests id then some s.shutdown.triggered else none
  | .receive id => if s.Waits id then some (s.shutdown.receive id).1 else none
  | _ => none

/-- A poll of a listener begins to wait. -/
def await (id : ListenerId) (s : ShutdownSystem) : ShutdownSystem :=
  { s with waiting := Function.update s.waiting id true }

/-- A poll of a listener ends ready. -/
def conclude (id : ListenerId) (s : ShutdownSystem) : ShutdownSystem :=
  { s with waiting := Function.update s.waiting id false
           heard := Function.update s.heard id true }

/-- The system after a move; a move that cannot be made changes nothing.  Only a coordinator
can hand out a listener, be cloned or call the trigger. -/
def step (m : Move) (s : ShutdownSystem) : ShutdownSystem :=
  match m with
  | .subscribe =>
      if 0 < s.shutdown.coordinators then
        let (id, sd) := s.shutdown.subscribe
        { s with shutdown := sd, handles := s.handles ++ [id] }
      else s
  | .clone =>
      if 0 < s.shutdown.coordinators then { s with shutdown := s.shutdown.addCoordinator } else s
  | .dropCoordinator => { s with shutdown := s.shutdown.dropCoordinator }
  | .dropListener id =>
      if id ∈ s.handles then
        { s with shutdown := s.shutdown.dropListener id
                 handles := s.handles.erase id
                 waiting := Function.update s.waiting id false }
      else s
  | .look => s
  | .setFlag =>
      if 0 < s.shutdown.coordinators then
        let (found, sd) := s.shutdown.setFlag
        { s with shutdown := sd, calls := s.calls ++ [if found then .returned else .sending] }
      else s
  | .send call =>
      if s.calls[call]? = some .sending then
        { s with shutdown := s.shutdown.send, calls := s.calls.set call .returned }
      else s
  | .check id =>
      if s.Rests id then
        if s.shutdown.triggered then s.conclude id else s.await id
      else s
  | .receive id =>
      if s.Waits id then
        let (ready, sd) := s.shutdown.receive id
        if ready then { s with shutdown := sd }.conclude id else { s with shutdown := sd }
      else s
  | .cancel id => { s with waiting := Function.update s.waiting id false }

/-- The system after moves one after the other. -/
def run (moves : List Move) (s : ShutdownSystem) : ShutdownSystem :=
  moves.foldl (fun s m => s.step m) s

@[simp] theorem run_nil (s : ShutdownSystem) : s.run [] = s := rfl

@[simp] theorem run_cons (m : Move) (moves : List Move) (s : ShutdownSystem) :
    s.run (m :: moves) = (s.step m).run moves := rfl

/-- A system that moves can make. -/
def Reachable (s : ShutdownSystem) : Prop := ∃ moves, initial.run moves = s

/-! ## The single moves -/

variable {s : ShutdownSystem} {id : ListenerId}

theorem step_check_of_triggered (hid : s.Rests id) (ht : s.shutdown.triggered = true) :
    s.step (.check id) = s.conclude id := by
  simp [step, hid, ht]

theorem step_check_of_not_triggered (hid : s.Rests id) (ht : s.shutdown.triggered = false) :
    s.step (.check id) = s.await id := by
  simp [step, hid, ht]

theorem step_receive (hid : s.Waits id) :
    s.step (.receive id) =
      if (s.shutdown.receive id).1 then { s with shutdown := (s.shutdown.receive id).2 }.conclude id
      else { s with shutdown := (s.shutdown.receive id).2 } := by
  simp [step, hid]

/-- Undisturbed, the two steps of a call do to the shutdown what a trigger does. -/
theorem shutdown_trigger (hc : 0 < s.shutdown.coordinators) :
    (s.run [.setFlag, .send s.calls.length]).shutdown = s.shutdown.trigger.2 := by
  cases ht : s.shutdown.triggered <;>
    simp [step, hc, Shutdown.trigger, Shutdown.setFlag, ht]

/-- Undisturbed, the two steps of a poll do to the shutdown what a poll does, and the listener
waits after them exactly if the poll is not ready. -/
theorem shutdown_poll (hid : s.Rests id) :
    (s.run [.check id, .receive id]).shutdown = (s.shutdown.poll id).2 ∧
      (s.run [.check id, .receive id]).waiting id = !(s.shutdown.poll id).1 := by
  cases ht : s.shutdown.triggered with
  | true =>
      have hrest : ¬ (s.conclude id).Waits id := by simp [Waits, conclude]
      have hstep : (s.conclude id).step (.receive id) = s.conclude id := by
        simp only [step, if_neg hrest]
      rw [run_cons, step_check_of_triggered hid ht, run_cons, hstep, run_nil,
        Shutdown.poll_of_triggered _ _ ht]
      simp [conclude]
  | false =>
      have hwait : (s.await id).Waits id := ⟨hid.1, by simp [await]⟩
      have hpoll : s.shutdown.poll id = s.shutdown.receive id := by simp [Shutdown.poll, ht]
      rw [run_cons, step_check_of_not_triggered hid ht, run_cons, step_receive hwait, hpoll]
      cases hready : (s.shutdown.receive id).1 <;> simp [await, conclude, hready]

end ShutdownSystem

end JobSupervisor
