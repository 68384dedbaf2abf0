/-!
# The shutdown signal

A shutdown is a flag that is set once and never cleared, together with one broadcast to
the listeners that exist when it is sent.  Setting the flag and sending are two steps;
only the call that found the flag unset sends.  A listener's poll also takes two steps:
it reads the flag, and if the flag was unset it looks into its inbox.  A poll is ready
when the flag is set, when a broadcast lies in the inbox, or when no coordinator is left
that could still send one.

## Main definitions

* `Shutdown` — the flag, the live coordinators, and the inboxes of the live listeners.
* `Shutdown.setFlag`, `Shutdown.send` — the steps of `Shutdown.trigger`.
* `Shutdown.receive` — the second step of `Shutdown.poll`.
-/

namespace JobSupervisor

/-- The identity of a listener. -/
abbrev ListenerId := Nat

/-- A listener and whether a broadcast waits in its inbox. -/
structure Listener where
  id : ListenerId
  unread : Bool
  deriving DecidableEq, Repr

/-- The state that coordinators and listeners share. -/
structure Shutdown where
  triggered : Bool
  coordinators : Nat
  listeners : List Listener
  nextListener : ListenerId
  broadcasts : Nat
  deriving DecidableEq, Repr

namespace Shutdown

/-- A new shutdown with one coordinator and no listener. -/
def new : Shutdown := ⟨false, 1, [], 0, 0⟩

/-- The number of live listeners. -/
def receivers (s : Shutdown) : Nat := s.listeners.length

/-- A new listener; its inbox is empty. -/
def subscribe (s : Shutdown) : ListenerId × Shutdown :=
  (s.nextListener,
    { s with listeners := s.listeners ++ [⟨s.nextListener, false⟩],
             nextListener := s.nextListener + 1 })

/-- One more coordinator. -/
def addCoordinator (s : Shutdown) : Shutdown := { s with coordinators := s.coordinators + 1 }

/-- One coordinator less. -/
def dropCoordinator (s : Shutdown) : Shutdown := { s with coordinators := s.coordinators - 1 }

/-- A listener goes away. -/
def dropListener (s : Shutdown) (id : ListenerId) : Shutdown :=
  { s with listeners := s.listeners.filter (fun l => l.id ≠ id) }

/-- Sets the flag; the answer is its value before. -/
def setFlag (s : Shutdown) : Bool × Shutdown := (s.triggered, { s with triggered := true })

/-- Puts a broadcast into the inbox of every live listener. -/
def send (s : Shutdown) : Shutdown :=
  { s with listeners := s.listeners.map fun l => { l with unread := true },
           broadcasts := s.broadcasts + 1 }

/-- Sets the flag and, if it was unset, sends the broadcast; the answer is the number of
listeners to which it was sent. -/
def trigger (s : Shutdown) : Option Nat × Shutdown :=
  match s.setFlag with
  | (true, s) => (none, s)
  | (false, s) => (some s.receivers, s.send)

/-- Looks into the inbox of a listener: ready with a broadcast, which is taken out, and
ready without one if no coordinator is left. -/
def receive (s : Shutdown) (id : ListenerId) : Bool × Shutdown :=
  match s.listeners.find? (fun l => l.id = id) with
  | some l =>
      if l.unread then
        (true, { s with listeners := s.listeners.map fun l =>
          if l.id = id then { l with unread := false } else l })
      else (s.coordinators = 0, s)
  | none => (false, s)

/-- Whether a poll of a listener is ready: the flag first, then the inbox. -/
def poll (s : Shutdown) (id : ListenerId) : Bool × Shutdown :=
  if s.triggered then (true, s) else s.receive id

/-- Once the flag is set every poll is ready and nothing changes. -/
theorem poll_of_triggered (s : Shutdown) (id : ListenerId) (h : s.triggered = true) :
    s.poll id = (true, s) := by
  simp [poll, h]

/-- Subscribing adds one to the number of live listeners. -/
@[simp] theorem receivers_subscribe (s : Shutdown) :
    s.subscribe.2.receivers = s.receivers + 1 := by
  simp [subscribe, receivers]

/-- After a trigger the flag is set. -/
@[simp] theorem triggered_trigger (s : Shutdown) : s.trigger.2.triggered = true := by
  unfold trigger setFlag
  cases s.triggered <;> rfl

/-- A broadcast reaches the listeners and takes none away. -/
@[simp] theorem receivers_send (s : Shutdown) : s.send.receivers = s.receivers := by
  simp [send, receivers]

/-- Once the flag is set a further trigger changes nothing. -/
theorem trigger_of_triggered {s : Shutdown} (h : s.triggered = true) :
    s.trigger = (none, s) := by
  cases s
  simp_all [trigger, setFlag]

/-- Without a coordinator every poll of a live listener is ready. -/
theorem poll_of_no_coordinator {s : Shutdown} {id : ListenerId} (h : s.coordinators = 0)
    (hl : (s.listeners.find? fun l => l.id = id).isSome) : (s.poll id).1 = true := by
  obtain ⟨l, hl⟩ := Option.isSome_iff_exists.1 hl
  unfold poll receive
  rw [hl]
  by_cases ht : s.triggered = true
  · simp [ht]
  · by_cases hu : l.unread = true <;> simp [ht, hu, h]

end Shutdown

end JobSupervisor
