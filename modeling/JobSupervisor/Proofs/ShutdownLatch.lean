import JobSupervisor.Proofs.ShutdownSystem
import Mathlib.Data.List.Nodup

/-!
# The shutdown is latched and no wake-up is lost

A poll that reads the flag as unset goes on to its inbox, and the trigger may set the flag in
between.  That poll is not lost: its listener exists, so the broadcast still to be sent reaches
its inbox, and nobody takes it out of there but the poll itself.  Only the call that found the
flag unset sends, so a second call that returns at once does not mean that the broadcast is
sent.  A listener that took the broadcast out of its inbox does not miss it later, because the
flag is set by then and stays set.

## Main definitions

* `ShutdownSystem.Sent`, `ShutdownSystem.Over` — the broadcast is sent; the shutdown has begun,
  or no coordinator is left.
* `ShutdownSystem.Sound` — the invariant, with `Sound.step` and `Sound.run`.
* `ShutdownSystem.PollReady` — a poll that begins now is ready, whatever happens while it waits.
* `ShutdownSystem.latched` — what every poll finds.
-/

namespace JobSupervisor.ShutdownSystem

variable {s : ShutdownSystem} {id : ListenerId}

/-- The first call that set the flag has sent the broadcast and returned. -/
def Sent (s : ShutdownSystem) : Prop := s.calls.head? = some .returned

/-- Some call has set the flag, or no coordinator is left. -/
def Over (s : ShutdownSystem) : Prop := s.calls ≠ [] ∨ s.shutdown.coordinators = 0

instance (s : ShutdownSystem) : Decidable s.Sent := inferInstanceAs (Decidable (_ = _))

theorem Sent.calls_ne_nil (h : s.Sent) : s.calls ≠ [] := by
  intro hnil
  simp [Sent, hnil] at h

/-! ## The invariant -/

/-- The invariant: the listeners are those that were handed out, the flag tells whether a call
has set it, only the first call sends, and a broadcast that was sent lies in the inbox of every
listener that waits.  A listener that was ready waits again only without a coordinator. -/
structure Sound (s : ShutdownSystem) : Prop where
  ids : s.shutdown.listeners.map Listener.id = s.handles
  old : ∀ id ∈ s.handles, id < s.shutdown.nextListener
  distinct : s.handles.Nodup
  flag : s.shutdown.triggered = true ↔ s.calls ≠ []
  later : ∀ c ∈ s.calls.tail, c = .returned
  broadcasts : s.shutdown.broadcasts = if s.Sent then 1 else 0
  inbox : ∀ l ∈ s.shutdown.listeners, l.unread = true → s.Sent
  delivered : s.Sent → ∀ l ∈ s.shutdown.listeners, s.waiting l.id = true → l.unread = true
  waiting_mem : ∀ id, s.waiting id = true → id ∈ s.handles
  heard_over : ∀ id, s.heard id = true → s.Over
  heard_waiting : ∀ id, s.heard id = true → s.waiting id = true → s.shutdown.coordinators = 0

theorem sound_initial : initial.Sound where
  ids := rfl
  old _ h := by simp [initial] at h
  distinct := List.nodup_nil
  flag := by simp [initial, Shutdown.new]
  later _ h := by simp [initial] at h
  broadcasts := rfl
  inbox _ h := by simp [initial, Shutdown.new] at h
  delivered _ _ h := by simp [initial, Shutdown.new] at h
  waiting_mem _ h := by simp [initial] at h
  heard_over _ h := by simp [initial] at h
  heard_waiting _ h := by simp [initial] at h

/-- A new listener has a new identity, and no poll of it waits. -/
theorem Sound.subscribe (hs : s.Sound) : (s.step .subscribe).Sound := by
  by_cases hc : 0 < s.shutdown.coordinators
  · simp only [step, if_pos hc, Shutdown.subscribe]
    have hnew : s.shutdown.nextListener ∉ s.handles := fun h => Nat.lt_irrefl _ (hs.old _ h)
    have hrest : s.waiting s.shutdown.nextListener = false :=
      Bool.eq_false_iff.2 fun h => hnew (hs.waiting_mem _ h)
    refine { hs with ids := ?_, old := fun id hid => ?_, distinct := ?_, inbox := fun l hl hu => ?_,
                     delivered := fun hsent l hl hw => ?_, waiting_mem := fun id hid => ?_ }
    · simp [hs.ids]
    · rcases List.mem_append.1 hid with hid | hid
      · exact Nat.lt_succ_of_lt (hs.old id hid)
      · simp_all
    · exact List.nodup_append'.2 ⟨hs.distinct, List.nodup_singleton _, by simpa using hnew⟩
    · rcases List.mem_append.1 hl with hl | hl
      · exact hs.inbox l hl hu
      · simp_all
    · rcases List.mem_append.1 hl with hl | hl
      · exact hs.delivered hsent l hl hw
      · simp_all
    · exact List.mem_append_left _ (hs.waiting_mem id hid)
  · simpa only [step, if_neg hc] using hs

/-- A clone is made by a coordinator, so one is left that was there before. -/
theorem Sound.clone (hs : s.Sound) : (s.step .clone).Sound := by
  by_cases hc : 0 < s.shutdown.coordinators
  · simp only [step, if_pos hc]
    refine { hs with heard_over := fun id h => ?_, heard_waiting := fun id h hw => ?_ }
    · exact (hs.heard_over id h).imp_right fun h0 => absurd h0 (Nat.ne_of_gt hc)
    · exact absurd (hs.heard_waiting id h hw) (Nat.ne_of_gt hc)
  · simpa only [step, if_neg hc] using hs

theorem Sound.dropCoordinator (hs : s.Sound) : (s.step .dropCoordinator).Sound := by
  have hzero (h : s.shutdown.coordinators = 0) : s.shutdown.coordinators - 1 = 0 := by omega
  exact { hs with
    heard_over := fun id h => (hs.heard_over id h).imp_right hzero
    heard_waiting := fun id h hw => hzero (hs.heard_waiting id h hw) }

theorem Sound.dropListener (hs : s.Sound) (id : ListenerId) :
    (s.step (.dropListener id)).Sound := by
  by_cases hid : id ∈ s.handles
  · simp only [step, if_pos hid, Shutdown.dropListener]
    have hwait {other : ListenerId} (h : Function.update s.waiting id false other = true) :
        other ≠ id ∧ s.waiting other = true := by
      by_cases heq : other = id <;> simp_all
    refine { hs with
      ids := ?_
      old := fun other h => hs.old other (List.mem_of_mem_erase h)
      distinct := hs.distinct.erase id
      inbox := fun l hl => hs.inbox l (List.mem_of_mem_filter hl)
      delivered := fun hsent l hl hw =>
        hs.delivered hsent l (List.mem_of_mem_filter hl) (hwait hw).2
      waiting_mem := fun other h =>
        (List.mem_erase_of_ne (hwait h).1).2 (hs.waiting_mem other (hwait h).2)
      heard_waiting := fun other h hw => hs.heard_waiting other h (hwait hw).2 }
    rw [hs.distinct.erase_eq_filter, ← hs.ids, List.filter_map]
    exact congrArg _ (List.filter_congr fun l _ => Bool.eq_iff_iff.2 (by simp))
  · simpa only [step, if_neg hid] using hs

/-- The first call that sets the flag has still to send, and every further call returns. -/
theorem Sound.setFlag (hs : s.Sound) : (s.step .setFlag).Sound := by
  by_cases hc : 0 < s.shutdown.coordinators
  · simp only [step, if_pos hc, Shutdown.setFlag]
    cases hcalls : s.calls with
    | nil =>
        have ht : s.shutdown.triggered = false := by simpa [hcalls] using hs.flag
        have hsent : ¬ s.Sent := by simp [Sent, hcalls]
        simp only [ht]
        exact { hs with
          flag := by simp
          later := by simp
          broadcasts := by simpa [Sent, hcalls] using hs.broadcasts
          inbox := fun l hl hu => absurd (hs.inbox l hl hu) hsent
          delivered := fun h => by simp [Sent] at h
          heard_over := fun _ _ => .inl (by simp) }
    | cons first rest =>
        have ht : s.shutdown.triggered = true := hs.flag.2 (by simp [hcalls])
        have hiff : ({ s with
            shutdown := { s.shutdown with triggered := true }
            calls := first :: rest ++ [.returned] } : ShutdownSystem).Sent ↔ s.Sent := by
          simp [Sent, hcalls]
        simp only [ht, if_true]
        refine { hs with
          flag := by simp
          later := ?_
          broadcasts := by simpa [Sent, hcalls] using hs.broadcasts
          inbox := fun l hl hu => hiff.2 (hs.inbox l hl hu)
          delivered := fun h => hs.delivered (hiff.1 h)
          heard_over := fun _ _ => .inl (by simp) }
        have hlater := hs.later
        simp only [hcalls, List.tail_cons] at hlater
        simpa [or_imp, forall_and] using hlater
  · simpa only [step, if_neg hc] using hs

/-- Only the first call can be about to send. -/
theorem Sound.sending_first (hs : s.Sound) {call : Nat}
    (h : s.calls[call]? = some .sending) : call = 0 := by
  cases call with
  | zero => rfl
  | succ call =>
      have hmem : TriggerCall.sending ∈ s.calls.tail := by
        refine List.mem_of_getElem? (i := call) ?_
        simpa using h
      exact absurd (hs.later _ hmem) (by decide)

/-- The broadcast reaches every listener that there is. -/
theorem Sound.send (hs : s.Sound) (call : Nat) : (s.step (.send call)).Sound := by
  by_cases hcall : s.calls[call]? = some .sending
  · obtain rfl := hs.sending_first hcall
    cases hcalls : s.calls with
    | nil => simp [hcalls] at hcall
    | cons first rest =>
        obtain rfl : first = .sending := by simpa [hcalls] using hcall
        simp only [step, if_pos hcall, Shutdown.send]
        refine { hs with
          ids := by simpa [Function.comp_def] using hs.ids
          flag := by simpa [hcalls] using hs.flag
          later := by simpa [hcalls] using hs.later
          broadcasts := ?_
          inbox := fun _ _ _ => by simp [Sent, hcalls]
          delivered := fun _ l hl _ => ?_
          heard_over := fun _ _ => .inl (by simp [hcalls]) }
        · have hzero := hs.broadcasts
          simp only [Sent, hcalls, List.head?_cons] at hzero
          simp [Sent, hcalls, hzero]
        · obtain ⟨l, -, rfl⟩ := List.mem_map.1 hl
          rfl
  · simpa only [step, if_neg hcall] using hs

/-- A poll may begin to wait if the flag is unset. -/
theorem Sound.await (hs : s.Sound) (hid : s.Rests id) (ht : s.shutdown.triggered = false) :
    (s.await id).Sound := by
  have hcalls : s.calls = [] := by
    by_contra h
    simp [hs.flag.2 h] at ht
  have hwait {other : ListenerId} (h : Function.update s.waiting id true other = true) :
      other = id ∨ s.waiting other = true := by
    by_cases heq : other = id <;> simp_all
  exact { hs with
    delivered := fun h => absurd hcalls h.calls_ne_nil
    waiting_mem := fun other h => (hwait h).elim (fun heq => heq ▸ hid.1) (hs.waiting_mem other)
    heard_waiting := fun other h _ => (hs.heard_over other h).resolve_left (absurd hcalls) }

/-- A poll may stop to wait. -/
theorem Sound.cancel (hs : s.Sound) (id : ListenerId) : (s.step (.cancel id)).Sound := by
  have hwait {other : ListenerId} (h : Function.update s.waiting id false other = true) :
      s.waiting other = true := by
    by_cases heq : other = id <;> simp_all
  exact { hs with
    delivered := fun hsent l hl hw => hs.delivered hsent l hl (hwait hw)
    waiting_mem := fun other h => hs.waiting_mem other (hwait h)
    heard_waiting := fun other h hw => hs.heard_waiting other h (hwait hw) }

/-- A poll may end ready once the shutdown is over. -/
theorem Sound.conclude (hs : s.Sound) (hover : s.Over) (id : ListenerId) :
    (s.conclude id).Sound := by
  have hwait {other : ListenerId} (h : Function.update s.waiting id false other = true) :
      other ≠ id ∧ s.waiting other = true := by
    by_cases heq : other = id <;> simp_all
  refine { hs.cancel id with
    heard_over := fun _ _ => hover
    heard_waiting := fun other h hw => hs.heard_waiting other ?_ (hwait hw).2 }
  simpa [ShutdownSystem.conclude, (hwait hw).1] using h

theorem Sound.check (hs : s.Sound) (id : ListenerId) : (s.step (.check id)).Sound := by
  by_cases hid : s.Rests id
  · cases ht : s.shutdown.triggered with
    | true =>
        rw [step_check_of_triggered hid ht]
        exact hs.conclude (.inl (hs.flag.1 ht)) id
    | false =>
        rw [step_check_of_not_triggered hid ht]
        exact hs.await hid ht
  · simpa only [step, if_neg hid] using hs

/-- A live listener has an inbox. -/
theorem Sound.find?_listener (hs : s.Sound) (hid : id ∈ s.handles) :
    ∃ l, s.shutdown.listeners.find? (fun l => l.id = id) = some l ∧
      l ∈ s.shutdown.listeners ∧ l.id = id := by
  rw [← hs.ids] at hid
  obtain ⟨l, hl, rfl⟩ := List.mem_map.1 hid
  have hsome : (s.shutdown.listeners.find? fun l' => l'.id = l.id).isSome = true := by
    simpa using ⟨l, hl, rfl⟩
  obtain ⟨found, hfound⟩ := Option.isSome_iff_exists.1 hsome
  exact ⟨found, hfound, List.mem_of_find?_eq_some hfound, by simpa using List.find?_some hfound⟩

/-- A poll that looks into its inbox is ready exactly if the broadcast was sent or no coordinator
is left. -/
theorem Sound.receive_fst (hs : s.Sound) (hid : s.Waits id) :
    (s.shutdown.receive id).1 = true ↔ s.Sent ∨ s.shutdown.coordinators = 0 := by
  obtain ⟨l, hfind, hl, rfl⟩ := hs.find?_listener hid.1
  cases hu : l.unread with
  | true => simp [Shutdown.receive, hfind, hu, hs.inbox l hl hu]
  | false =>
      have hsent : ¬ s.Sent := fun h => by simp [hs.delivered h l hl hid.2] at hu
      simp [Shutdown.receive, hfind, hu, hsent]

/-- A poll that takes the broadcast out of its inbox does not wait after that. -/
theorem Sound.receive (hs : s.Sound) (id : ListenerId) : (s.step (.receive id)).Sound := by
  by_cases hid : s.Waits id
  · rw [step_receive hid]
    by_cases hready : (s.shutdown.receive id).1 = true
    · have hover : s.Over :=
        ((hs.receive_fst hid).1 hready).imp_left Sent.calls_ne_nil
      obtain ⟨l, hfind, hl, rfl⟩ := hs.find?_listener hid.1
      simp only [if_pos hready]
      cases hu : l.unread with
      | false => simpa [Shutdown.receive, hfind, hu] using hs.conclude hover l.id
      | true =>
          simp only [Shutdown.receive, hfind, hu, if_true]
          refine { hs.conclude hover l.id with
            ids := ?_, inbox := fun other h hother => ?_, delivered := fun hsent other h hw => ?_ }
          · refine Eq.trans ?_ hs.ids
            simp only [ShutdownSystem.conclude, List.map_map]
            refine List.map_congr_left fun other _ => ?_
            by_cases heq : other.id = l.id <;> simp [heq]
          · obtain ⟨before, hmem, rfl⟩ := List.mem_map.1 h
            by_cases heq : before.id = l.id
            · simp [heq] at hother
            · exact hs.inbox before hmem (by simpa [heq] using hother)
          · obtain ⟨before, hmem, rfl⟩ := List.mem_map.1 h
            by_cases heq : before.id = l.id
            · simp [ShutdownSystem.conclude, heq] at hw
            · simp only [if_neg heq] at hw ⊢
              exact hs.delivered hsent before hmem
                (by simpa [ShutdownSystem.conclude, heq] using hw)
    · have hsame : (s.shutdown.receive id).2 = s.shutdown := by
        obtain ⟨l, hfind, -, -⟩ := hs.find?_listener hid.1
        cases hu : l.unread with
        | true => simp [Shutdown.receive, hfind, hu] at hready
        | false => simp [Shutdown.receive, hfind, hu]
      simpa only [if_neg hready, hsame] using hs
  · simpa only [step, if_neg hid] using hs

/-- Every move keeps the invariant. -/
theorem Sound.step (hs : s.Sound) (m : Move) : (s.step m).Sound := by
  cases m with
  | subscribe => exact hs.subscribe
  | clone => exact hs.clone
  | dropCoordinator => exact hs.dropCoordinator
  | dropListener id => exact hs.dropListener id
  | look => exact hs
  | setFlag => exact hs.setFlag
  | send call => exact hs.send call
  | check id => exact hs.check id
  | receive id => exact hs.receive id
  | cancel id => exact hs.cancel id

/-- **Moves in any order keep the invariant.** -/
theorem Sound.run (hs : s.Sound) (moves : List Move) : (s.run moves).Sound := by
  induction moves generalizing s with
  | nil => exact hs
  | cons m moves ih => exact ih (hs.step m)

theorem Reachable.sound (h : s.Reachable) : s.Sound := by
  obtain ⟨moves, rfl⟩ := h
  exact sound_initial.run moves

/-! ## What stays -/

/-- A call that set the flag is not forgotten, coordinators that are all gone stay so, and a
listener that was ready was. -/
structure Follows (s t : ShutdownSystem) : Prop where
  calls : s.calls ≠ [] → t.calls ≠ []
  coordinators : s.shutdown.coordinators = 0 → t.shutdown.coordinators = 0
  heard : ∀ id, s.heard id = true → t.heard id = true

theorem Follows.refl (s : ShutdownSystem) : s.Follows s := ⟨id, id, fun _ => id⟩

theorem Follows.trans {s t u : ShutdownSystem} (h : s.Follows t) (h' : t.Follows u) :
    s.Follows u :=
  ⟨h'.calls ∘ h.calls, h'.coordinators ∘ h.coordinators, fun id => h'.heard id ∘ h.heard id⟩

theorem follows_conclude (s : ShutdownSystem) (id : ListenerId) : s.Follows (s.conclude id) := by
  refine ⟨fun h => h, fun h => h, fun other h => ?_⟩
  by_cases heq : other = id <;> simp [conclude, heq, h]

@[simp] theorem coordinators_receive (sd : Shutdown) (id : ListenerId) :
    (sd.receive id).2.coordinators = sd.coordinators := by
  unfold Shutdown.receive
  split
  · split <;> rfl
  · rfl

theorem follows_step (s : ShutdownSystem) (m : Move) : s.Follows (s.step m) := by
  cases m with
  | subscribe =>
      by_cases hc : 0 < s.shutdown.coordinators
      · exact ⟨by simp [step, hc], by simp [step, hc, Shutdown.subscribe], by simp [step, hc]⟩
      · simpa only [step, if_neg hc] using .refl s
  | clone =>
      by_cases hc : 0 < s.shutdown.coordinators
      · exact ⟨by simp [step, hc], fun h => absurd h (Nat.ne_of_gt hc), by simp [step, hc]⟩
      · simpa only [step, if_neg hc] using .refl s
  | dropCoordinator =>
      exact ⟨fun h => h, fun h => by simp [step, Shutdown.dropCoordinator, h], fun _ h => h⟩
  | dropListener id =>
      by_cases hid : id ∈ s.handles
      · exact ⟨by simp [step, hid], by simp [step, hid, Shutdown.dropListener], by simp [step, hid]⟩
      · simpa only [step, if_neg hid] using .refl s
  | look => exact .refl s
  | setFlag =>
      by_cases hc : 0 < s.shutdown.coordinators
      · exact ⟨by simp [step, hc], fun h => absurd h (Nat.ne_of_gt hc), by simp [step, hc]⟩
      · simpa only [step, if_neg hc] using .refl s
  | send call =>
      by_cases hcall : s.calls[call]? = some .sending
      · exact ⟨by simp [step, hcall], by simp [step, hcall, Shutdown.send], by simp [step, hcall]⟩
      · simpa only [step, if_neg hcall] using .refl s
  | check id =>
      by_cases hid : s.Rests id
      · cases ht : s.shutdown.triggered with
        | true =>
            rw [step_check_of_triggered hid ht]
            exact s.follows_conclude id
        | false =>
            rw [step_check_of_not_triggered hid ht]
            exact ⟨fun h => h, fun h => h, fun _ h => h⟩
      · simpa only [step, if_neg hid] using .refl s
  | receive id =>
      by_cases hid : s.Waits id
      · have hsame : s.Follows { s with shutdown := (s.shutdown.receive id).2 } :=
          ⟨fun h => h, by simp, fun _ h => h⟩
        rw [step_receive hid]
        split
        · exact hsame.trans (follows_conclude _ id)
        · exact hsame
      · simpa only [step, if_neg hid] using .refl s
  | cancel id => exact ⟨fun h => h, fun h => h, fun _ h => h⟩

theorem follows_run (s : ShutdownSystem) (moves : List Move) : s.Follows (s.run moves) := by
  induction moves generalizing s with
  | nil => exact .refl s
  | cons m moves ih => exact (s.follows_step m).trans (ih (s.step m))

/-! ## What polls find -/

/-- A poll that begins now is ready: either its first step is, or it waits and every look into
its inbox is, whatever happens in between. -/
def PollReady (s : ShutdownSystem) (id : ListenerId) : Prop :=
  s.finds (.check id) = some true ∨
    (s.finds (.check id) = some false ∧ (s.step (.check id)).Waits id ∧
      ∀ moves, ((s.step (.check id)).run moves).Waits id →
        ((s.step (.check id)).run moves).finds (.receive id) = some true)

theorem Sound.finds_check (hs : s.Sound) (hid : s.Rests id) :
    s.finds (.check id) = some true ↔ s.calls ≠ [] := by
  simp [finds, hid, hs.flag]

theorem Sound.finds_receive (hs : s.Sound) (hid : s.Waits id) :
    s.finds (.receive id) = some true ↔ s.Sent ∨ s.shutdown.coordinators = 0 := by
  simp [finds, hid, hs.receive_fst hid]

/-- Once the shutdown is over every poll that begins is ready. -/
theorem Sound.pollReady (hs : s.Sound) (hid : s.Rests id) (hover : s.Over) : s.PollReady id := by
  cases ht : s.shutdown.triggered with
  | true => exact .inl (by simp [finds, hid, ht])
  | false =>
      have hc : s.shutdown.coordinators = 0 :=
        hover.resolve_left fun h => by simp [hs.flag.2 h] at ht
      refine .inr ⟨by simp [finds, hid, ht], ?_, fun moves hw => ?_⟩
      · rw [step_check_of_not_triggered hid ht]
        exact ⟨hid.1, by simp [ShutdownSystem.await]⟩
      · refine (((hs.step _).run moves).finds_receive hw).2 (.inr ?_)
        exact ((s.follows_step _).trans (follows_run _ moves)).coordinators hc

/-- No poll is ready before the shutdown is over. -/
theorem Sound.over_of_finds (hs : s.Sound) {m : Move} (h : s.finds m = some true) : s.Over := by
  cases m with
  | check id =>
      by_cases hid : s.Rests id
      · exact .inl ((hs.finds_check hid).1 h)
      · simp [finds, hid] at h
  | receive id =>
      by_cases hid : s.Waits id
      · exact ((hs.finds_receive hid).1 h).imp_left Sent.calls_ne_nil
      · simp [finds, hid] at h
  | _ => simp [finds] at h

/-- A step that finds the poll of a listener ready makes the listener one that was. -/
theorem heard_of_finds {m : Move} (hpoll : m = .check id ∨ m = .receive id)
    (h : s.finds m = some true) : (s.step m).heard id = true := by
  rcases hpoll with rfl | rfl
  · by_cases hid : s.Rests id
    · have ht : s.shutdown.triggered = true := by simpa [finds, hid] using h
      rw [step_check_of_triggered hid ht]
      simp [conclude]
    · simp [finds, hid] at h
  · by_cases hid : s.Waits id
    · have hready : (s.shutdown.receive id).1 = true := by simpa [finds, hid] using h
      rw [step_receive hid, if_pos hready]
      simp [conclude]
    · simp [finds, hid] at h

/-- Every later poll of a listener that was ready is ready. -/
theorem Sound.ready_of_heard (hs : s.Sound) (h : s.heard id = true) :
    (s.Rests id → s.PollReady id) ∧ (s.Waits id → s.finds (.receive id) = some true) :=
  ⟨fun hid => hs.pollReady hid (hs.heard_over id h),
    fun hid => (hs.finds_receive hid).2 (.inr (hs.heard_waiting id h hid.2))⟩

/-- **The shutdown is latched and no wake-up is lost.**  Whatever coordinators and listeners do
in whichever order, a poll that begins once a call has set the flag, and every poll once no
coordinator is left, is ready, and no poll is ready before that.  When the call that set the flag
first has returned, every live listener is ready, also one that read the flag before it was set.
A listener that was ready once is ready at every later poll, at most one broadcast is ever sent,
and the receivers are the live listeners.  With nothing in between, the two steps of a call are a
trigger, and those of a poll are a poll. -/
theorem latched (h : s.Reachable) :
    (s.shutdown.triggered = true ↔ s.calls ≠ []) ∧
    (s.calls ≠ [] → ∀ id, s.Rests id → s.finds (.check id) = some true) ∧
    (s.shutdown.coordinators = 0 → ∀ id,
      (s.Rests id → s.PollReady id) ∧ (s.Waits id → s.finds (.receive id) = some true)) ∧
    (s.calls.head? = some .returned → ∀ id,
      (s.Rests id → s.finds (.check id) = some true) ∧
      (s.Waits id → s.finds (.receive id) = some true)) ∧
    (∀ m, s.finds m = some true → s.calls ≠ [] ∨ s.shutdown.coordinators = 0) ∧
    (∀ id m, m = .check id ∨ m = .receive id → s.finds m = some true → ∀ later,
      (((s.step m).run later).Rests id → ((s.step m).run later).PollReady id) ∧
      (((s.step m).run later).Waits id →
        ((s.step m).run later).finds (.receive id) = some true)) ∧
    s.shutdown.broadcasts ≤ 1 ∧
    s.shutdown.receivers = s.handles.length ∧
    (0 < s.shutdown.coordinators →
      (s.run [.setFlag, .send s.calls.length]).shutdown = s.shutdown.trigger.2) ∧
    (∀ id, s.Rests id →
      (s.run [.check id, .receive id]).shutdown = (s.shutdown.poll id).2 ∧
        (s.run [.check id, .receive id]).waiting id = !(s.shutdown.poll id).1) := by
  have hs := h.sound
  refine ⟨hs.flag, fun hcalls id hid => (hs.finds_check hid).2 hcalls, fun hc id => ⟨?_, ?_⟩,
    fun hsent id => ⟨fun hid => ?_, fun hid => ?_⟩, fun m hm => hs.over_of_finds hm,
    fun id m hpoll hm later => ?_, ?_, ?_, shutdown_trigger, fun id => shutdown_poll⟩
  · exact fun hid => hs.pollReady hid (.inr hc)
  · exact fun hid => (hs.finds_receive hid).2 (.inr hc)
  · exact (hs.finds_check hid).2 (Sent.calls_ne_nil hsent)
  · exact (hs.finds_receive hid).2 (.inl hsent)
  · have hheard := (follows_run _ later).heard id (heard_of_finds hpoll hm)
    exact ((hs.step m).run later).ready_of_heard hheard
  · rw [hs.broadcasts]
    split <;> simp
  · rw [Shutdown.receivers, ← hs.ids, List.length_map]

/-- Two listeners: the first reads the flag before it is set, and the second polls between the
two steps of the trigger.  Both are ready when the trigger returned, and the second is ready
again after that. -/
theorem latched_between :
    ∃ s : ShutdownSystem, s.Reachable ∧ s.calls = [.returned, .returned] ∧
      s.Waits 0 ∧ s.finds (.receive 0) = some true ∧ s.shutdown.receivers = 2 ∧
      ((s.step (.receive 0)).run [.dropCoordinator]).PollReady 0 := by
  let moves : List Move := [.subscribe, .subscribe, .check 0, .setFlag, .check 1, .setFlag,
    .receive 0, .send 0]
  have hs : (initial.run moves).Reachable := ⟨moves, rfl⟩
  obtain ⟨-, -, -, hsent, -, hagain, -, hreceivers, -⟩ := latched hs
  have hready := (hsent (by decide) 0).2 (by decide)
  exact ⟨_, hs, by decide, by decide, hready, hreceivers,
    (hagain 0 (.receive 0) (.inr rfl) hready [.dropCoordinator]).1 (by decide)⟩

end JobSupervisor.ShutdownSystem
