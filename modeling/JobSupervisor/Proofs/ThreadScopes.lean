import JobSupervisor.Proofs.RecordHistory
import JobSupervisor.Supervisor

/-!
# The scopes of one thread

A thread opens and closes scopes, either directly or with guards that close their scope when
they are dropped.  A guard does not know which scope is its own: dropping it closes the
innermost one, in whichever order guards are dropped.  The thread also writes diagnostics under
other keys than that of the identifier, and meanwhile anything can happen aside, such as other
threads drawing identifiers.

Of a move it only matters for the scopes whether it opens one, closes one or leaves them alone;
the lemmas here say what each of the three does to the depth and to the identifier.

## Main definitions

* `Aside` — what leaves the context of the thread alone.
* `ScopedThread`, `ScopedThread.perform`, `ScopedThread.run` — the thread with its open guards.
* `ScopedThread.Move.shift` — whether a move opens or closes a scope.
* `ScopedThread.walk` — the depth counted off the moves alone.
* `Context.suppliedOr` — the identifier that the outermost scope chooses.
-/

namespace JobSupervisor

/-- Something that happens aside: the context of the running thread stays as it is, and no
identifier that was drawn goes back to the supply. -/
structure Aside where
  act : Supervisor → Supervisor
  context : ∀ s, (act s).thread.context = s.thread.context
  drawn_le : ∀ s, s.drawn ≤ (act s).drawn

/-- A key of the diagnostics other than that of the identifier. -/
abbrev FreeKey := { key : String // key ≠ Context.correlationKey }

/-- A supervisor with the open guards of its running thread in the order in which they were
opened; of each it is known whether it created the identifier. -/
structure ScopedThread where
  supervisor : Supervisor
  guards : List Bool

/-! ## Contexts and supervisors -/

namespace Context

theorem fst_enter (c : Context) (supplied : Option String) (fresh : String) :
    (c.enter supplied fresh).1 = decide (c.depth = 0) := by
  by_cases h : c.depth = 0 <;> simp [enter, h]

theorem fst_exit (c : Context) : c.exit.1 = decide (c.depth = 1) := by
  unfold exit
  split <;> simp_all

theorem current_put (c : Context) (key : FreeKey) (value : String) :
    (c.put key value).current = c.current :=
  NameMap.get?_insert_of_ne c.diagnostics key.2 value

theorem current_remove (c : Context) (key : FreeKey) :
    (c.remove key).2.current = c.current := by
  simp [remove, current, NameMap.get?_erase, key.2]

/-- What is supplied without the white space around it, or the fresh identifier if nothing or
only white space is supplied. -/
def suppliedOr (fresh : String) : Option String → String
  | some text => if Text.IsBlank text then fresh else Text.trim text
  | none => fresh

theorem getD_usable? (supplied : Option String) (fresh : String) :
    (usable? supplied).getD fresh = suppliedOr fresh supplied := by
  cases supplied with
  | none => rfl
  | some text =>
      by_cases h : Text.IsBlank text
      · have hempty := (Text.isEmpty_trim_iff text).2 h
        simp [usable?, suppliedOr, hempty, h]
      · have hempty : ¬ (Text.trim text).isEmpty = true := mt (Text.isEmpty_trim_iff text).1 h
        simp [usable?, suppliedOr, hempty, h]

end Context

namespace Supervisor

theorem fst_enterScope (s : Supervisor) (supplied : Option String) :
    (s.enterScope supplied).1 = decide (s.thread.context.depth = 0) := by
  simp only [enterScope]
  split <;> exact Context.fst_enter _ _ _

theorem depth_enterScope (s : Supervisor) (supplied : Option String) :
    (s.enterScope supplied).2.thread.context.depth = s.thread.context.depth + 1 := by
  simp only [enterScope]
  split <;> exact Context.depth_enter _ _ _

/-- The outermost scope has the identifier that is supplied, or else a drawn one. -/
theorem current_enterScope_outermost {s : Supervisor} (h : s.thread.context.depth = 0)
    (supplied : Option String) :
    (s.enterScope supplied).2.thread.context.current =
      some ((Context.usable? supplied).getD (Context.Identifier.nth s.drawn)) := by
  simp only [enterScope]
  split
  · exact Context.current_enter_outermost h supplied _
  · rename_i hdraws
    have husable : Context.usable? supplied ≠ none := by
      simpa [Context.drawsFresh, h] using hdraws
    obtain ⟨id, hid⟩ := Option.ne_none_iff_exists'.1 husable
    have hcurrent := Context.current_enter_outermost h supplied ""
    rw [hid] at hcurrent ⊢
    exact hcurrent

theorem current_enterScope_inner {s : Supervisor} (h : s.thread.context.depth ≠ 0)
    (supplied : Option String) :
    (s.enterScope supplied).2.thread.context.current = s.thread.context.current := by
  simp only [enterScope]
  split <;> exact Context.current_enter_inner h supplied _

/-- An identifier is drawn exactly for an outermost scope for which none is supplied. -/
theorem drawn_enterScope (s : Supervisor) (supplied : Option String) :
    (s.enterScope supplied).2.drawn =
      if s.thread.context.depth = 0 ∧ Context.usable? supplied = none then s.drawn + 1
      else s.drawn := by
  have hiff : s.thread.context.drawsFresh supplied = true ↔
      s.thread.context.depth = 0 ∧ Context.usable? supplied = none := by
    simp [Context.drawsFresh]
  simp only [enterScope, hiff]
  split <;> rfl

theorem drawn_le_enterScope (s : Supervisor) (supplied : Option String) :
    s.drawn ≤ (s.enterScope supplied).2.drawn := by
  rw [drawn_enterScope]
  split <;> omega

theorem fst_exitScope (s : Supervisor) :
    s.exitScope.1 = decide (s.thread.context.depth = 1) :=
  Context.fst_exit _

theorem depth_exitScope (s : Supervisor) :
    s.exitScope.2.thread.context.depth = s.thread.context.depth - 1 :=
  Context.depth_exit _

theorem current_exitScope_outermost {s : Supervisor} (h : s.thread.context.depth = 1) :
    s.exitScope.2.thread.context.current = none :=
  Context.current_exit_outermost h

theorem current_exitScope_inner {s : Supervisor} (h : s.thread.context.depth ≠ 1) :
    s.exitScope.2.thread.context.current = s.thread.context.current :=
  Context.current_exit_inner h

end Supervisor

/-! ## Moves of a thread -/

namespace ScopedThread

/-- Something that a thread does with its scopes or its diagnostics, or that happens aside. -/
inductive Move where
  | enter (supplied : Option String)
  | exit
  | openGuard (supplied : Option String)
  /-- Drops one of the open guards; they are counted in the order of their opening. -/
  | dropGuard (k : Nat)
  | put (key : FreeKey) (value : String)
  | remove (key : FreeKey)
  | aside (e : Aside)

/-- What a move does to the scopes. -/
inductive Shift where
  | opens (supplied : Option String)
  | closes
  | stays

namespace Move

/-- What a move does to the scopes of a thread with some open guards. -/
def shift (live : Nat) : Move → Shift
  | .enter supplied | .openGuard supplied => .opens supplied
  | .exit => .closes
  | .dropGuard k => if k < live then .closes else .stays
  | .put _ _ | .remove _ | .aside _ => .stays

/-- The number of open guards after a move. -/
def liveAfter (live : Nat) : Move → Nat
  | .openGuard _ => live + 1
  | .dropGuard k => if k < live then live - 1 else live
  | .enter _ | .exit | .put _ _ | .remove _ | .aside _ => live

/-- The move uses scopes at most through guards. -/
def ViaGuards : Move → Prop
  | .enter _ | .exit => False
  | .openGuard _ | .dropGuard _ | .put _ _ | .remove _ | .aside _ => True

end Move

/-- The depth after a shift. -/
def Shift.on (depth : Nat) : Shift → Nat
  | .opens _ => depth + 1
  | .closes => depth - 1
  | .stays => depth

/-- A move that uses scopes through guards changes the depth as it changes the number of open
guards. -/
theorem Move.ViaGuards.on_shift {m : Move} (h : m.ViaGuards) (base live : Nat) :
    (m.shift live).on (base + live) = base + m.liveAfter live := by
  cases m with
  | enter _ | exit => exact h.elim
  | dropGuard k =>
      by_cases hk : k < live
      · simp only [shift, liveAfter, if_pos hk, Shift.on]
        omega
      · simp only [shift, liveAfter, if_neg hk, Shift.on]
  | _ => rfl

/-- The depth and the number of open guards after moves, counted off the moves: one step up for
every scope that is opened, and one step down, but not below zero, for every one that is
closed. -/
def walk (moves : List Move) : Nat × Nat :=
  moves.foldl (fun w m => ((m.shift w.2).on w.1, m.liveAfter w.2)) (0, 0)

/-- Performs a move.  The answer of a move that opens a scope is whether it created the
identifier, and that of one that closes a scope, whether it cleared it. -/
def perform (m : Move) (s : ScopedThread) : Bool × ScopedThread :=
  match m with
  | .enter supplied =>
      let (created, v) := s.supervisor.enterScope supplied
      (created, { s with supervisor := v })
  | .exit =>
      let (cleared, v) := s.supervisor.exitScope
      (cleared, { s with supervisor := v })
  | .openGuard supplied =>
      let (created, v) := s.supervisor.enterScope supplied
      (created, ⟨v, s.guards ++ [created]⟩)
  | .dropGuard k =>
      if k < s.guards.length then
        let (cleared, v) := s.supervisor.exitScope
        (cleared, ⟨v, s.guards.eraseIdx k⟩)
      else (false, s)
  | .put key value =>
      let c := s.supervisor.thread.context.put key value
      (false, { s with supervisor := s.supervisor.withContext c })
  | .remove key =>
      let c := (s.supervisor.thread.context.remove key).2
      (false, { s with supervisor := s.supervisor.withContext c })
  | .aside e => (false, { s with supervisor := e.act s.supervisor })

/-- The thread after a move. -/
def step (m : Move) (s : ScopedThread) : ScopedThread := (s.perform m).2

/-- The thread after moves one after the other. -/
def run (moves : List Move) (s : ScopedThread) : ScopedThread :=
  moves.foldl (fun s m => s.step m) s

@[simp] theorem run_nil (s : ScopedThread) : s.run [] = s := rfl

@[simp] theorem run_cons (m : Move) (moves : List Move) (s : ScopedThread) :
    s.run (m :: moves) = (s.step m).run moves := rfl

/-- A thread that has done nothing yet, with everything else as it may be. -/
def start (v : Supervisor) : ScopedThread := ⟨{ v with thread := .initial }, []⟩

/-- The number of open scopes. -/
def depth (s : ScopedThread) : Nat := s.supervisor.thread.context.depth

/-- The identifier in effect. -/
def current (s : ScopedThread) : Option String := s.supervisor.thread.context.current

/-- The number of identifiers drawn so far, by this thread and by others. -/
def drawn (s : ScopedThread) : Nat := s.supervisor.drawn

/-- The identifier that is drawn next. -/
def fresh (s : ScopedThread) : String := Context.Identifier.nth s.drawn

/-! ## The three kinds of moves -/

variable {s : ScopedThread} {m : Move} {supplied : Option String}

theorem supervisor_step_of_opens (h : m.shift s.guards.length = .opens supplied) :
    (s.step m).supervisor = (s.supervisor.enterScope supplied).2 := by
  cases m with
  | enter _ | openGuard _ =>
      obtain rfl := Shift.opens.inj h
      rfl
  | dropGuard k =>
      simp only [Move.shift] at h
      split at h <;> contradiction
  | _ => contradiction

theorem fst_perform_of_opens (h : m.shift s.guards.length = .opens supplied) :
    (s.perform m).1 = decide (s.depth = 0) := by
  cases m with
  | enter _ | openGuard _ => exact s.supervisor.fst_enterScope _
  | dropGuard k =>
      simp only [Move.shift] at h
      split at h <;> contradiction
  | _ => contradiction

/-- Only a scope that is opened while none is open creates the identifier. -/
theorem depth_of_created (h : m.shift s.guards.length = .opens supplied)
    (hcreated : (s.perform m).1 = true) : s.depth = 0 := by
  rw [fst_perform_of_opens h] at hcreated
  exact of_decide_eq_true hcreated

theorem supervisor_step_of_closes (h : m.shift s.guards.length = .closes) :
    (s.step m).supervisor = s.supervisor.exitScope.2 := by
  cases m with
  | exit => rfl
  | dropGuard k =>
      by_cases hk : k < s.guards.length
      · simp [step, perform, hk]
      · simp [Move.shift, hk] at h
  | _ => contradiction

theorem fst_perform_of_closes (h : m.shift s.guards.length = .closes) :
    (s.perform m).1 = decide (s.depth = 1) := by
  cases m with
  | exit => exact s.supervisor.fst_exitScope
  | dropGuard k =>
      by_cases hk : k < s.guards.length
      · simp only [perform, if_pos hk]
        exact s.supervisor.fst_exitScope
      · simp [Move.shift, hk] at h
  | _ => contradiction

/-- A move that leaves the scopes alone keeps the depth and the identifier. -/
theorem context_step_of_stays (h : m.shift s.guards.length = .stays) :
    (s.step m).depth = s.depth ∧ (s.step m).current = s.current := by
  cases m with
  | dropGuard k =>
      by_cases hk : k < s.guards.length
      · simp [Move.shift, hk] at h
      · simp [step, perform, hk]
  | put key value => exact ⟨rfl, Context.current_put _ key value⟩
  | remove key => exact ⟨rfl, Context.current_remove _ key⟩
  | aside e =>
      have hcontext := e.context s.supervisor
      exact ⟨congrArg Context.depth hcontext, congrArg Context.current hcontext⟩
  | enter _ | exit | openGuard _ => contradiction

/-- **A move does to the depth what its shift says.** -/
theorem depth_step (s : ScopedThread) (m : Move) :
    (s.step m).depth = (m.shift s.guards.length).on s.depth := by
  cases h : m.shift s.guards.length with
  | opens supplied =>
      rw [depth, supervisor_step_of_opens h]
      exact s.supervisor.depth_enterScope supplied
  | closes =>
      rw [depth, supervisor_step_of_closes h]
      exact s.supervisor.depth_exitScope
  | stays => exact (context_step_of_stays h).1

theorem current_step_of_opens_outermost (h : m.shift s.guards.length = .opens supplied)
    (hd : s.depth = 0) :
    (s.step m).current = some ((Context.usable? supplied).getD s.fresh) := by
  rw [current, supervisor_step_of_opens h]
  exact Supervisor.current_enterScope_outermost hd supplied

theorem current_step_of_closes_outermost (h : m.shift s.guards.length = .closes)
    (hd : s.depth = 1) : (s.step m).current = none := by
  rw [current, supervisor_step_of_closes h]
  exact Supervisor.current_exitScope_outermost hd

/-- A move between two open scopes keeps the identifier. -/
theorem current_step_of_inner (hd : 0 < s.depth) (hd' : 0 < (s.step m).depth) :
    (s.step m).current = s.current := by
  have hstep := s.depth_step m
  cases h : m.shift s.guards.length with
  | opens supplied =>
      rw [current, supervisor_step_of_opens h]
      exact Supervisor.current_enterScope_inner (Nat.ne_of_gt hd) supplied
  | closes =>
      rw [h, Shift.on] at hstep
      have hne : s.depth ≠ 1 := by omega
      rw [current, supervisor_step_of_closes h]
      exact Supervisor.current_exitScope_inner hne
  | stays => exact (context_step_of_stays h).2

/-- No identifier goes back to the supply. -/
theorem drawn_le_step (s : ScopedThread) (m : Move) : s.drawn ≤ (s.step m).drawn := by
  cases m with
  | enter _ | openGuard _ => exact s.supervisor.drawn_le_enterScope _
  | dropGuard k =>
      simp only [drawn, step, perform]
      split <;> exact Nat.le_refl _
  | aside e => exact e.drawn_le s.supervisor
  | exit | put _ _ | remove _ => exact Nat.le_refl _

theorem length_guards_step (s : ScopedThread) (m : Move) :
    (s.step m).guards.length = m.liveAfter s.guards.length := by
  cases m with
  | openGuard supplied => simp [step, perform, Move.liveAfter]
  | dropGuard k =>
      by_cases hk : k < s.guards.length
      · simp [step, perform, Move.liveAfter, hk, List.length_eraseIdx]
      · simp [step, perform, Move.liveAfter, hk]
  | _ => rfl

/-! ## Threads that can occur -/

/-- An identifier is in effect exactly while a scope is open. -/
def Consistent (s : ScopedThread) : Prop := s.current.isSome = true ↔ 0 < s.depth

theorem consistent_start (v : Supervisor) : (start v).Consistent := by
  simp [Consistent, start, current, depth, Thread.initial, Context.initial, Context.current]

/-- Every move keeps the identifier and the depth together. -/
theorem Consistent.step (hs : s.Consistent) (m : Move) : (s.step m).Consistent := by
  have hstep := s.depth_step m
  cases h : m.shift s.guards.length with
  | opens supplied =>
      rw [h, Shift.on] at hstep
      have hpos : 0 < (s.step m).depth := by omega
      by_cases hd : s.depth = 0
      · simp [Consistent, current_step_of_opens_outermost h hd, hpos]
      · have hsome := hs.2 (Nat.pos_of_ne_zero hd)
        simp [Consistent, current_step_of_inner (Nat.pos_of_ne_zero hd) hpos, hsome, hpos]
  | closes =>
      rw [h, Shift.on] at hstep
      by_cases hd : s.depth = 1
      · have hzero : ¬ 0 < (s.step m).depth := by omega
        simp [Consistent, current_step_of_closes_outermost h hd, hzero]
      · have hkept : (s.step m).current = s.current := by
          rw [current, supervisor_step_of_closes h]
          exact Supervisor.current_exitScope_inner hd
        have hiff : 0 < (s.step m).depth ↔ 0 < s.depth := by omega
        rw [Consistent, hkept, hiff]
        exact hs
  | stays =>
      obtain ⟨hdepth, hcurrent⟩ := context_step_of_stays h
      rw [Consistent, hdepth, hcurrent]
      exact hs

/-- Moves in any order keep the identifier and the depth together. -/
theorem Consistent.run (hs : s.Consistent) (moves : List Move) : (s.run moves).Consistent := by
  induction moves generalizing s with
  | nil => exact hs
  | cons m moves ih => exact ih (hs.step m)

theorem Consistent.current_eq_none (hs : s.Consistent) (h : s.depth = 0) : s.current = none := by
  have hnot : ¬ s.current.isSome = true := fun hsome => by
    have hpos := hs.1 hsome
    omega
  simpa using hnot

end ScopedThread

end JobSupervisor
