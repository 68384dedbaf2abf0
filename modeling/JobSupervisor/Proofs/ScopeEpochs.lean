import JobSupervisor.Proofs.IdentifierSupply
import JobSupervisor.Proofs.ThreadScopes

/-!
# Epochs of a thread

An epoch begins when a scope is opened while none is open, and ends when the depth comes back to
zero.  Scopes are opened and closed directly or by guards, closed more often than opened, and
guards are dropped in any order; all that counts is the depth.  Between two open scopes no move
touches the identifier, so the scope that began the epoch decides it until the end, even if that
scope's guard is dropped first.

## Main definitions

* `ScopedThread.Lasts` — no exit among some moves ends the epoch.
* `ScopedThread.created` — which of the guards that moves open created the identifier.
* `ScopedThread.epochs` — depth, answers and identifier after any moves.
-/

namespace JobSupervisor.ScopedThread

variable {s : ScopedThread} {m : Move} {supplied : Option String} {moves between : List Move}

/-! ## The depth -/

/-- The depth and the open guards are what is counted off the moves. -/
theorem walk_run (s : ScopedThread) (moves : List Move) :
    ((s.run moves).depth, (s.run moves).guards.length) =
      moves.foldl (fun w m => ((m.shift w.2).on w.1, m.liveAfter w.2))
        (s.depth, s.guards.length) := by
  induction moves generalizing s with
  | nil => rfl
  | cons m moves ih =>
      rw [run_cons, List.foldl_cons, ih (s.step m), s.depth_step m, s.length_guards_step m]

/-- Without direct moves the depth is the number of open guards. -/
theorem depth_run_of_viaGuards (hs : s.depth = s.guards.length)
    (h : ∀ m ∈ moves, m.ViaGuards) : (s.run moves).depth = (s.run moves).guards.length := by
  induction moves generalizing s with
  | nil => exact hs
  | cons m moves ih =>
      have hm : m.ViaGuards := h m List.mem_cons_self
      refine ih ?_ fun m' hm' => h m' (List.mem_cons_of_mem m hm')
      have hshift := hm.on_shift 0 s.guards.length
      rw [Nat.zero_add, Nat.zero_add] at hshift
      rw [s.depth_step m, s.length_guards_step m, hs, hshift]

/-! ## Moves within an epoch -/

/-- The epoch that is going on lasts: no move that closes a scope answers that it ended the
epoch. -/
def Lasts : List Move → ScopedThread → Prop
  | [], _ => True
  | m :: moves, s =>
      (m.shift s.guards.length = .closes → (s.perform m).1 = false) ∧ Lasts moves (s.step m)

/-- Which of the guards that moves open created the identifier. -/
def created : List Move → ScopedThread → List Bool
  | [], _ => []
  | m :: moves, s =>
      match m with
      | .openGuard _ => (s.perform m).1 :: created moves (s.step m)
      | _ => created moves (s.step m)

/-- In an epoch that lasts some scope stays open. -/
theorem depth_step_pos (hd : 0 < s.depth)
    (h : m.shift s.guards.length = .closes → (s.perform m).1 = false) :
    0 < (s.step m).depth := by
  have hstep := s.depth_step m
  cases hshift : m.shift s.guards.length with
  | opens supplied =>
      rw [hshift, Shift.on] at hstep
      omega
  | closes =>
      have hne : s.depth ≠ 1 := by
        simpa [fst_perform_of_closes hshift] using h hshift
      rw [hshift, Shift.on] at hstep
      omega
  | stays =>
      rw [hshift, Shift.on] at hstep
      omega

/-- **As long as an epoch lasts its identifier stays.** -/
theorem Lasts.current_run (h : Lasts between s) (hd : 0 < s.depth) :
    (s.run between).current = s.current := by
  induction between generalizing s with
  | nil => rfl
  | cons m between ih =>
      obtain ⟨hm, hrest⟩ := h
      have hpos := depth_step_pos hd hm
      rw [run_cons, ih hrest hpos, current_step_of_inner hd hpos]

/-- No guard that is opened within an epoch creates an identifier. -/
theorem Lasts.created_eq_false (h : Lasts between s) (hd : 0 < s.depth) :
    ∀ b ∈ s.created between, b = false := by
  induction between generalizing s with
  | nil => simp [created]
  | cons m between ih =>
      obtain ⟨hm, hrest⟩ := h
      have hlater := ih hrest (depth_step_pos hd hm)
      intro b hb
      cases m with
      | openGuard supplied =>
          rcases List.mem_cons.1 hb with rfl | hb
          · have hanswer := fst_perform_of_opens (s := s) (m := .openGuard supplied) rfl
            rw [hanswer]
            exact decide_eq_false (Nat.ne_of_gt hd)
          · exact hlater b hb
      | _ => exact hlater b hb

/-- In an epoch that a guard begins, this guard is the only one that creates an identifier. -/
theorem Lasts.count_created (h : Lasts between (s.step (.openGuard supplied)))
    (hd : s.depth = 0) : (s.created (.openGuard supplied :: between)).count true = 1 := by
  have hfirst : (s.perform (.openGuard supplied)).1 = true := by
    rw [fst_perform_of_opens (m := .openGuard supplied) rfl, decide_eq_true hd]
  have hpos : 0 < (s.step (.openGuard supplied)).depth := by
    rw [s.depth_step]
    exact Nat.succ_pos _
  have hnone : true ∉ (s.step (.openGuard supplied)).created between := fun hmem => by
    have hfalse := h.created_eq_false hpos true hmem
    contradiction
  rw [created, hfirst, List.count_cons_self, List.count_eq_zero_of_not_mem hnone]

/-! ## Drawn identifiers -/

theorem drawn_le_run (s : ScopedThread) (moves : List Move) : s.drawn ≤ (s.run moves).drawn := by
  induction moves generalizing s with
  | nil => exact Nat.le_refl _
  | cons m moves ih => exact Nat.le_trans (s.drawn_le_step m) (ih (s.step m))

/-- An identifier that an epoch draws is not drawn again. -/
theorem fresh_run_ne (hm : m.shift s.guards.length = .opens supplied) (hd : s.depth = 0)
    (hsupplied : Context.usable? supplied = none) (later : List Move) :
    ((s.step m).run later).fresh ≠ s.fresh := by
  intro heq
  have hdrawn : (s.step m).drawn = s.drawn + 1 := by
    rw [drawn, supervisor_step_of_opens hm, Supervisor.drawn_enterScope, if_pos ⟨hd, hsupplied⟩]
    rfl
  have hle := (s.step m).drawn_le_run later
  have hsame := Context.Identifier.nth_injective heq
  omega

theorem usable?_eq_none_iff :
    Context.usable? supplied = none ↔ ∀ text, supplied = some text → Text.IsBlank text := by
  cases supplied with
  | none => simp [Context.usable?]
  | some text =>
      have hblank := Text.isEmpty_trim_iff text
      rw [String.isEmpty_iff] at hblank
      simp [Context.usable?, hblank]

/-- **The epochs of a thread.**  After any moves of a thread that had done nothing, the depth is
the walk of the moves; opening a scope answers whether the depth was zero, and closing one
whether it was one.  An identifier is in effect exactly while a scope is open.  From a move that
began an epoch on, until an exit ends it, it is the one that was supplied to that move, without
the white space around it, or else one that was drawn and is never drawn again.  If all scopes
belong to guards, the depth is the number of open guards, one guard of each epoch created its
identifier, and dropping any guard while another one is open ends nothing. -/
theorem epochs (v : Supervisor) (moves : List Move) :
    (((start v).run moves).depth, ((start v).run moves).guards.length) = walk moves ∧
    ∀ s, s = (start v).run moves →
      (∀ supplied, (s.perform (.enter supplied)).1 = decide (s.depth = 0) ∧
        (s.perform (.openGuard supplied)).1 = decide (s.depth = 0)) ∧
      ((s.perform .exit).1 = decide (s.depth = 1) ∧
        ∀ k < s.guards.length, (s.perform (.dropGuard k)).1 = decide (s.depth = 1)) ∧
      (s.current.isSome = true ↔ 0 < s.depth) ∧
      (∀ m supplied between, m = .enter supplied ∨ m = .openGuard supplied →
        (s.perform m).1 = true → Lasts between (s.step m) →
        ((s.step m).run between).current = some (Context.suppliedOr s.fresh supplied)) ∧
      (∀ m supplied later, m = .enter supplied ∨ m = .openGuard supplied →
        (s.perform m).1 = true → (∀ text, supplied = some text → Text.IsBlank text) →
        ((s.step m).run later).fresh ≠ s.fresh) ∧
      ((∀ m ∈ moves, m.ViaGuards) →
        s.depth = s.guards.length ∧
        (∀ supplied between, s.depth = 0 → Lasts between (s.step (.openGuard supplied)) →
          (s.created (.openGuard supplied :: between)).count true = 1) ∧
        (∀ k < s.guards.length, 2 ≤ s.guards.length →
          (s.perform (.dropGuard k)).1 = false ∧
            (s.step (.dropGuard k)).current = s.current)) := by
  refine ⟨walk_run (start v) moves, ?_⟩
  rintro s rfl
  have hopens {t : ScopedThread} {m : Move} {supplied : Option String}
      (h : m = .enter supplied ∨ m = .openGuard supplied) :
      m.shift t.guards.length = .opens supplied := by
    rcases h with rfl | rfl <;> rfl
  have hdrop {t : ScopedThread} {k : Nat} (hk : k < t.guards.length) :
      (Move.dropGuard k).shift t.guards.length = .closes := if_pos hk
  refine ⟨?_, ⟨?_, ?_⟩, (consistent_start v).run moves, ?_, ?_, ?_⟩
  · intro supplied
    constructor
    · exact fst_perform_of_opens (hopens (.inl rfl))
    · exact fst_perform_of_opens (hopens (.inr rfl))
  · exact fst_perform_of_closes rfl
  · intro k hk
    exact fst_perform_of_closes (hdrop hk)
  · intro m supplied between hm hcreated hlasts
    have hzero := depth_of_created (hopens hm) hcreated
    have hpos : 0 < (((start v).run moves).step m).depth := by
      rw [depth_step, hopens hm]
      exact Nat.succ_pos _
    rw [hlasts.current_run hpos, current_step_of_opens_outermost (hopens hm) hzero,
      Context.getD_usable?]
  · intro m supplied later hm hcreated hsupplied
    have hzero := depth_of_created (hopens hm) hcreated
    exact fresh_run_ne (hopens hm) hzero (usable?_eq_none_iff.2 hsupplied) later
  · intro hguards
    have hdepth : ((start v).run moves).depth = ((start v).run moves).guards.length :=
      depth_run_of_viaGuards rfl hguards
    refine ⟨hdepth, ?_, ?_⟩
    · intro supplied between hzero hlasts
      exact hlasts.count_created hzero
    · intro k hk htwo
      have hstep := ((start v).run moves).depth_step (.dropGuard k)
      rw [hdrop hk, Shift.on] at hstep
      refine ⟨?_, current_step_of_inner (by omega) (by omega)⟩
      rw [fst_perform_of_closes (hdrop hk)]
      exact decide_eq_false (by omega)

-- The guard that began the epoch is dropped first.
example :
    ((start .initial).run [.openGuard (some " a "), .openGuard (some "b"), .dropGuard 0]).current =
      some "a" := by
  decide

end JobSupervisor.ScopedThread
