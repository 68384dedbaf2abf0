import JobSupervisor.Proofs.IdentifierSupply
import JobSupervisor.Proofs.NestedRuns

/-!
# Runs leave the scopes as they were

A run opens one scope before its body and closes one after it, whichever way the body ends.  A
body whose guards are its own drops as many scopes as it opens, so below the depth at which it
began it never gets, and the identifier in effect there stays.  This holds for a body with runs
in it as soon as it holds for their bodies; so it holds for all of them.

## Main definitions

* `WatchedThread.Within` — a body is in progress, its own guards being all that was opened.
* `WatchedThread.balanced_around` — what a run around such a body leaves behind.
* `Activity.runs_balanced` — depth, guards and identifier after a run, and the identifiers that
  are seen in it.
-/

namespace JobSupervisor

/-! ## The context at the two ends of a run -/

namespace Supervisor

theorem thread_ensureRecord (s : Supervisor) (name : String) :
    (s.ensureRecord name).2.thread = s.thread := by
  obtain ⟨registry, journal, h⟩ := s.ensureRecord_frame name
  rw [h]

theorem drawn_ensureRecord (s : Supervisor) (name : String) :
    (s.ensureRecord name).2.drawn = s.drawn := by
  obtain ⟨registry, journal, h⟩ := s.ensureRecord_frame name
  rw [h]

end Supervisor

namespace Run

variable (job : Descriptor) (s : Supervisor)

theorem depth_begin :
    (Run.begin job s).2.thread.context.depth = s.thread.context.depth + 1 := by
  have hdepth := (s.ensureRecord job.name).2.depth_enterScope none
  rw [s.thread_ensureRecord] at hdepth
  exact hdepth

variable {s} in
/-- A run outside of every scope draws an identifier. -/
theorem current_begin_outermost (h : s.thread.context.depth = 0) :
    (Run.begin job s).2.thread.context.current = some (Context.Identifier.nth s.drawn) := by
  have hzero : (s.ensureRecord job.name).2.thread.context.depth = 0 := by
    rw [s.thread_ensureRecord, h]
  have hcurrent := Supervisor.current_enterScope_outermost hzero none
  rw [s.drawn_ensureRecord] at hcurrent
  exact hcurrent

variable {s} in
/-- A run within a scope keeps the identifier of the scope. -/
theorem current_begin_inner (h : s.thread.context.depth ≠ 0) :
    (Run.begin job s).2.thread.context.current = s.thread.context.current := by
  have hne : (s.ensureRecord job.name).2.thread.context.depth ≠ 0 := by
    rwa [s.thread_ensureRecord]
  have hcurrent := Supervisor.current_enterScope_inner hne none
  rw [s.thread_ensureRecord] at hcurrent
  exact hcurrent

theorem drawn_begin :
    (Run.begin job s).2.drawn = if s.thread.context.depth = 0 then s.drawn + 1 else s.drawn := by
  have hdrawn := (s.ensureRecord job.name).2.drawn_enterScope none
  rw [s.thread_ensureRecord, s.drawn_ensureRecord] at hdrawn
  simp only [Context.usable?, and_true] at hdrawn
  exact hdrawn

/-- The identifier that a run logs is the one in effect at its beginning. -/
theorem correlation_begin :
    (Run.begin job s).1.correlation = (Run.begin job s).2.thread.context.currentText := rfl

/-- In the settlement only the closing of the scope works on the context. -/
theorem context_settle {α : Type} (r : Run) (e : Ending α) (s : Supervisor) :
    (r.settle e s).2.thread.context = s.exitScope.2.thread.context := by
  simp only [settle]
  split <;> split <;> rfl

theorem drawn_settle {α : Type} (r : Run) (e : Ending α) (s : Supervisor) :
    (r.settle e s).2.drawn = s.drawn := by
  simp only [settle]
  split <;> split <;> rfl

end Run

namespace WatchedThread

variable {w : WatchedThread} {past : List (Option String)} {base : Nat} {id : String}
  {body : WatchedThread → WatchedThread} (job : Descriptor) (ending : Ending String)

/-! ## A body in progress -/

/-- A body that began at a depth is in progress: the depth has grown by the guards that are
open, and since the past nothing but the identifier has been seen. -/
structure Within (past : List (Option String)) (base : Nat) (id : String) (w : WatchedThread) :
    Prop where
  depth : w.thread.depth = base + w.thread.guards.length
  current : w.thread.current = some id
  seen : ∀ found ∈ w.seen, found ∈ past ∨ found = some id

theorem Within.look (h : w.Within past base id) : w.look.Within past base id where
  depth := h.depth
  current := h.current
  seen := fun found hfound => by
    rcases List.mem_append.1 hfound with hfound | hfound
    · exact h.seen found hfound
    · rw [List.mem_singleton.1 hfound]
      exact .inr h.current

/-- A move that uses scopes through guards stays within the body. -/
theorem Within.step (h : w.Within past base id) (hbase : 0 < base) {m : ScopedThread.Move}
    (hm : m.ViaGuards) : (w.step m).Within past base id := by
  have hdepth : (w.thread.step m).depth = base + (w.thread.step m).guards.length := by
    rw [w.thread.depth_step m, w.thread.length_guards_step m, h.depth, hm.on_shift]
  have hcurrent : (w.thread.step m).current = w.thread.current :=
    ScopedThread.current_step_of_inner (by rw [h.depth]; omega) (by omega)
  have hstep : Within past base id { w with thread := w.thread.step m } :=
    ⟨hdepth, hcurrent.trans h.current, h.seen⟩
  exact hstep.look

/-- Dropping all guards leaves none, and stays within the body. -/
theorem Within.dropGuards {n : Nat} (h : w.Within past base id) (hbase : 0 < base)
    (hn : w.thread.guards.length = n) :
    (w.dropGuards n).Within past base id ∧ (w.dropGuards n).thread.guards.length = 0 := by
  induction n generalizing w with
  | zero => exact ⟨h, hn⟩
  | succ n ih =>
      have hlength : (w.step (.dropGuard n)).thread.guards.length = n := by
        have hguards := w.thread.length_guards_step (.dropGuard n)
        rw [ScopedThread.Move.liveAfter, if_pos (by omega), hn] at hguards
        exact hguards
      exact ih (h.step hbase (m := .dropGuard n) trivial) hlength

/-! ## A whole run -/

/-- The thread at the beginning of a body. -/
def entered (job : Descriptor) (w : WatchedThread) : WatchedThread :=
  look ⟨⟨(Run.begin job w.supervisor).2, []⟩, w.seen⟩

theorem around_eq :
    w.around job ending body =
      let inner := (body (w.entered job)).unwind
      ⟨⟨((Run.begin job w.supervisor).1.settle ending inner.supervisor).2, w.thread.guards⟩,
        inner.seen⟩ := rfl

theorem depth_around : (w.around job ending body).thread.depth =
    (unwind (body (w.entered job))).thread.depth - 1 := by
  rw [around_eq, ScopedThread.depth, Run.context_settle, Supervisor.depth_exitScope]
  rfl

theorem current_around : (w.around job ending body).thread.current =
    (unwind (body (w.entered job))).supervisor.exitScope.2.thread.context.current := by
  rw [around_eq, ScopedThread.current, Run.context_settle]

theorem drawn_around : (w.around job ending body).thread.drawn =
    (unwind (body (w.entered job))).thread.drawn := by
  rw [around_eq, ScopedThread.drawn, Run.drawn_settle]
  rfl

/-- **A run leaves the depth as it was.**  Nothing is seen in it but the identifier with which it
begins, and that one is still in effect afterwards unless the run was outermost. -/
theorem balanced_around
    (hbegin : (Run.begin job w.supervisor).2.thread.context.current = some id)
    (hseen : ∀ found ∈ w.seen, found ∈ past ∨ found = some id)
    (hbody : ∀ {x}, Within past (w.thread.depth + 1) id x →
      Within past (w.thread.depth + 1) id (body x)) :
    (w.around job ending body).thread.depth = w.thread.depth ∧
      (w.around job ending body).thread.current =
        (if w.thread.depth = 0 then none else some id) ∧
      ∀ found ∈ (w.around job ending body).seen, found ∈ past ∨ found = some id := by
  have hentered : Within past (w.thread.depth + 1) id (w.entered job) :=
    Within.look ⟨Run.depth_begin job w.supervisor, hbegin, hseen⟩
  obtain ⟨hinner, hguards⟩ := (hbody hentered).dropGuards (Nat.succ_pos _) rfl
  have hdepth : (unwind (body (w.entered job))).thread.depth = w.thread.depth + 1 := by
    have hwithin := hinner.depth
    rw [hguards] at hwithin
    exact hwithin
  refine ⟨by rw [depth_around, hdepth, Nat.add_sub_cancel], ?_, hinner.seen⟩
  -- All guards of the body are gone, so that the settlement closes the scope of the run itself.
  rw [current_around]
  split
  · rename_i hzero
    exact Supervisor.current_exitScope_outermost (hdepth.trans (by rw [hzero]))
  · rename_i hne
    refine (Supervisor.current_exitScope_inner ?_).trans hinner.current
    exact fun hone => hne (Nat.succ.inj (hdepth.symm.trans hone))

/-! ## What is seen and what is drawn -/

theorem seen_prefix_dropGuards (w : WatchedThread) (n : Nat) :
    w.seen <+: (w.dropGuards n).seen := by
  induction n generalizing w with
  | zero => exact List.prefix_rfl
  | succ n ih => exact (List.prefix_append _ _).trans (ih (w.step (.dropGuard n)))

/-- In a run at least one look is taken, and what was seen before is not forgotten. -/
theorem seen_prefix_around (hbody : ∀ x, x.seen <+: (body x).seen) :
    (w.entered job).seen <+: (w.around job ending body).seen :=
  (hbody (w.entered job)).trans (seen_prefix_dropGuards _ _)

theorem drawn_le_dropGuards (w : WatchedThread) (n : Nat) :
    w.thread.drawn ≤ (w.dropGuards n).thread.drawn := by
  induction n generalizing w with
  | zero => exact Nat.le_refl _
  | succ n ih =>
      exact Nat.le_trans (w.thread.drawn_le_step (.dropGuard n)) (ih (w.step (.dropGuard n)))

/-- What a run drew for itself stays drawn. -/
theorem drawn_begin_le_around (hbody : ∀ x, x.thread.drawn ≤ (body x).thread.drawn) :
    (if w.thread.depth = 0 then w.thread.drawn + 1 else w.thread.drawn) ≤
      (w.around job ending body).thread.drawn := by
  have hbegin : (w.entered job).thread.drawn =
      if w.thread.depth = 0 then w.thread.drawn + 1 else w.thread.drawn :=
    Run.drawn_begin job w.supervisor
  rw [drawn_around, ← hbegin]
  exact Nat.le_trans (hbody (w.entered job)) (drawn_le_dropGuards _ _)

theorem drawn_le_around (hbody : ∀ x, x.thread.drawn ≤ (body x).thread.drawn) :
    w.thread.drawn ≤ (w.around job ending body).thread.drawn := by
  refine Nat.le_trans ?_ (drawn_begin_le_around job ending hbody)
  split
  · exact Nat.le_succ _
  · exact Nat.le_refl _

/-- A run that begins while no scope is open draws an identifier. -/
theorem drawn_lt_around (hzero : w.thread.depth = 0)
    (hbody : ∀ x, x.thread.drawn ≤ (body x).thread.drawn) :
    w.thread.drawn < (w.around job ending body).thread.drawn := by
  have hbegin := drawn_begin_le_around (w := w) job ending hbody
  rw [if_pos hzero] at hbegin
  exact hbegin

end WatchedThread

namespace Activity

open WatchedThread

variable {a body : Activity} {w : WatchedThread} {s : ScopedThread} {base : Nat} {id : String}
  {past : List (Option String)} (job : Descriptor) (ending : Ending String)

theorem seen_prefix_perform (a : Activity) (w : WatchedThread) :
    w.seen <+: (a.perform w).seen := by
  induction a generalizing w with
  | done => exact List.prefix_rfl
  | move m next ih => exact (List.prefix_append _ _).trans (ih (w.step m))
  | run job body ending next ihbody ih =>
      have hentered : w.seen <+: (w.entered job).seen := List.prefix_append _ _
      have haround := hentered.trans (seen_prefix_around job ending ihbody)
      exact (haround.trans (List.prefix_append _ _)).trans
        (ih (w.around job ending body.perform).look)

theorem drawn_le_perform (a : Activity) (w : WatchedThread) :
    w.thread.drawn ≤ (a.perform w).thread.drawn := by
  induction a generalizing w with
  | done => exact Nat.le_refl _
  | move m next ih => exact Nat.le_trans (w.thread.drawn_le_step m) (ih (w.step m))
  | run job body ending next ihbody ih =>
      exact Nat.le_trans (drawn_le_around job ending ihbody)
        (ih (w.around job ending body.perform).look)

/-- **What a body does stays within it**, runs included. -/
theorem ViaGuards.perform (ha : a.ViaGuards) (hbase : 0 < base) (h : w.Within past base id) :
    (a.perform w).Within past base id := by
  induction a generalizing w base with
  | done => exact h
  | move m next ih => exact ih ha.2 hbase (h.step hbase ha.1)
  | run job body ending next ihbody ih =>
      -- The inner body begins at a depth of its own, above the guards of the outer one.
      have hne : w.thread.depth ≠ 0 := by
        rw [h.depth]
        omega
      have hbegin := (Run.current_begin_inner job hne).trans h.current
      obtain ⟨hdepth, hcurrent, hseen⟩ := balanced_around job ending hbegin h.seen
        fun hx => ihbody ha.1 (Nat.succ_pos _) hx
      rw [if_neg hne] at hcurrent
      have hafter : (w.around job ending body.perform).Within past base id :=
        ⟨hdepth.trans h.depth, hcurrent, hseen⟩
      exact ih ha.2 hbase hafter.look

/-! ## Outermost runs -/

/-- The identifier of a run that begins on a thread: the one in effect, or else the one that is
drawn next. -/
def identifier (s : ScopedThread) : String := s.current.getD s.fresh

theorem some_identifier (hs : s.Consistent) :
    some (identifier s) = if 0 < s.depth then s.current else some s.fresh := by
  split
  · rename_i hpos
    obtain ⟨id, hid⟩ := Option.isSome_iff_exists.1 (hs.2 hpos)
    rw [identifier, hid, Option.getD_some]
  · rename_i hzero
    rw [identifier, hs.current_eq_none (Nat.eq_zero_of_not_pos hzero), Option.getD_none]

theorem current_begin (hs : s.Consistent) :
    (Run.begin job s.supervisor).2.thread.context.current = some (identifier s) := by
  rw [some_identifier hs]
  split
  · rename_i hpos
    exact Run.current_begin_inner job (Nat.ne_of_gt hpos)
  · rename_i hzero
    exact Run.current_begin_outermost job (Nat.eq_zero_of_not_pos hzero)

theorem correlation_begin (hs : s.Consistent) :
    (Run.begin job s.supervisor).1.correlation = identifier s := by
  rw [Run.correlation_begin, Context.currentText, current_begin job hs, Option.getD_some]

/-- A run whose body uses scopes through guards leaves the thread as it was, and nothing is seen
in it but its identifier. -/
theorem ViaGuards.around (hbody : body.ViaGuards) (hw : w.thread.Consistent) :
    (w.around job ending body.perform).thread.depth = w.thread.depth ∧
      (w.around job ending body.perform).thread.current = w.thread.current ∧
      ∀ found ∈ (w.around job ending body.perform).seen,
        found ∈ w.seen ∨ found = some (identifier w.thread) := by
  obtain ⟨hdepth, hcurrent, hseen⟩ := balanced_around job ending
    (current_begin job hw) (fun _ => .inl) fun hx => hbody.perform (Nat.succ_pos _) hx
  refine ⟨hdepth, hcurrent.trans ?_, hseen⟩
  split
  · rename_i hzero
    exact (hw.current_eq_none hzero).symm
  · rename_i hne
    rw [some_identifier hw, if_pos (Nat.pos_of_ne_zero hne)]

theorem ViaGuards.consistent_around (hbody : body.ViaGuards) (hw : w.thread.Consistent) :
    (w.around job ending body.perform).thread.Consistent := by
  obtain ⟨hdepth, hcurrent, -⟩ := hbody.around job ending hw
  rw [ScopedThread.Consistent, hdepth, hcurrent]
  exact hw

/-- Whatever a thread does outside of runs, an identifier is in effect exactly while a scope is
open. -/
theorem Orderly.consistent_perform (ha : a.Orderly) (hw : w.thread.Consistent) :
    (a.perform w).thread.Consistent := by
  induction a generalizing w with
  | done => exact hw
  | move m next ih => exact ih ha (hw.step m)
  | run job body ending next _ ih => exact ih ha.2 (ha.1.consistent_around job ending hw)

/-- A run that begins while no scope is open sees the identifier that it draws. -/
theorem seen_outermost (hbody : body.ViaGuards) (hs : s.Consistent) (hzero : s.depth = 0) :
    ∀ found ∈ (WatchedThread.around job ending body.perform ⟨s, []⟩).seen,
      found = some s.fresh := by
  obtain ⟨-, -, hseen⟩ := hbody.around (w := ⟨s, []⟩) job ending hs
  intro found hfound
  have hidentifier : found = some (identifier s) :=
    (hseen found hfound).resolve_left List.not_mem_nil
  rw [hidentifier, some_identifier hs, if_neg (Nat.not_lt.2 (Nat.le_of_eq hzero))]

/-- Outermost runs see identifiers that were not drawn before. -/
theorem Orderly.drawn_of_mem_sights (ha : a.Orderly) (hw : w.thread.Consistent)
    {sight : List (Option String)} (h : sight ∈ a.sights w) :
    ∃ k, w.thread.drawn ≤ k ∧ ∀ found ∈ sight, found = some (Context.Identifier.nth k) := by
  induction a generalizing w with
  | done => exact absurd h List.not_mem_nil
  | move m next ih =>
      obtain ⟨k, hk, hsight⟩ := ih ha (hw.step m) h
      exact ⟨k, Nat.le_trans (w.thread.drawn_le_step m) hk, hsight⟩
  | run job body ending next _ ih =>
      have hlater (hmem : sight ∈ next.sights (w.around job ending body.perform).look) :
          ∃ k, w.thread.drawn ≤ k ∧
            ∀ found ∈ sight, found = some (Context.Identifier.nth k) := by
        have hafter : (w.around job ending body.perform).look.thread.Consistent :=
          ha.1.consistent_around job ending hw
        obtain ⟨k, hk, hsight⟩ := ih ha.2 hafter hmem
        exact ⟨k, Nat.le_trans (drawn_le_around job ending body.drawn_le_perform) hk, hsight⟩
      simp only [sights] at h
      split at h
      · rename_i hzero
        rcases List.mem_cons.1 h with rfl | hmem
        · exact ⟨w.thread.drawn, Nat.le_refl _, seen_outermost job ending ha.1 hw hzero⟩
        · exact hlater hmem
      · exact hlater h

/-- **No two outermost runs see the same identifier.** -/
theorem Orderly.pairwise_sights (ha : a.Orderly) (hw : w.thread.Consistent) :
    (a.sights w).Pairwise fun earlier later => ∀ found ∈ earlier, found ∉ later := by
  induction a generalizing w with
  | done => exact .nil
  | move m next ih => exact ih ha (hw.step m)
  | run job body ending next _ ih =>
      have hafter : (w.around job ending body.perform).look.thread.Consistent :=
        ha.1.consistent_around job ending hw
      have hrest := ih ha.2 hafter
      simp only [sights]
      split
      · rename_i hzero
        refine .cons (fun sight hsight => ?_) hrest
        obtain ⟨k, hk, hlater⟩ := ha.2.drawn_of_mem_sights hafter hsight
        have hlt : w.thread.drawn < k :=
          Nat.lt_of_lt_of_le (drawn_lt_around job ending hzero body.drawn_le_perform) hk
        intro found hfirst hsecond
        have hsame : some w.thread.fresh = some (Context.Identifier.nth k) :=
          (seen_outermost job ending ha.1 hw hzero found hfirst).symm.trans (hlater found hsecond)
        exact Nat.ne_of_lt hlt (Context.Identifier.nth_injective (Option.some.inj hsame))
      · exact hrest

/-- **Runs keep scopes balanced.**  After anything that a thread that had done nothing may do, a
run whose body uses scopes at most through guards, however it ends and whatever runs are made
within it, leaves the depth, the identifier and the guards of its caller as they were.  At every
look that is taken in it the identifier is the one that the run logs: the one in effect before if
a scope was open, and else one that is drawn for it.  No two runs that the thread made while no
scope was open have seen the same identifier. -/
theorem runs_balanced (v : Supervisor) (before : Activity) (hbefore : before.Orderly) :
    (∀ s, s = (before.perform ⟨.start v, []⟩).thread →
      ∀ (job : Descriptor) (ending : Ending String) (body : Activity), body.ViaGuards →
      ∀ w, w = WatchedThread.around job ending body.perform ⟨s, []⟩ →
        (w.thread.depth = s.depth ∧ w.thread.current = s.current ∧ w.thread.guards = s.guards) ∧
        w.seen ≠ [] ∧
        (∀ found ∈ w.seen, found = some (Run.begin job s.supervisor).1.correlation) ∧
        some (Run.begin job s.supervisor).1.correlation =
          (if 0 < s.depth then s.current else some s.fresh) ∧
        (s.depth = 0 → s.drawn < w.thread.drawn)) ∧
    (before.sights ⟨.start v, []⟩).Pairwise
      fun earlier later => ∀ found ∈ earlier, found ∉ later := by
  have hstart : (WatchedThread.mk (.start v) []).thread.Consistent :=
    ScopedThread.consistent_start v
  refine ⟨?_, hbefore.pairwise_sights hstart⟩
  rintro s hs job ending body hbody w rfl
  have hconsistent : s.Consistent := hs ▸ hbefore.consistent_perform hstart
  have hcorrelation := correlation_begin job hconsistent
  obtain ⟨hdepth, hcurrent, hseen⟩ :=
    hbody.around (w := ⟨s, []⟩) job ending hconsistent
  refine ⟨⟨hdepth, hcurrent, rfl⟩, ?_, ?_, ?_, ?_⟩
  · intro hempty
    have hprefix := seen_prefix_around (w := ⟨s, []⟩) job ending body.seen_prefix_perform
    rw [hempty] at hprefix
    exact List.cons_ne_nil _ _ (List.prefix_nil.1 hprefix)
  · intro found hfound
    rw [hcorrelation]
    exact (hseen found hfound).resolve_left List.not_mem_nil
  · rw [hcorrelation]
    exact some_identifier hconsistent
  · exact fun hzero => drawn_lt_around (w := ⟨s, []⟩) job ending hzero body.drawn_le_perform

/-- Two runs one after the other; in the first one, which panics, a guard is left open and a
further run is made. -/
theorem runs_balanced_twice :
    let job : Descriptor := ⟨"job", ⟨0⟩⟩
    let body : Activity := .move (.openGuard none) (.run job .done (.value "") .done)
    let twice : Activity := .run job body (.panicked none) (.run job .done (.error "") .done)
    twice.Orderly ∧ (twice.sights ⟨.start .initial, []⟩).length = 2 ∧
      (twice.sights ⟨.start .initial, []⟩).Pairwise
        fun earlier later => ∀ found ∈ earlier, found ∉ later := by
  intro job body twice
  have horderly : twice.Orderly := ⟨⟨trivial, trivial, trivial⟩, trivial, trivial⟩
  refine ⟨horderly, ?_, (runs_balanced .initial twice horderly).2⟩
  clear horderly
  unfold twice body job
  decide +kernel

end Activity

end JobSupervisor
