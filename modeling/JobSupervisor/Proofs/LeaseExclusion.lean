import JobSupervisor.Proofs.LeaseSystem
import Mathlib.Data.List.Nodup

/-!
# At most one unexpired lease on a name

The table has no memory of the leases that were taken over, whose holders still give them
back some day.  What ties the two together is that every entry of the table belongs to a
lease that was not given back yet, and that every such lease either stands in the table or
has expired.  A clock reading is never ahead of the clock, so a thread that finds the entry
expired at its reading, however old, finds it expired.  Tokens are not drawn twice as long
as the counter does not wrap around, so giving back an old lease misses the entry of its
successor.

## Main definitions

* `LockSystem.Backed` — every entry belongs to a lease that is not given back.
* `LockSystem.Sound` — the invariant.
* `LockSystem.Sound.step`, `LockSystem.Sound.run` — every move and every run keeps it.
* `LockSystem.exclusive` — at most one unexpired lease on a name.
-/

namespace JobSupervisor.LockSystem

variable {s : LockSystem}

/-- A system that moves can make. -/
def Reachable (s : LockSystem) : Prop := ∃ now moves, (start now).run moves = s

/-! ## The entries of the table -/

/-- Every entry of the table belongs to a lease that is not given back. -/
def Backed (s : LockSystem) : Prop :=
  ∀ name h, s.table.held.get? name = some h → ⟨name, h.token, h.expiresAt⟩ ∈ s.grants

theorem Backed.grant (hs : s.Backed) (name : String) (h : Holding) : (s.grant name h).Backed := by
  intro other old hold
  by_cases hne : name = other
  · subst hne
    obtain rfl : h = old := by simpa [LockSystem.grant] using hold
    exact List.mem_cons_self
  · simp only [LockSystem.grant, NameMap.get?_insert_of_ne _ hne] at hold
    exact List.mem_cons_of_mem _ (hs other old hold)

theorem Backed.drop (hs : s.Backed) (g : Grant) : (s.step (.drop g)).Backed := by
  by_cases hg : g ∈ s.grants
  · rw [step_drop hg]
    intro name h hget
    obtain ⟨hget, htoken⟩ := LeaseTable.get?_of_get?_release hget
    refine (List.mem_erase_of_ne ?_).2 (hs name h hget)
    rintro rfl
    exact htoken rfl rfl
  · simpa [step, hg] using hs

theorem Backed.step (hs : s.Backed) (m : Move) : (s.step m).Backed := by
  cases m with
  | pass d => exact hs
  | read i name lease =>
      cases hi : s.attempts i with
      | idle =>
          rw [step_read hi]
          exact hs
      | _ => simpa [LockSystem.step, hi] using hs
  | draw i =>
      cases hi : s.attempts i with
      | clocked name lease now =>
          rw [step_draw hi]
          split <;> exact hs
      | _ => simpa [LockSystem.step, hi] using hs
  | enter i =>
      cases hi : s.attempts i with
      | drawn name now h =>
          cases hheld : s.table.isHeld name now with
          | true =>
              rw [step_enter_of_isHeld hi hheld]
              exact hs
          | false =>
              rw [step_enter_of_not_isHeld hi hheld]
              exact Backed.grant (s := s.setAttempt i .idle) hs name h
      | _ => simpa [LockSystem.step, hi] using hs
  | drop g => exact hs.drop g

theorem Reachable.backed (h : s.Reachable) : s.Backed := by
  obtain ⟨now, moves, rfl⟩ := h
  have hstart : (start now).Backed := fun name h hget => by simp [start, LeaseTable.empty] at hget
  generalize start now = s at hstart ⊢
  induction moves generalizing s with
  | nil => exact hstart
  | cons m moves ih => exact ih (s.step m) (hstart.step m)

/-- A name that the table shows as held has an unexpired lease. -/
theorem Backed.exists_unexpired (hs : s.Backed) {name : String}
    (h : s.table.isHeld name s.clock = true) : ∃ g, g ∈ s.unexpired name := by
  cases hget : s.table.held.get? name with
  | none => simp [LeaseTable.isHeld, hget] at h
  | some old =>
      have hlive : s.clock < old.expiresAt := by
        simpa [LeaseTable.isHeld, hget, Holding.liveAt] using h
      exact ⟨_, mem_unexpired.2 ⟨hs name old hget, rfl, hlive⟩⟩

/-! ## The invariant -/

/-- The invariant: tokens are drawn once, readings are not ahead of the clock, every entry of
the table belongs to a lease that is not given back, and every such lease stands in the table
or has expired. -/
structure Sound (s : LockSystem) : Prop where
  next : s.table.next.toNat = s.draws
  drawn_lt : ∀ i t, (s.attempts i).token? = some t → t.toNat < s.draws
  drawn_inj : ∀ i j t, (s.attempts i).token? = some t → (s.attempts j).token? = some t → i = j
  drawn_new : ∀ i t, (s.attempts i).token? = some t → ∀ g ∈ s.grants, g.token ≠ t
  granted_lt : ∀ g ∈ s.grants, g.token.toNat < s.draws
  distinct : (s.grants.map Grant.token).Nodup
  reading_le : ∀ i now, (s.attempts i).reading? = some now → now.nanos ≤ s.clock.nanos
  entry_granted : ∀ name h, s.table.held.get? name = some h →
    ⟨name, h.token, h.expiresAt⟩ ∈ s.grants
  entered : ∀ g ∈ s.grants, s.clock < g.expiresAt →
    s.table.held.get? g.name = some ⟨g.token, g.expiresAt⟩

theorem sound_start (now : Instant) : (start now).Sound where
  next := rfl
  drawn_lt _ _ h := by simp [start, Attempt.token?] at h
  drawn_inj _ _ _ h := by simp [start, Attempt.token?] at h
  drawn_new _ _ h := by simp [start, Attempt.token?] at h
  granted_lt _ h := by simp [start] at h
  distinct := List.nodup_nil
  reading_le _ _ h := by simp [start, Attempt.reading?] at h
  entry_granted _ _ h := by simp [start, LeaseTable.empty] at h
  entered _ h := by simp [start] at h

/-- Time makes leases expire and leaves everything else as it is. -/
theorem Sound.pass (hs : s.Sound) (d : Duration) : (s.step (.pass d)).Sound := by
  have hle : s.clock.nanos ≤ (s.clock.after d).nanos := Nat.le_add_right _ _
  refine { hs with reading_le := fun i now h => ?_, entered := fun g hg hlt => ?_ }
  · exact Nat.le_trans (hs.reading_le i now h) hle
  · exact hs.entered g hg (Nat.lt_of_le_of_lt hle hlt)

/-- A thread may come to any stage whose token is drawn and nobody's, and whose reading is not
ahead of the clock. -/
theorem Sound.setAttempt (hs : s.Sound) (i : Nat) {a : Attempt}
    (htoken : ∀ t, a.token? = some t → t.toNat < s.draws ∧
      (∀ j, (s.attempts j).token? ≠ some t) ∧ ∀ g ∈ s.grants, g.token ≠ t)
    (hreading : ∀ now, a.reading? = some now → now.nanos ≤ s.clock.nanos) :
    (s.setAttempt i a).Sound := by
  have hstage : ∀ j, (s.setAttempt i a).attempts j = a ∨
      (s.setAttempt i a).attempts j = s.attempts j := by
    intro j
    by_cases hj : j = i
    · exact .inl (hj ▸ attempts_setAttempt_self s i a)
    · exact .inr (attempts_setAttempt_of_ne s hj a)
  refine { hs with drawn_lt := ?_, drawn_inj := ?_, drawn_new := ?_, reading_le := ?_ }
  · intro j t ht
    rcases hstage j with h | h <;> rw [h] at ht
    · exact (htoken t ht).1
    · exact hs.drawn_lt j t ht
  · intro j k t hj hk
    by_cases hji : j = i <;> by_cases hki : k = i
    · rw [hji, hki]
    · rw [hji, attempts_setAttempt_self] at hj
      rw [attempts_setAttempt_of_ne s hki] at hk
      exact absurd hk ((htoken t hj).2.1 k)
    · rw [hki, attempts_setAttempt_self] at hk
      rw [attempts_setAttempt_of_ne s hji] at hj
      exact absurd hj ((htoken t hk).2.1 j)
    · rw [attempts_setAttempt_of_ne s hji] at hj
      rw [attempts_setAttempt_of_ne s hki] at hk
      exact hs.drawn_inj j k t hj hk
  · intro j t ht
    rcases hstage j with h | h <;> rw [h] at ht
    · exact (htoken t ht).2.2
    · exact hs.drawn_new j t ht
  · intro j now hnow
    rcases hstage j with h | h <;> rw [h] at hnow
    · exact hreading now hnow
    · exact hs.reading_le j now hnow

theorem Sound.idle (hs : s.Sound) (i : Nat) : (s.setAttempt i .idle).Sound :=
  hs.setAttempt i (fun _ h => by simp [Attempt.token?] at h)
    (fun _ h => by simp [Attempt.reading?] at h)

theorem Sound.read (hs : s.Sound) (i : Nat) (name : String) (lease : Duration) :
    (s.step (.read i name lease)).Sound := by
  cases hi : s.attempts i with
  | idle =>
      rw [step_read hi]
      refine hs.setAttempt i (fun _ h => by simp [Attempt.token?] at h) fun now h => ?_
      obtain rfl := Option.some.inj h
      exact Nat.le_refl _
  | clocked _ _ _ => simpa [step, hi] using hs
  | drawn _ _ _ => simpa [step, hi] using hs

/-- Drawing a token leaves one that nobody has, unless the counter wraps around. -/
theorem Sound.drawToken (hs : s.Sound) (hlt : s.draws + 1 < UInt64.size) :
    s.drawToken.2.Sound := by
  refine { hs with next := ?_, drawn_lt := fun i t h => ?_, granted_lt := fun g hg => ?_ }
  · change (s.table.next + 1).toNat = s.draws + 1
    rw [UInt64.toNat_add, hs.next]
    exact Nat.mod_eq_of_lt hlt
  · exact Nat.lt_succ_of_lt (hs.drawn_lt i t h)
  · exact Nat.lt_succ_of_lt (hs.granted_lt g hg)

/-- The token that is drawn next is nobody's yet. -/
theorem Sound.fst_drawToken_new (hs : s.Sound) :
    s.drawToken.1.toNat = s.draws ∧
      (∀ j, (s.attempts j).token? ≠ some s.drawToken.1) ∧
      ∀ g ∈ s.grants, g.token ≠ s.drawToken.1 := by
  have hnext : s.drawToken.1.toNat = s.draws := hs.next
  refine ⟨hnext, fun j hj => ?_, fun g hg heq => ?_⟩
  · exact absurd hnext (Nat.ne_of_lt (hs.drawn_lt j _ hj))
  · exact absurd (heq ▸ hnext) (Nat.ne_of_lt (hs.granted_lt g hg))

theorem Sound.draw (hs : s.Sound) (i : Nat) (hlt : (s.step (.draw i)).draws < UInt64.size) :
    (s.step (.draw i)).Sound := by
  cases hi : s.attempts i with
  | idle => simpa [step, hi] using hs
  | drawn _ _ _ => simpa [step, hi] using hs
  | clocked name lease now =>
      rw [step_draw hi] at hlt ⊢
      cases hl : now.later? lease with
      | none =>
          simp only [hl] at hlt ⊢
          exact (hs.drawToken hlt).idle i
      | some expiresAt =>
          simp only [hl] at hlt ⊢
          obtain ⟨hnext, hdrawn, hgranted⟩ := hs.fst_drawToken_new
          refine (hs.drawToken hlt).setAttempt i (fun t ht => ?_) fun reading hr => ?_
          · obtain rfl := Option.some.inj ht
            exact ⟨Nat.lt_succ_of_le (Nat.le_of_eq hnext), hdrawn, hgranted⟩
          · obtain rfl := Option.some.inj hr
            exact hs.reading_le i _ (by simp [hi, Attempt.reading?])

/-- A lease may be granted on a name without an unexpired entry, if its token is drawn and
nobody's. -/
theorem Sound.grant (hs : s.Sound) {name : String} {h : Holding}
    (hlt : h.token.toNat < s.draws) (hdrawn : ∀ j, (s.attempts j).token? ≠ some h.token)
    (hgranted : ∀ g ∈ s.grants, g.token ≠ h.token)
    (hfree : ∀ old, s.table.held.get? name = some old → ¬ s.clock < old.expiresAt) :
    (s.grant name h).Sound := by
  refine { hs with drawn_new := ?_, granted_lt := ?_, distinct := ?_, entry_granted := ?_,
                   entered := ?_ }
  · intro i t ht g hg
    rcases List.mem_cons.1 hg with rfl | hg
    · intro heq
      obtain rfl : h.token = t := heq
      exact hdrawn i ht
    · exact hs.drawn_new i t ht g hg
  · intro g hg
    rcases List.mem_cons.1 hg with rfl | hg
    · exact hlt
    · exact hs.granted_lt g hg
  · refine List.nodup_cons.2 ⟨fun hmem => ?_, hs.distinct⟩
    obtain ⟨g, hg, heq⟩ := List.mem_map.1 hmem
    exact hgranted g hg heq
  · exact Backed.grant hs.entry_granted name h
  · intro g hg hlive
    rcases List.mem_cons.1 hg with rfl | hg
    · simp [LockSystem.grant]
    · have hold := hs.entered g hg hlive
      -- An unexpired lease on the name would still stand in the table.
      have hne : name ≠ g.name := by
        intro heq
        rw [← heq] at hold
        exact hfree _ hold hlive
      rw [LockSystem.grant, NameMap.get?_insert_of_ne _ hne]
      exact hold

theorem Sound.enter (hs : s.Sound) (i : Nat) : (s.step (.enter i)).Sound := by
  cases hi : s.attempts i with
  | idle => simpa [step, hi] using hs
  | clocked _ _ _ => simpa [step, hi] using hs
  | drawn name now h =>
      cases hheld : s.table.isHeld name now with
      | true =>
          rw [step_enter_of_isHeld hi hheld]
          exact hs.idle i
      | false =>
          rw [step_enter_of_not_isHeld hi hheld]
          have htoken : (s.attempts i).token? = some h.token := by simp [hi, Attempt.token?]
          have hreading := hs.reading_le i now (by simp [hi, Attempt.reading?])
          refine (hs.idle i).grant (hs.drawn_lt i _ htoken) (fun j hj => ?_)
            (hs.drawn_new i _ htoken)
            fun old hold => LeaseTable.expired_of_not_isHeld hheld hold hreading
          by_cases hji : j = i
          · simp [hji, Attempt.token?] at hj
          · rw [attempts_setAttempt_of_ne s hji] at hj
            exact hji (hs.drawn_inj j i _ hj htoken)

/-- Only one lease that is not given back has a token. -/
theorem Sound.eq_of_token_eq (hs : s.Sound) {g g' : Grant} (hg : g ∈ s.grants)
    (hg' : g' ∈ s.grants) (heq : g.token = g'.token) : g = g' :=
  List.inj_on_of_nodup_map hs.distinct hg hg' heq

/-- Giving a lease back frees its own name at most. -/
theorem Sound.drop (hs : s.Sound) (g : Grant) : (s.step (.drop g)).Sound := by
  by_cases hg : g ∈ s.grants
  · have hbacked := Backed.drop hs.entry_granted g
    rw [step_drop hg] at hbacked ⊢
    have hsub : ∀ g' ∈ s.grants.erase g, g' ∈ s.grants := fun _ => List.mem_of_mem_erase
    refine { hs with next := ?_, distinct := ?_, entry_granted := hbacked, entered := ?_,
                     drawn_new := fun i t h g' hg' => hs.drawn_new i t h g' (hsub g' hg'),
                     granted_lt := fun g' hg' => hs.granted_lt g' (hsub g' hg') }
    · simpa using hs.next
    · exact (List.erase_sublist.map Grant.token).nodup hs.distinct
    · intro g' hg' hlive
      have hentry := hs.entered g' (hsub g' hg') hlive
      have hne : g' ≠ g := ((hs.distinct.of_map Grant.token).mem_erase_iff.1 hg').1
      by_cases hname : g.name = g'.name
      · have htoken : g'.token ≠ g.token :=
          fun heq => hne (hs.eq_of_token_eq (hsub g' hg') hg heq)
        change (s.table.release g.name g.token).held.get? g'.name = _
        rw [hname, LeaseTable.release_of_ne hentry htoken, hentry]
      · exact (LeaseTable.get?_release_of_ne s.table hname g.token).trans hentry
  · simpa [step, hg] using hs

/-- Every move keeps the invariant, as long as the counter of tokens does not wrap around. -/
theorem Sound.step (hs : s.Sound) (m : Move) (hlt : (s.step m).draws < UInt64.size) :
    (s.step m).Sound := by
  cases m with
  | pass d => exact hs.pass d
  | read i name lease => exact hs.read i name lease
  | draw i => exact hs.draw i hlt
  | enter i => exact hs.enter i
  | drop g => exact hs.drop g

theorem draws_le_step (s : LockSystem) (m : Move) : s.draws ≤ (s.step m).draws := by
  cases m with
  | pass d => exact Nat.le_refl _
  | read i name lease =>
      simp only [LockSystem.step]
      split <;> exact Nat.le_refl _
  | draw i =>
      cases hi : s.attempts i with
      | clocked name lease now =>
          rw [step_draw hi]
          split <;> exact Nat.le_succ _
      | _ => simp [LockSystem.step, hi]
  | enter i =>
      cases hi : s.attempts i with
      | drawn name now h =>
          cases hheld : s.table.isHeld name now with
          | true => rw [step_enter_of_isHeld hi hheld]; exact Nat.le_refl _
          | false => rw [step_enter_of_not_isHeld hi hheld]; exact Nat.le_refl _
      | _ => simp [LockSystem.step, hi]
  | drop g =>
      simp only [LockSystem.step]
      split <;> exact Nat.le_refl _

theorem draws_le_run (s : LockSystem) (moves : List Move) : s.draws ≤ (s.run moves).draws := by
  induction moves generalizing s with
  | nil => exact Nat.le_refl _
  | cons m moves ih => exact Nat.le_trans (s.draws_le_step m) (ih (s.step m))

/-- **Moves in any order keep the invariant.** -/
theorem Sound.run (hs : s.Sound) {moves : List Move}
    (hlt : (s.run moves).draws < UInt64.size) : (s.run moves).Sound := by
  induction moves generalizing s with
  | nil => exact hs
  | cons m moves ih =>
      have hstep := Nat.lt_of_le_of_lt ((s.step m).draws_le_run moves) hlt
      exact ih (hs.step m hstep) hlt

theorem Reachable.sound (h : s.Reachable) (hlt : s.draws < UInt64.size) : s.Sound := by
  obtain ⟨now, moves, rfl⟩ := h
  exact (sound_start now).run hlt

/-! ## Exclusion -/

/-- An unexpired lease stands in the table. -/
theorem Sound.get?_of_mem_unexpired (hs : s.Sound) {name : String} {g : Grant}
    (hg : g ∈ s.unexpired name) : s.table.held.get? name = some ⟨g.token, g.expiresAt⟩ := by
  obtain ⟨hmem, rfl, hlive⟩ := mem_unexpired.1 hg
  exact hs.entered g hmem hlive

theorem Sound.eq_of_mem_unexpired (hs : s.Sound) {name : String} {g g' : Grant}
    (hg : g ∈ s.unexpired name) (hg' : g' ∈ s.unexpired name) : g = g' := by
  have heq := (hs.get?_of_mem_unexpired hg).symm.trans (hs.get?_of_mem_unexpired hg')
  simp only [Option.some.injEq, Holding.mk.injEq] at heq
  exact hs.eq_of_token_eq (mem_unexpired.1 hg).1 (mem_unexpired.1 hg').1 heq.1

theorem Sound.length_unexpired_le (hs : s.Sound) (name : String) :
    (s.unexpired name).length ≤ 1 := by
  have hnodup : (s.unexpired name).Nodup := (hs.distinct.of_map Grant.token).filter _
  cases h : s.unexpired name with
  | nil => exact Nat.zero_le _
  | cons g rest =>
      cases rest with
      | nil => exact Nat.le_refl _
      | cons g' rest =>
          have hg : g ∈ s.unexpired name := by simp [h]
          have hg' : g' ∈ s.unexpired name := by simp [h]
          simp [h, hs.eq_of_mem_unexpired hg hg'] at hnodup

/-- The table shows a name as held exactly while there is an unexpired lease on it. -/
theorem Sound.isHeld_iff (hs : s.Sound) (name : String) :
    s.table.isHeld name s.clock = true ↔ ∃ g, g ∈ s.unexpired name := by
  constructor
  · exact Backed.exists_unexpired hs.entry_granted
  · rintro ⟨g, hg⟩
    have hlive := (mem_unexpired.1 hg).2.2
    simpa [LeaseTable.isHeld, hs.get?_of_mem_unexpired hg, Holding.liveAt] using hlive

/-- A thread with an old clock reading is granted nothing while a lease is unexpired. -/
theorem Sound.grants_enter (hs : s.Sound) {i : Nat} {name : String} {now : Instant}
    {h : Holding} (hi : s.attempts i = .drawn name now h) {g : Grant}
    (hg : g ∈ s.unexpired name) : (s.step (.enter i)).grants = s.grants := by
  have hreading := hs.reading_le i now (by simp [hi, Attempt.reading?])
  have hlive : now < g.expiresAt := Nat.lt_of_le_of_lt hreading (mem_unexpired.1 hg).2.2
  have hheld : s.table.isHeld name now = true := by
    simpa [LeaseTable.isHeld, hs.get?_of_mem_unexpired hg, Holding.liveAt] using hlive
  rw [step_enter_of_isHeld hi hheld]
  rfl

/-- Giving back another lease does not end an unexpired one. -/
theorem mem_unexpired_drop {name : String} {g g' : Grant} (hg : g ∈ s.unexpired name)
    (hne : g' ≠ g) : g ∈ (s.step (.drop g')).unexpired name := by
  by_cases hg' : g' ∈ s.grants
  · obtain ⟨hmem, hname, hlive⟩ := mem_unexpired.1 hg
    rw [step_drop hg', mem_unexpired]
    exact ⟨(List.mem_erase_of_ne hne.symm).2 hmem, hname, hlive⟩
  · simpa [LockSystem.step, hg'] using hg

theorem clock_drop (s : LockSystem) (g : Grant) : (s.step (.drop g)).clock = s.clock := by
  simp only [LockSystem.step]
  split <;> rfl

/-- **At most one unexpired lease.**  In every order of the moves of any number of threads,
every name has at most one lease that is neither given back nor expired, and is shown as held
exactly while it has one.  A thread that enters the table with an old clock reading is not
granted a second one, and giving back another lease keeps the name held. -/
theorem exclusive (h : s.Reachable) (hdraws : s.draws < UInt64.size) (name : String) :
    (s.unexpired name).length ≤ 1 ∧
    (s.table.isHeld name s.clock = true ↔ ∃ g, g ∈ s.unexpired name) ∧
    (∀ i reading holding g, s.attempts i = .drawn name reading holding →
      g ∈ s.unexpired name → (s.step (.enter i)).grants = s.grants) ∧
    (∀ g g', g ∈ s.unexpired name → g' ≠ g →
      g ∈ (s.step (.drop g')).unexpired name ∧
        (s.step (.drop g')).table.isHeld name s.clock = true) := by
  have hs := h.sound hdraws
  refine ⟨hs.length_unexpired_le name, hs.isHeld_iff name,
    fun i reading holding g hi hg => hs.grants_enter hi hg, fun g g' hg hne => ?_⟩
  have hkept := mem_unexpired_drop hg hne
  refine ⟨hkept, ?_⟩
  rw [← s.clock_drop g']
  exact ((hs.drop g').isHeld_iff name).2 ⟨g, hkept⟩

/-- A lease expires, is taken over, and is given back after that. -/
theorem exclusive_takeover :
    ∃ s : LockSystem, s.Reachable ∧ s.draws < UInt64.size ∧ s.draws = 2 ∧
      (s.unexpired "sync").length ≤ 1 ∧
      (s.step (.drop ⟨"sync", 0, ⟨5⟩⟩)).table.isHeld "sync" s.clock = true := by
  let moves : List Move := [.read 0 "sync" ⟨5⟩, .draw 0, .enter 0, .pass ⟨5⟩,
    .read 1 "sync" ⟨5⟩, .draw 1, .enter 1]
  have hs : ((start ⟨0⟩).run moves).Reachable := ⟨⟨0⟩, moves, rfl⟩
  have hdraws : ((start ⟨0⟩).run moves).draws < UInt64.size := by decide
  obtain ⟨hlength, -, -, hdrop⟩ := exclusive hs hdraws "sync"
  exact ⟨_, hs, hdraws, by decide, hlength,
    (hdrop ⟨"sync", 1, ⟨10⟩⟩ ⟨"sync", 0, ⟨5⟩⟩ (by decide) (by decide)).2⟩

end JobSupervisor.LockSystem
