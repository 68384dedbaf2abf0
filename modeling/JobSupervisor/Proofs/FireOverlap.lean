import JobSupervisor.Proofs.FireLeases

/-!
# Fires that run at the same time

A lease may expire while its holder still runs the job, and then another fire of the same name
may be granted one.  This is the only way in which two runs of a name overlap: whoever is granted
a lease found the name without an unexpired entry at a clock reading that is not ahead of the
clock, and an unexpired lease stands in the table until it is given back.

## Main definitions

* `FireSystem.tenureAt` — the lease that a fire holds.
* `FireSystem.Grants` — a fire is granted a lease.
* `FireSystem.Orderly`, `FireSystem.Orderly.step`, `FireSystem.Orderly.run` — leases that are held
  at the same time were granted one after the other.
-/

namespace JobSupervisor

namespace LockSystem

variable {s : LockSystem}

/-- A thread that finds a name free at its reading finds all leases on it expired. -/
theorem Sound.expired_of_not_isHeld (hs : s.Sound) {i : Nat} {name : String} {now : Instant}
    {h : Holding} (hi : s.attempts i = .drawn name now h)
    (hheld : s.table.isHeld name now = false) {g : Grant} (hg : g ∈ s.grants)
    (hname : g.name = name) : ¬ s.clock < g.expiresAt := by
  intro hlive
  have hentry := hs.entered g hg hlive
  rw [hname] at hentry
  have hreading := hs.reading_le i now (by simp [hi, Attempt.reading?])
  exact LeaseTable.expired_of_not_isHeld hheld hentry hreading hlive

/-- Only the clock itself changes the clock. -/
theorem clock_step {m : Move} (hm : ∀ d, m ≠ .pass d) (s : LockSystem) :
    (s.step m).clock = s.clock := by
  cases m with
  | pass d => exact absurd rfl (hm d)
  | read i name lease =>
      simp only [LockSystem.step]
      split <;> rfl
  | draw i =>
      cases hi : s.attempts i with
      | clocked name lease now =>
          rw [step_draw hi]
          split <;> rfl
      | _ => simp [LockSystem.step, hi]
  | enter i =>
      cases hi : s.attempts i with
      | drawn name now h =>
          rcases step_enter_cases hi with ⟨-, hstep⟩ | ⟨-, -, -, hstep⟩
          · rw [hstep]
            rfl
          · rw [hstep]
            rfl
      | _ => simp [LockSystem.step, hi]
  | drop g => exact s.clock_drop g

theorem clock_le_step (s : LockSystem) (m : Move) : s.clock.nanos ≤ (s.step m).clock.nanos := by
  cases m with
  | pass d => exact Nat.le_add_right _ _
  | _ => exact Nat.le_of_eq (congrArg Instant.nanos (clock_step (by simp) s)).symm

end LockSystem

namespace FireSystem

variable {s₀ : Supervisor} {s : FireSystem} {i : Nat} {f : FireTask}

/-- The lease that a fire holds. -/
def tenureAt (s : FireSystem) (i : Nat) : Option Tenure :=
  s.fires[i]?.bind fun f => f.stage.tenure?

theorem tenureAt_eq (hi : s.fires[i]? = some f) : s.tenureAt i = f.stage.tenure? := by
  simp [tenureAt, hi]

/-- The lease of a fire is not given back. -/
theorem Sound.mem_grants (hs : s.Sound s₀) {t : Tenure} (ht : s.tenureAt i = some t) :
    t.grant ∈ s.lock.grants := by
  obtain ⟨f, hi, hf⟩ := Option.bind_eq_some_iff.1 ht
  refine hs.grants.mem_iff.2 (List.mem_append_right _ (List.mem_filterMap.2 ⟨f, ?_, ?_⟩))
  · exact mem_of_getElem? hi
  · simp [FireTask.lease?, hf]

/-! ## What a move does to the leases of fires -/

/-- No fire is granted a lease, and the lock takes one step at most. -/
structure Follows (s s' : FireSystem) : Prop where
  lock : s'.lock = s.lock ∨ ∃ l, s'.lock = s.lock.step l
  turns : s'.turns = s.turns
  tenures : ∀ i t, s'.tenureAt i = some t → s.tenureAt i = some t

/-- A fire is granted a lease, on whose name it found no unexpired one. -/
structure Grants (s s' : FireSystem) (i : Nat) (t : Tenure) : Prop where
  lock : ∃ l, s'.lock = s.lock.step l
  turns : s'.turns = s.turns + 1
  since : t.since = s.lock.clock
  turn : t.turn = s.turns
  free : s.lock.Sound → ∀ g ∈ s.lock.grants, g.name = t.grant.name →
    ¬ s.lock.clock < g.expiresAt
  tenures : ∀ k u, s'.tenureAt k = some u → k = i ∧ u = t ∨ k ≠ i ∧ s.tenureAt k = some u

theorem Follows.refl (s : FireSystem) : s.Follows s := ⟨.inl rfl, rfl, fun _ _ h => h⟩

theorem follows_of_fires {s' : FireSystem}
    (hlock : s'.lock = s.lock ∨ ∃ l, s'.lock = s.lock.step l) (hturns : s'.turns = s.turns)
    (hfires : s'.fires = s.fires) : s.Follows s' :=
  ⟨hlock, hturns, fun i t h => by simpa [tenureAt, hfires] using h⟩

/-- A fire that is changed may lose its lease. -/
theorem follows_of_set {s' : FireSystem} (hi : s.fires[i]? = some f) {f' : FireTask}
    (hlock : s'.lock = s.lock ∨ ∃ l, s'.lock = s.lock.step l) (hturns : s'.turns = s.turns)
    (hfires : s'.fires = s.fires.set i f')
    (h : ∀ t, f'.stage.tenure? = some t → f.stage.tenure? = some t) : s.Follows s' := by
  refine ⟨hlock, hturns, fun k t hk => ?_⟩
  rw [tenureAt, hfires] at hk
  by_cases hki : k = i
  · subst hki
    have hlt : k < s.fires.length := (List.getElem?_eq_some_iff.1 hi).1
    rw [List.getElem?_set_self hlt, Option.bind_some] at hk
    rw [tenureAt_eq hi]
    exact h t hk
  · rwa [List.getElem?_set_ne (Ne.symm hki)] at hk

theorem follows_work {α : Type} (hi : s.fires[i]? = some f) (g : Supervisor → α × Supervisor)
    {next : α → FireTask}
    (h : ∀ a t, (next a).stage.tenure? = some t → f.stage.tenure? = some t) :
    s.Follows (s.work i f g next) :=
  follows_of_set hi (.inl rfl) rfl rfl (h (s.supervisor.onWorker f.thread g).1)

theorem follows_draw (hi : s.fires[i]? = some f) : s.Follows (s.draw i f) := by
  simp only [draw]
  split
  · split
    · exact follows_of_fires (.inr ⟨.draw (asker i), rfl⟩) rfl rfl
    · exact follows_of_set hi (.inr ⟨.draw (asker i), rfl⟩) rfl rfl fun _ h => by cases h
  · exact .refl s

/-- A fire that enters the table is granted a lease or not. -/
theorem enter_cases (hi : s.fires[i]? = some f) :
    s.Follows (s.enter i f) ∨ ∃ t, s.Grants (s.enter i f) i t := by
  cases ha : s.lock.attempts (asker i) with
  | idle => exact .inl (by simpa [enter, ha] using Follows.refl s)
  | clocked _ _ _ => exact .inl (by simpa [enter, ha] using Follows.refl s)
  | drawn name now h =>
      obtain ⟨journal, ⟨-, -, henter⟩ | ⟨tookOver, -, hfree, -, henter⟩⟩ := enter_of_drawn ha f
      · rw [henter]
        exact .inl (follows_of_set hi (.inr ⟨.enter (asker i), rfl⟩) rfl rfl
          fun _ h => by cases h)
      · let t : Tenure := ⟨⟨name, h.token, h.expiresAt⟩, s.lock.clock, s.turns⟩
        let f' : FireTask := { f with
          stage := .granted t, admission := some (.granted tookOver) }
        have hlock : (s.enter i f).lock = s.lock.step (.enter (asker i)) := by
          rw [henter]
          rfl
        have hturns : (s.enter i f).turns = s.turns + 1 := by
          rw [henter]
          rfl
        have hfires : (s.enter i f).fires = s.fires.set i f' := by
          rw [henter]
          rfl
        refine .inr ⟨t, ⟨_, hlock⟩, hturns, rfl, rfl, fun hl g hg hname => ?_, fun k u hk => ?_⟩
        · exact hl.expired_of_not_isHeld ha hfree hg hname
        · rw [tenureAt, hfires] at hk
          by_cases hki : k = i
          · subst hki
            have hlt : k < s.fires.length := (List.getElem?_eq_some_iff.1 hi).1
            rw [List.getElem?_set_self hlt, Option.bind_some] at hk
            exact .inl ⟨rfl, (Option.some.inj hk).symm⟩
          · rw [List.getElem?_set_ne (Ne.symm hki)] at hk
            exact .inr ⟨hki, hk⟩

/-- A step of a fire grants it a lease, or no fire is granted one. -/
theorem own_cases (s : FireSystem) (i : Nat) (m : FireMove) :
    s.Follows (s.step (.own i m)) ∨ ∃ t, s.Grants (s.step (.own i m)) i t := by
  rcases s.step_own_cases i m with h | ⟨f, hi, h⟩
  · exact .inl (by rw [h]; exact .refl s)
  · generalize s.step (.own i m) = s' at h ⊢
    cases h with
    | stay => exact .inl (.refl s)
    | draw hf => exact .inl (follows_draw hi)
    | enter hf => exact enter_cases hi
    | skip hf => exact .inl (follows_of_set hi (.inl rfl) rfl rfl fun _ h => by cases h)
    | begin hf => exact .inl (follows_work hi _ fun _ _ h => by rwa [hf])
    | act hf d => exact .inl (follows_work hi _ fun _ _ h => h)
    | finish hf e =>
        exact .inl (follows_of_set hi (.inl rfl) rfl rfl fun _ h => by rwa [hf])
    | settle hf => exact .inl (follows_work hi _ fun _ _ h => by rwa [hf])
    | giveBack hf =>
        exact .inl (follows_of_set hi (.inr ⟨.drop _, rfl⟩) rfl rfl fun _ h => by cases h)
    | abandon hf => exact .inl (follows_of_set hi (.inl rfl) rfl rfl fun _ h => h)

theorem follows_elsewhere (s : FireSystem) (m : LockSystem.Move) : s.Follows (s.elsewhere m) := by
  cases m with
  | pass d => exact follows_of_fires (.inr ⟨.pass d, rfl⟩) rfl rfl
  | read i name lease =>
      exact follows_of_fires (.inr ⟨.read (asker i + 1) name lease, rfl⟩) rfl rfl
  | draw i => exact follows_of_fires (.inr ⟨.draw (asker i + 1), rfl⟩) rfl rfl
  | enter i =>
      have hlock : ∃ l, s.lock.step (.enter (asker i + 1)) = s.lock.step l := ⟨_, rfl⟩
      cases ha : s.lock.attempts (asker i + 1) with
      | idle => simpa [elsewhere, ha] using Follows.refl s
      | clocked _ _ _ => simpa [elsewhere, ha] using Follows.refl s
      | drawn name now h =>
          obtain ⟨journal, ⟨-, helse⟩ | ⟨-, helse⟩⟩ := elsewhere_enter_of_drawn ha
          · rw [helse]
            exact follows_of_fires (.inr hlock) rfl rfl
          · rw [helse]
            exact follows_of_fires (.inr hlock) rfl rfl
  | drop g =>
      simp only [elsewhere]
      split
      · exact follows_of_fires (.inr ⟨.drop g, rfl⟩) rfl rfl
      · exact .refl s

/-- A move grants a lease to a fire, or no fire is granted one. -/
theorem step_cases (s : FireSystem) (m : Move) :
    s.Follows (s.step m) ∨ ∃ i t, s.Grants (s.step m) i t := by
  cases m with
  | ask job lease thread =>
      refine .inl ⟨.inr ⟨.read (asker s.fires.length) job.name lease, rfl⟩, rfl, fun k t hk => ?_⟩
      obtain ⟨f, hf, ht⟩ := Option.bind_eq_some_iff.1 hk
      rcases Nat.lt_or_ge k s.fires.length with hlt | hge
      · rw [step, List.getElem?_append_left hlt] at hf
        exact Option.bind_eq_some_iff.2 ⟨f, hf, ht⟩
      · rw [step, List.getElem?_append_right hge] at hf
        obtain rfl := List.mem_singleton.1 (List.mem_of_getElem? hf)
        simp [FireStage.tenure?] at ht
  | own i m => exact (s.own_cases i m).imp_right fun h => ⟨i, h⟩
  | elsewhere m => exact .inl (s.follows_elsewhere m)
  | other d => exact .inl (follows_of_fires (.inl rfl) rfl rfl)

/-- The lock takes one step at most. -/
theorem lock_step (s : FireSystem) (m : Move) :
    (s.step m).lock = s.lock ∨ ∃ l, (s.step m).lock = s.lock.step l := by
  rcases s.step_cases m with h | ⟨i, t, h⟩
  · exact h.lock
  · exact .inr h.lock

theorem draws_le_step (s : FireSystem) (m : Move) : s.lock.draws ≤ (s.step m).lock.draws := by
  rcases s.lock_step m with h | ⟨l, h⟩
  · exact Nat.le_of_eq (congrArg LockSystem.draws h).symm
  · rw [h]
    exact s.lock.draws_le_step l

theorem draws_le_run (s : FireSystem) (moves : List Move) :
    s.lock.draws ≤ (s.run moves).lock.draws := by
  induction moves generalizing s with
  | nil => exact Nat.le_refl _
  | cons m moves ih => exact Nat.le_trans (s.draws_le_step m) (ih (s.step m))

theorem clock_le_step (s : FireSystem) (m : Move) :
    s.lock.clock.nanos ≤ (s.step m).lock.clock.nanos := by
  rcases s.lock_step m with h | ⟨l, h⟩
  · exact Nat.le_of_eq (congrArg (·.clock.nanos) h).symm
  · rw [h]
    exact s.lock.clock_le_step l

/-! ## The order of leases that are held at the same time -/

end FireSystem

/-- One lease was granted before another one; if they have the same name, the first one had
expired by then. -/
structure Tenure.Before (t u : Tenure) : Prop where
  turn : t.turn < u.turn
  since : t.since.nanos ≤ u.since.nanos
  expired : t.grant.name = u.grant.name → ¬ u.since < t.grant.expiresAt

namespace FireSystem

variable {s₀ : Supervisor} {s : FireSystem}

/-- The leases of fires were granted in the past, one after the other. -/
structure Orderly (s : FireSystem) : Prop where
  past : ∀ i t, s.tenureAt i = some t → t.turn < s.turns ∧ t.since.nanos ≤ s.lock.clock.nanos
  before : ∀ i j t u, i ≠ j → s.tenureAt i = some t → s.tenureAt j = some u →
    t.Before u ∨ u.Before t

theorem orderly_start (s₀ : Supervisor) : (start s₀).Orderly where
  past i t h := by simp [start, tenureAt] at h
  before i j t u _ h := by simp [start, tenureAt] at h

/-- A move that grants no fire a lease keeps the order. -/
theorem Orderly.follows (ho : s.Orderly) {s' : FireSystem} (h : s.Follows s')
    (hclock : s.lock.clock.nanos ≤ s'.lock.clock.nanos) : s'.Orderly where
  past i t ht := by
    obtain ⟨hturn, hsince⟩ := ho.past i t (h.tenures i t ht)
    exact ⟨by rw [h.turns]; exact hturn, Nat.le_trans hsince hclock⟩
  before i j t u hij ht hu := ho.before i j t u hij (h.tenures i t ht) (h.tenures j u hu)

/-- The lease that is granted comes after those that are held. -/
theorem Orderly.before_granted (ho : s.Orderly) (hs : s.Sound s₀) (hl : s.lock.Sound)
    {s' : FireSystem} {i : Nat} {t : Tenure} (h : s.Grants s' i t) {k : Nat} {u : Tenure}
    (hu : s.tenureAt k = some u) : u.Before t := by
  obtain ⟨hturn, hsince⟩ := ho.past k u hu
  refine ⟨by rw [h.turn]; exact hturn, by rw [h.since]; exact hsince, fun hname => ?_⟩
  rw [h.since]
  exact h.free hl u.grant (hs.mem_grants hu) hname

/-- A fire that is granted a lease keeps the order. -/
theorem Orderly.grants (ho : s.Orderly) (hs : s.Sound s₀) (hl : s.lock.Sound) {s' : FireSystem}
    {i : Nat} {t : Tenure} (h : s.Grants s' i t)
    (hclock : s.lock.clock.nanos ≤ s'.lock.clock.nanos) : s'.Orderly where
  past k u hu := by
    rcases h.tenures k u hu with ⟨-, rfl⟩ | ⟨-, hu⟩
    · exact ⟨by rw [h.turns, h.turn]; exact Nat.lt_succ_self _, by rw [h.since]; exact hclock⟩
    · obtain ⟨hturn, hsince⟩ := ho.past k u hu
      exact ⟨by rw [h.turns]; omega, Nat.le_trans hsince hclock⟩
  before j k u v hjk hu hv := by
    rcases h.tenures j u hu with ⟨hj, rfl⟩ | ⟨-, hu⟩ <;>
      rcases h.tenures k v hv with ⟨hk, rfl⟩ | ⟨-, hv⟩
    · exact absurd (hj.trans hk.symm) hjk
    · exact .inr (ho.before_granted hs hl h hv)
    · exact .inl (ho.before_granted hs hl h hu)
    · exact ho.before j k u v hjk hu hv

/-- Every move keeps the order, as long as the counter of tokens does not wrap around. -/
theorem Orderly.step (ho : s.Orderly) (hs : s.Sound s₀) (m : Move)
    (hdraws : s.lock.draws < UInt64.size) : (s.step m).Orderly := by
  have hclock := s.clock_le_step m
  rcases s.step_cases m with h | ⟨i, t, h⟩
  · exact ho.follows h hclock
  · exact ho.grants hs (hs.lock.sound hdraws) h hclock

/-- **Moves in any order keep the order of leases.** -/
theorem Orderly.run (ho : s.Orderly) (hs : s.Sound s₀) {moves : List Move}
    (hdraws : (s.run moves).lock.draws < UInt64.size) : (s.run moves).Orderly := by
  induction moves generalizing s with
  | nil => exact ho
  | cons m moves ih =>
      have hle := s.draws_le_run (m :: moves)
      exact ih (ho.step hs m (by omega)) (hs.step m) hdraws

/-! ## What the table shows -/

/-- While the lease of a fire is unexpired, its name is held. -/
theorem Sound.isHeld_of_tenureAt (hs : s.Sound s₀) (hdraws : s.lock.draws < UInt64.size) {i : Nat}
    {t : Tenure} (ht : s.tenureAt i = some t) (hlive : s.lock.clock < t.grant.expiresAt) :
    s.supervisor.leases.isHeld t.grant.name s.supervisor.clock = true := by
  rw [hs.synced.leases, hs.synced.clock]
  exact ((hs.lock.sound hdraws).isHeld_iff t.grant.name).2
    ⟨t.grant, LockSystem.mem_unexpired.2 ⟨hs.mem_grants ht, rfl, hlive⟩⟩

/-- A name on which no fire and nobody else holds an unexpired lease is not held. -/
theorem Sound.isHeld_eq_false (hs : s.Sound s₀) {name : String}
    (hfires : ∀ i t, s.tenureAt i = some t → t.grant.name ≠ name)
    (htaken : ∀ g ∈ s.taken, g.name = name → ¬ s.lock.clock < g.expiresAt) :
    s.supervisor.leases.isHeld name s.supervisor.clock = false := by
  rw [hs.synced.leases, hs.synced.clock, ← Bool.not_eq_true]
  intro hheld
  obtain ⟨g, hg⟩ := hs.lock.backed.exists_unexpired hheld
  obtain ⟨hmem, hname, hlive⟩ := LockSystem.mem_unexpired.1 hg
  rcases List.mem_append.1 (hs.grants.mem_iff.1 hmem) with htaken' | hholding
  · exact htaken g htaken' hname hlive
  · obtain ⟨f, hf, hlease⟩ := List.mem_filterMap.1 hholding
    obtain ⟨i, hi⟩ := List.mem_iff_getElem?.1 hf
    obtain ⟨t, ht, rfl⟩ := Option.map_eq_some_iff.1 hlease
    exact hfires i t ((tenureAt_eq hi).trans ht) hname

end FireSystem

end JobSupervisor
