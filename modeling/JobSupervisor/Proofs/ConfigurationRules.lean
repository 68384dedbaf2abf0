import JobSupervisor.Config.Load
import Mathlib.Data.List.Nodup

/-!
# What the checks of a configuration mean

The checks walk through the jobs with the names met so far, and look at the lock and at the
addresses after that.  A configuration passes them exactly if it keeps the rules, which say
nothing about the order of the walk.

## Main definitions

* `Config.JobsValid` — the rules for jobs, given the names before them.
* `Configuration.violations_eq_nil_iff` — a configuration without violations keeps the rules.
-/

namespace JobSupervisor.Config

/-- The rules for jobs that come after jobs with other names. -/
structure JobsValid (earlier : List String) (js : List JobEntry) : Prop where
  named : ∀ j ∈ js, ¬ Text.IsBlank j.name
  new : ∀ j ∈ js, j.name ∉ earlier
  distinct : (js.map JobEntry.name).Nodup
  interval_pos : ∀ j ∈ js, 0 < j.intervalSecs
  budget_pos : ∀ j ∈ js, 0 < j.maxExecutionSecs

theorem JobEntry.violations_eq_nil_iff (earlier : List String) (j : JobEntry) :
    j.violations earlier = [] ↔
      j.name ∉ earlier ∧ 0 < j.intervalSecs ∧ 0 < j.maxExecutionSecs := by
  simp [JobEntry.violations, Nat.pos_iff_ne_zero]

theorem jobsValid_cons_iff {earlier : List String} {j : JobEntry} {js : List JobEntry} :
    JobsValid earlier (j :: js) ↔
      (¬ Text.IsBlank j.name ∧ j.violations earlier = []) ∧ JobsValid (j.name :: earlier) js := by
  rw [JobEntry.violations_eq_nil_iff]
  constructor
  · intro h
    obtain ⟨hnew, hdistinct⟩ := List.nodup_cons.1 h.distinct
    refine ⟨⟨h.named j (by simp), h.new j (by simp), h.interval_pos j (by simp),
      h.budget_pos j (by simp)⟩, ?_⟩
    exact
      { named := fun k hk => h.named k (by simp [hk])
        new := fun k hk => List.not_mem_cons_of_ne_of_not_mem
          (fun heq => hnew (heq ▸ List.mem_map_of_mem hk)) (h.new k (by simp [hk]))
        distinct := hdistinct
        interval_pos := fun k hk => h.interval_pos k (by simp [hk])
        budget_pos := fun k hk => h.budget_pos k (by simp [hk]) }
  · rintro ⟨⟨hnamed, hnew, hinterval, hbudget⟩, h⟩
    have hother : j.name ∉ js.map JobEntry.name := by
      intro hmem
      obtain ⟨k, hk, heq⟩ := List.mem_map.1 hmem
      exact h.new k hk (by simp [heq])
    exact
      { named := List.forall_mem_cons.2 ⟨hnamed, h.named⟩
        new := List.forall_mem_cons.2
          ⟨hnew, fun k hk => List.not_mem_of_not_mem_cons (h.new k hk)⟩
        distinct := List.nodup_cons.2 ⟨hother, h.distinct⟩
        interval_pos := List.forall_mem_cons.2 ⟨hinterval, h.interval_pos⟩
        budget_pos := List.forall_mem_cons.2 ⟨hbudget, h.budget_pos⟩ }

/-- The walk through the jobs finds nothing exactly if they keep the rules. -/
theorem jobViolations_eq_nil_iff (earlier : List String) (index : Nat) (js : List JobEntry) :
    jobViolations earlier index js = [] ↔ JobsValid earlier js := by
  induction js generalizing earlier index with
  | nil => simpa [jobViolations] using ⟨by simp, by simp, by simp, by simp, by simp⟩
  | cons j js ih =>
      have hblank := Text.isEmpty_trim_iff j.name
      rw [jobsValid_cons_iff, jobViolations]
      by_cases h : Text.IsBlank j.name
      · simp [hblank.2 h, h]
      · rw [if_neg (mt hblank.1 h), List.append_eq_nil_iff, ih]
        simp [h]

theorem LockSettings.violations_eq_nil_iff (l : LockSettings) :
    l.violations = [] ↔ (l.enabled = true → 0 < l.leaseSecs) := by
  simp [LockSettings.violations, Nat.pos_iff_ne_zero]

theorem addressViolations_eq_nil_iff (field : AddressField) (enabled : Bool) (value : String) :
    addressViolations field enabled value = [] ↔
      (enabled = true → (Net.SocketAddress.parse? value).isSome = true) := by
  simp [addressViolations, Net.SocketAddress.isLiteral, Option.isSome_iff_ne_none]

end JobSupervisor.Config

namespace JobSupervisor.Configuration

open Config

/-- **A configuration without violations is one that keeps the rules.** -/
theorem violations_eq_nil_iff (c : Configuration) : c.violations = [] ↔ c.Valid := by
  simp only [violations, List.append_eq_nil_iff, jobViolations_eq_nil_iff,
    LockSettings.violations_eq_nil_iff, addressViolations_eq_nil_iff]
  constructor
  · rintro ⟨⟨⟨hjobs, hlease⟩, hbind⟩, hmetrics⟩
    exact ⟨hjobs.named, hjobs.distinct, hjobs.interval_pos, hjobs.budget_pos, hlease, hbind,
      hmetrics⟩
  · intro h
    exact ⟨⟨⟨⟨h.named, by simp, h.distinct, h.interval_pos, h.budget_pos⟩, h.lease_pos⟩,
      h.bind_address⟩, h.metrics_address⟩

/-- A text that is accepted is that of a configuration that keeps the rules. -/
theorem valid_of_ofText {text : String} {c : Configuration} (h : ofText text = .ok c) :
    c.Valid :=
  (violations_eq_nil_iff c).1 (violations_of_ofText h)

end JobSupervisor.Configuration
