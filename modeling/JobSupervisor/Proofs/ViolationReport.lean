import JobSupervisor.Proofs.ConfigurationRules
import Mathlib.Data.List.Count

/-!
# What the checks of a configuration report

The walk through the jobs carries the names met so far and passes over jobs without a name.  The
report can be read off without the walk: what is reported about a job depends on its place, on the
job itself, and on whether a job before it has the same name.  Nothing else about the order of the
jobs matters, and whether a job is enabled does not matter at all.

## Main definitions

* `Config.violationsAt` — what the rules say about the job at a place.
* `Config.Met` — the names that the walk carries are those of the jobs before, as far as they have
  one.
* `Configuration.violations_report` — the whole report.
-/

namespace JobSupervisor.Config

/-- What the rules say about the job `j` at the place `i` among jobs: that it has no name, or else
that an earlier job has its name, that it has no interval, and that it has no budget. -/
def violationsAt (js : List JobEntry) (i : Nat) (j : JobEntry) : List Violation :=
  if Text.IsBlank j.name then [.emptyJobName i]
  else
    (if j.name ∈ (js.take i).map JobEntry.name then [.duplicateJobName j.name] else []) ++
      (if j.intervalSecs = 0 then [.zeroInterval j.name] else []) ++
      (if j.maxExecutionSecs = 0 then [.zeroBudget j.name] else [])

/-! ## The walk and the places -/

/-- Apart from blank ones, the names that the walk carries are those of the jobs before. -/
def Met (earlier : List String) (before : List JobEntry) : Prop :=
  ∀ name, ¬ Text.IsBlank name → (name ∈ earlier ↔ name ∈ before.map JobEntry.name)

theorem met_nil : Met [] [] := fun _ _ => by simp

variable {earlier : List String} {before : List JobEntry}

/-- The walk passes over a job without a name. -/
theorem Met.pass (h : Met earlier before) {j : JobEntry} (hj : Text.IsBlank j.name) :
    Met earlier (before ++ [j]) := by
  intro name hname
  have hne : name ≠ j.name := fun heq => hname (heq ▸ hj)
  simp [h name hname, hne]

/-- The walk takes the name of a job along. -/
theorem Met.take (h : Met earlier before) (j : JobEntry) :
    Met (j.name :: earlier) (before ++ [j]) := by
  intro name hname
  rw [List.mem_cons, h name hname, List.map_append, List.mem_append, List.map_singleton,
    List.mem_singleton, or_comm]

/-- **The walk reports about each job what the rules say about its place.** -/
theorem jobViolations_eq_flatMap (h : Met earlier before) (js : List JobEntry) :
    jobViolations earlier before.length js =
      (js.zipIdx before.length).flatMap fun e => violationsAt (before ++ js) e.2 e.1 := by
  induction js generalizing earlier before with
  | nil => rfl
  | cons j js ih =>
      have hlength : before.length + 1 = (before ++ [j]).length := by simp
      have htake : (before ++ j :: js).take before.length = before := by simp
      have hall : before ++ j :: js = (before ++ [j]) ++ js := by simp
      rw [jobViolations, List.zipIdx_cons, List.flatMap_cons, violationsAt, htake]
      by_cases hj : Text.IsBlank j.name
      · rw [if_pos ((Text.isEmpty_trim_iff j.name).2 hj), if_pos hj, hlength, ih (h.pass hj), hall]
        rfl
      · rw [if_neg (mt (Text.isEmpty_trim_iff j.name).1 hj), if_neg hj, hlength, ih (h.take j),
          hall, JobEntry.violations]
        simp only [h j.name hj]

/-! ## Reports of duplicates -/

theorem count_duplicate_violations (earlier : List String) (j : JobEntry) (name : String) :
    (j.violations earlier).count (.duplicateJobName name) =
      if j.name = name ∧ name ∈ earlier then 1 else 0 := by
  have hrest : ((if j.intervalSecs = 0 then [Violation.zeroInterval j.name] else []) ++
      (if j.maxExecutionSecs = 0 then [Violation.zeroBudget j.name] else [])).count
        (Violation.duplicateJobName name) = 0 := by
    split <;> split <;> simp
  rw [JobEntry.violations, List.append_assoc, List.count_append, hrest]
  by_cases hn : j.name = name
  · subst hn
    by_cases hmem : j.name ∈ earlier <;> simp [hmem]
  · by_cases hmem : j.name ∈ earlier <;> simp [hmem, hn]

/-- A name is reported as often as it occurs, but once less if no job before the walk has it. -/
theorem count_duplicate_jobViolations {name : String} (hname : ¬ Text.IsBlank name)
    (earlier : List String) (index : Nat) (js : List JobEntry) :
    (jobViolations earlier index js).count (.duplicateJobName name) =
      (js.map JobEntry.name).count name - if name ∈ earlier then 0 else 1 := by
  induction js generalizing earlier index with
  | nil => simp [jobViolations]
  | cons j js ih =>
      rw [jobViolations, List.map_cons, List.count_cons]
      by_cases hj : (Text.trim j.name).isEmpty = true
      · have hne : j.name ≠ name := fun heq =>
          hname (heq ▸ (Text.isEmpty_trim_iff j.name).1 hj)
        rw [if_pos hj, List.count_cons, ih]
        simp [hne]
      · rw [if_neg hj, List.count_append, count_duplicate_violations, ih]
        by_cases heq : j.name = name
        · subst heq
          by_cases hmem : j.name ∈ earlier
          · simp [hmem, Nat.add_comm]
          · simp [hmem]
        · simp [heq, Ne.symm heq]

/-! ## Disabled jobs -/

/-- Whether jobs are enabled does not matter. -/
theorem jobViolations_map_enabled (f : JobEntry → Bool) (earlier : List String) (index : Nat)
    (js : List JobEntry) :
    jobViolations earlier index (js.map fun j => { j with enabled := f j }) =
      jobViolations earlier index js := by
  induction js generalizing earlier index with
  | nil => rfl
  | cons j js ih =>
      rw [List.map_cons, jobViolations, jobViolations, ih, ih]
      rfl

end JobSupervisor.Config

namespace JobSupervisor.Configuration

open Config

/-- A report on a configuration contains no duplicate but those of the jobs. -/
theorem count_duplicate (c : Configuration) (name : String) :
    c.violations.count (.duplicateJobName name) =
      (jobViolations [] 0 c.jobs).count (.duplicateJobName name) := by
  have haddress (field : AddressField) (enabled : Bool) (value : String) :
      (addressViolations field enabled value).count (.duplicateJobName name) = 0 := by
    rw [addressViolations]
    split <;> simp
  have hlock : c.lock.violations.count (.duplicateJobName name) = 0 := by
    rw [LockSettings.violations]
    split <;> simp
  rw [violations, List.count_append, List.count_append, List.count_append, haddress, haddress,
    hlock]
  rfl

/-- **The report on a configuration.**  It is empty exactly if the configuration keeps the rules.
It consists of what is said about the job at each place, in the order of the places, and then, at
most once each, of a lease without a length, of the address of the endpoint and of the address of
the exporter.  In whatever order the same jobs stand, a name is reported as a duplicate as often as
it occurs, less one; and jobs that are disabled are examined like enabled ones. -/
theorem violations_report (c : Configuration) :
    (c.violations = [] ↔ c.Valid) ∧
    c.violations = (c.jobs.zipIdx.flatMap fun e => violationsAt c.jobs e.2 e.1) ++
      (if c.lock.enabled = true ∧ c.lock.leaseSecs = 0 then [.zeroLease] else []) ++
      (if c.health.enabled = true ∧ Net.SocketAddress.parse? c.health.bindAddress = none
        then [.invalidAddress .health c.health.bindAddress] else []) ++
      (if c.observability.metricsEnabled = true ∧
          Net.SocketAddress.parse? c.observability.metricsAddress = none
        then [.invalidAddress .metrics c.observability.metricsAddress] else []) ∧
    (∀ js, js.Perm c.jobs → ∀ name, ¬ Text.IsBlank name →
      ({ c with jobs := js } : Configuration).violations.count (.duplicateJobName name) =
        (c.jobs.map JobEntry.name).count name - 1) ∧
    ∀ f : JobEntry → Bool,
      ({ c with jobs := c.jobs.map fun j => { j with enabled := f j } } :
        Configuration).violations = c.violations := by
  refine ⟨c.violations_eq_nil_iff, ?_, fun js hperm name hname => ?_, fun f => ?_⟩
  · have hjobs := jobViolations_eq_flatMap met_nil c.jobs
    rw [List.length_nil, List.nil_append] at hjobs
    rw [violations, hjobs]
    simp [LockSettings.violations, addressViolations, Net.SocketAddress.isLiteral]
  · have hnames : (js.map JobEntry.name).Perm (c.jobs.map JobEntry.name) := hperm.map _
    rw [count_duplicate, count_duplicate_jobViolations hname, hnames.count_eq]
    simp
  · rw [violations, jobViolations_map_enabled]
    rfl

/-- Two jobs of one name, a job without a name, and a job that has no interval and no budget, two
of them disabled; the lease has no length, and an address is none. -/
def flawed : Configuration :=
  { Configuration.default with
    health := ⟨true, "not-an-address"⟩
    jobs := [{ JobEntry.default with name := "sync" },
      { JobEntry.default with name := "sync", enabled := false },
      { JobEntry.default with name := " " },
      { JobEntry.default with
        name := "broken", intervalSecs := 0, maxExecutionSecs := 0, enabled := false }]
    lock := ⟨true, 0⟩ }

/-- All its flaws are reported, and in the opposite order the duplicate is, too. -/
theorem violations_report_flawed :
    flawed.violations = [.duplicateJobName "sync", .emptyJobName 2, .zeroInterval "broken",
      .zeroBudget "broken", .zeroLease, .invalidAddress .health "not-an-address"] ∧
    flawed.jobs.reverse.Perm flawed.jobs ∧ ¬ Text.IsBlank "sync" ∧
    ({ flawed with jobs := flawed.jobs.reverse } : Configuration).violations.count
      (.duplicateJobName "sync") = 1 := by
  obtain ⟨-, hreport, hcount, -⟩ := violations_report flawed
  have hblank : ¬ Text.IsBlank "sync" := by decide
  refine ⟨?_, List.reverse_perm _, hblank, hcount _ (List.reverse_perm _) "sync" hblank⟩
  rw [hreport]
  decide +kernel

end JobSupervisor.Configuration
