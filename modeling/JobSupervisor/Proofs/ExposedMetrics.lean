import JobSupervisor.Metrics

/-!
# What is exposed of the metrics

The metrics of all jobs are exposed as one list of samples, in which a sample is known by its
name and its labels.  Every label names the job, so the samples of one job are among those that
its own series makes; and there no two samples have the same name and the same labels.

## Main definitions

* `Metrics.exposed?` — the value of the sample with a name and labels.
* `Metrics.exposed_runs`, `Metrics.exposed_health` — what the samples of a job show.
-/

namespace JobSupervisor

/-! ## Searching a map for the entry of one key -/

/-- If only the entry of one key can answer, the answer is that of this entry. -/
theorem NameMap.findSome?_toList {α β : Type} (m : NameMap α) (key : String)
    {f : String × α → Option β} (h : ∀ e, e.1 ≠ key → f e = none) :
    m.toList.findSome? f = (m.get? key).bind fun a => f (key, a) := by
  obtain ⟨entries, hasc⟩ := m
  simp only [toList, get?]
  induction entries with
  | nil => rfl
  | cons e entries ih =>
      obtain ⟨k, a⟩ := e
      obtain ⟨hlater, hasc⟩ := List.pairwise_cons.mp hasc
      by_cases hk : k = key
      · subst hk
        -- The keys of the other entries are greater, so they do not answer.
        have hnone : entries.findSome? f = none := by
          apply List.findSome?_eq_none_iff.mpr
          intro e he
          apply h
          intro heq
          have := hlater e he
          rw [heq] at this
          exact String.lt_irrefl k this
        simp only [List.findSome?_cons, find?, if_true, Option.bind_some]
        cases f (k, a) with
        | none => exact hnone
        | some b => rfl
      · simp only [List.findSome?_cons, find?, if_neg hk, h (k, a) hk]
        exact ih hasc

/-! ## The samples of one job -/

namespace Metrics

open Log (Outcome)

/-- The value of the sample with a name and labels, if there is one. -/
def exposed? (m : Metrics) (name : String) (labels : List (String × String)) : Option Nat :=
  (m.samples.find? fun s => s.name = name ∧ s.labels = labels).map Sample.value

theorem labels_of_mem_counter {name : String} {labels : List (String × String)} {n : Nat}
    {sample : Sample} (h : sample ∈ counter? name labels n) : sample.labels = labels := by
  unfold counter? at h
  split at h
  · exact absurd h List.not_mem_nil
  · rw [List.mem_singleton.mp h]

/-- Every sample of a series names its job first. -/
theorem labels_of_mem_seriesSamples {job : String} {s : Series} {sample : Sample}
    (h : sample ∈ seriesSamples job s) : ∃ more, sample.labels = ("job", job) :: more := by
  simp only [seriesSamples, List.mem_append] at h
  rcases h with ((((hgauge | hduration) | hskipped) | hfailures) | hoverruns) | hsuccesses
  · split at hgauge
    · exact ⟨[], by rw [List.mem_singleton.mp hgauge]⟩
    · exact absurd hgauge List.not_mem_nil
  · split at hduration
    · exact absurd hduration List.not_mem_nil
    · exact ⟨[], by rw [List.mem_singleton.mp hduration]⟩
  · exact ⟨_, labels_of_mem_counter hskipped⟩
  · exact ⟨_, labels_of_mem_counter hfailures⟩
  · exact ⟨_, labels_of_mem_counter hoverruns⟩
  · exact ⟨_, labels_of_mem_counter hsuccesses⟩

/-- The samples that name a job are those that its series makes. -/
theorem exposed_of_job (m : Metrics) (name job : String) (more : List (String × String)) :
    m.exposed? name (("job", job) :: more) =
      (m.jobs.get? job).bind fun s =>
        ((seriesSamples job s).find? fun sample =>
          sample.name = name ∧ sample.labels = ("job", job) :: more).map Sample.value := by
  rw [exposed?, samples, List.find?_flatMap, m.jobs.findSome?_toList job]
  · cases m.jobs.get? job <;> rfl
  · intro e hne
    apply List.find?_eq_none.mpr
    intro sample hmem hsame
    obtain ⟨others, hlabels⟩ := labels_of_mem_seriesSamples hmem
    simp only [decide_eq_true_eq, hlabels, List.cons.injEq, Prod.mk.injEq, true_and] at hsame
    exact hne hsame.2.1

/-- A search among the samples of a counter finds that counter. -/
theorem find_counter (name other : String) (labels more : List (String × String)) (n : Nat) :
    (counter? other more n).find? (fun s => s.name = name ∧ s.labels = labels) =
      if other = name ∧ more = labels ∧ n ≠ 0 then some ⟨.counter, name, labels, n⟩
      else none := by
  unfold counter?
  by_cases hn : n = 0
  · simp [hn]
  · rw [if_neg hn, List.find?_singleton]
    by_cases hsame : other = name ∧ more = labels
    · obtain ⟨rfl, rfl⟩ := hsame
      simp [hn]
    · rw [if_neg (by simpa using hsame), if_neg (fun h => hsame ⟨h.1, h.2.1⟩)]

/-- Of the samples of a series, one at most counts the runs with an outcome. -/
theorem find_runs (job : String) (s : Series) (o : Outcome) :
    (((seriesSamples job s).find? fun sample => sample.name = "job_runs_total" ∧
      sample.labels = [("job", job), ("outcome", o.word)]).map Sample.value).getD 0 =
      s.runs o := by
  simp only [seriesSamples, List.find?_append, find_counter]
  by_cases hd : s.durations = 0
  · cases s.health <;> cases o <;> simp [Outcome.word, Series.runs, hd] <;> split <;> simp_all
  · cases s.health <;> cases o <;> simp [Outcome.word, Series.runs, hd] <;> split <;> simp_all

/-- **The exposed counter of an outcome is the number of runs with it**; a counter that is not
exposed was never increased. -/
theorem exposed_runs (m : Metrics) (job : String) (o : Outcome) :
    (m.exposed? "job_runs_total" [("job", job), ("outcome", o.word)]).getD 0 =
      (m.series job).runs o := by
  rw [exposed_of_job, series, NameMap.getD]
  cases m.jobs.get? job with
  | none => cases o <;> rfl
  | some s => exact find_runs job s o

/-- **The exposed gauge of a job is its health.** -/
theorem exposed_health (m : Metrics) (job : String) :
    m.exposed? "job_health" [("job", job)] =
      (m.series job).health.map fun healthy => if healthy then 1 else 0 := by
  rw [exposed_of_job, series, NameMap.getD]
  cases m.jobs.get? job with
  | none => rfl
  | some s =>
      simp only [Option.bind_some, Option.getD_some, seriesSamples, List.find?_append, find_counter]
      by_cases hd : s.durations = 0
      · cases s.health <;> simp [hd]
      · cases s.health <;> simp [hd]

end Metrics

end JobSupervisor
