import JobSupervisor.Log.Event
import JobSupervisor.NameMap

/-!
# Metrics

For every job the metrics count ended runs by outcome, duration samples, and runs that
were skipped because the lock was held, and they hold the health of the job after its
last run.  A counter that was never increased is not exposed.

## Main definitions

* `Series` — the metrics of one job.
* `Metrics.recordRun`, `Metrics.recordHealth`, `Metrics.recordSkipped`.
* `Metrics.samples` — everything that is exposed.
-/

namespace JobSupervisor

open Log (Outcome)

/-- The metrics of one job. -/
structure Series where
  successes : Nat
  failures : Nat
  overruns : Nat
  durations : Nat
  health : Option Bool
  skipped : Nat
  deriving DecidableEq, Repr

namespace Series

/-- The metrics of a job about which nothing was recorded. -/
def zero : Series := ⟨0, 0, 0, 0, none, 0⟩

/-- The number of ended runs with an outcome. -/
def runs (s : Series) : Outcome → Nat
  | .success => s.successes
  | .failure => s.failures
  | .overrun => s.overruns

/-- The number of ended runs. -/
def allRuns (s : Series) : Nat := s.successes + s.failures + s.overruns

/-- One more ended run with one more sample of its duration. -/
def countRun (s : Series) : Outcome → Series
  | .success => { s with successes := s.successes + 1, durations := s.durations + 1 }
  | .failure => { s with failures := s.failures + 1, durations := s.durations + 1 }
  | .overrun => { s with overruns := s.overruns + 1, durations := s.durations + 1 }

@[simp] theorem durations_countRun (s : Series) (o : Outcome) :
    (s.countRun o).durations = s.durations + 1 := by cases o <;> rfl

@[simp] theorem allRuns_countRun (s : Series) (o : Outcome) :
    (s.countRun o).allRuns = s.allRuns + 1 := by
  cases o <;> simp [countRun, allRuns] <;> omega

end Series

/-- The kinds of exposed values. -/
inductive MetricKind where
  | counter
  | gauge
  | histogram
  deriving DecidableEq, Repr

/-- An exposed value; that of a histogram is its number of samples. -/
structure Sample where
  kind : MetricKind
  name : String
  labels : List (String × String)
  value : Nat
  deriving DecidableEq, Repr

/-- The metrics of all jobs. -/
structure Metrics where
  jobs : NameMap Series

namespace Metrics

/-- The metrics before anything was recorded. -/
def zero : Metrics := ⟨.empty⟩

/-- The metrics of one job. -/
def series (m : Metrics) (job : String) : Series := m.jobs.getD job Series.zero

/-- Records that a run ended. -/
def recordRun (m : Metrics) (job : String) (outcome : Outcome) : Metrics :=
  ⟨m.jobs.modify job Series.zero (·.countRun outcome)⟩

/-- Records the health of a job. -/
def recordHealth (m : Metrics) (job : String) (healthy : Bool) : Metrics :=
  ⟨m.jobs.modify job Series.zero fun s => { s with health := some healthy }⟩

/-- Records that a run was skipped because the lock was held. -/
def recordSkipped (m : Metrics) (job : String) : Metrics :=
  ⟨m.jobs.modify job Series.zero fun s => { s with skipped := s.skipped + 1 }⟩

/-- Recording about one job changes the series of that job alone. -/
theorem series_recordRun (m : Metrics) (job other : String) (o : Outcome) :
    (m.recordRun job o).series other =
      if job = other then (m.series job).countRun o else m.series other := by
  unfold recordRun series NameMap.modify NameMap.getD
  rw [NameMap.get?_insert]
  split <;> rfl

/-- The health of a job is that after its last run. -/
theorem health_recordHealth (m : Metrics) (job : String) (healthy : Bool) :
    ((m.recordHealth job healthy).series job).health = some healthy := by
  simp [recordHealth, series, NameMap.modify, NameMap.getD]

/-- Recording the health of a job leaves every count as it is. -/
theorem allRuns_recordHealth (m : Metrics) (job other : String) (healthy : Bool) :
    ((m.recordHealth job healthy).series other).allRuns = (m.series other).allRuns := by
  unfold recordHealth series NameMap.modify NameMap.getD
  rw [NameMap.get?_insert]
  split
  · rename_i h; subst h; rfl
  · rfl

/-- A skipped run is counted for its job alone. -/
theorem skipped_recordSkipped (m : Metrics) (job other : String) :
    ((m.recordSkipped job).series other).skipped =
      (m.series other).skipped + if job = other then 1 else 0 := by
  unfold recordSkipped series NameMap.modify NameMap.getD
  rw [NameMap.get?_insert]
  split
  · rename_i h; subst h; rfl
  · simp

/-- A counter, unless it was never increased. -/
def counter? (name : String) (labels : List (String × String)) (n : Nat) : List Sample :=
  if n = 0 then [] else [⟨.counter, name, labels, n⟩]

/-- What is exposed about one job. -/
def seriesSamples (job : String) (s : Series) : List Sample :=
  (match s.health with
    | some healthy => [⟨.gauge, "job_health", [("job", job)], if healthy then 1 else 0⟩]
    | none => []) ++
  (if s.durations = 0 then []
    else [⟨.histogram, "job_run_duration_seconds", [("job", job)], s.durations⟩]) ++
  counter? "job_runs_skipped_total" [("job", job)] s.skipped ++
  counter? "job_runs_total" [("job", job), ("outcome", Outcome.failure.word)] s.failures ++
  counter? "job_runs_total" [("job", job), ("outcome", Outcome.overrun.word)] s.overruns ++
  counter? "job_runs_total" [("job", job), ("outcome", Outcome.success.word)] s.successes

/-- Everything that is exposed, job by job. -/
def samples (m : Metrics) : List Sample :=
  m.jobs.toList.flatMap fun e => seriesSamples e.1 e.2

end Metrics

end JobSupervisor
