import JobSupervisor.Proofs.RunLedger

/-!
# The metrics count every run and every fire

A run is counted once, in one of the outcomes and in the durations, in one step behind the
healing.  A fire that is denied its lease is counted once.  So the metrics tell how many runs
are behind their counting step and how many fires were denied, in whichever order the steps of
runs come.

## Main definitions

* `RunLedger.countRuns`, `RunLedger.countFires` — the runs and the fires of a job in the ledger.
* `RunLedger.Counted` — the metrics agree with the ledger.
* `RunLedger.Counted.run` — they agree whatever happens.
-/

namespace JobSupervisor

theorem Metrics.series_recordHealth (m : Metrics) (job other : String) (healthy : Bool) :
    (m.recordHealth job healthy).series other =
      if job = other then { m.series job with health := some healthy } else m.series other := by
  unfold recordHealth series NameMap.modify NameMap.getD
  rw [NameMap.get?_insert]
  split <;> rfl

theorem LockPolicy.metrics_tryAcquire (p : LockPolicy) (name : String) (lease : Duration)
    (s : Supervisor) : (p.tryAcquire name lease s).2.metrics = s.metrics := by
  have htable : (s.acquireFromTable name lease).2.metrics = s.metrics := by
    simp only [Supervisor.acquireFromTable]
    split <;> rfl
  cases p with
  | unlocked => rfl
  | table | faultyReturn =>
      simp only [tryAcquire]
      split <;> simp_all

/-- The lock granted a lease. -/
def LockAnswer.isGranted : LockAnswer → Bool
  | .granted _ => true
  | .overflow | .denied => false

namespace RunLedger

variable {N : ChangeNotion} {l : RunLedger} {name : String} {i : Nat} {r : StartedRun}

/-- The number of runs of a job of which something holds. -/
def countRuns (l : RunLedger) (name : String) (p : StartedRun → Bool) : Nat :=
  l.runs.countP fun r => r.job.name = name && p r

/-- The number of fires of a job whose answer is such. -/
def countFires (l : RunLedger) (name : String) (p : LockAnswer → Bool) : Nat :=
  l.fires.countP fun f => f.1 = name && p f.2

/-- The metrics of a job. -/
def series (l : RunLedger) (name : String) : Series := l.supervisor.metrics.series name

/-! ## Counts -/

theorem countP_set {p : StartedRun → Bool} {runs : List StartedRun} (hi : runs[i]? = some r)
    (r' : StartedRun) :
    (runs.set i r').countP p + (if p r = true then 1 else 0) =
      runs.countP p + if p r' = true then 1 else 0 := by
  obtain ⟨hlt, hget⟩ := List.getElem?_eq_some_iff.1 hi
  rw [List.countP_set hlt, hget]
  by_cases hp : p r = true
  · have hpos : 0 < runs.countP p := List.countP_pos_iff.2 ⟨r, List.mem_of_getElem? hi, hp⟩
    rw [if_pos hp]
    omega
  · rw [if_neg hp]
    omega

/-- A run that comes to another stage is counted there and not where it was. -/
theorem countRuns_set (hi : l.runs[i]? = some r) {stage : Stage} {l' : RunLedger}
    (hruns : l'.runs = l.runs.set i { r with stage := stage }) (name : String)
    (p : StartedRun → Bool) :
    l'.countRuns name p + (if r.job.name = name ∧ p r = true then 1 else 0) =
      l.countRuns name p +
        if r.job.name = name ∧ p { r with stage := stage } = true then 1 else 0 := by
  have hset := countP_set (p := fun r => r.job.name = name && p r) hi { r with stage := stage }
  simp only [Bool.and_eq_true, decide_eq_true_eq] at hset
  rw [countRuns, hruns]
  exact hset

/-- A run that starts is counted from its start. -/
theorem countRuns_start (l : RunLedger) (job : Descriptor) (scheduled : Bool) (name : String)
    {p : StartedRun → Bool} (hp : ∀ r alone, p { r with alone := alone } = p r) :
    (l.start job scheduled).countRuns name p =
      l.countRuns name p +
        if job.name = name ∧ p ⟨job, scheduled, false, .fresh⟩ = true then 1 else 0 := by
  have holder : (l.runs.map (·.join job.name)).countP (fun r => r.job.name = name && p r) =
      l.countRuns name p := by
    rw [List.countP_map, countRuns]
    refine List.countP_congr fun r _ => ?_
    rw [Function.comp_apply, StartedRun.join, hp]
  rw [countRuns, start, List.countP_append, holder, List.countP_singleton,
    hp ⟨job, scheduled, false, .fresh⟩]
  simp only [Bool.and_eq_true, decide_eq_true_eq]

theorem countFires_ask (l : RunLedger) (policy : LockPolicy) (lease : Duration)
    (asked name : String) (p : LockAnswer → Bool) :
    (l.ask policy lease asked).countFires name p =
      l.countFires name p +
        if asked = name ∧ p (policy.tryAcquire asked lease l.supervisor).1 = true then 1
        else 0 := by
  rw [countFires, ask, List.countP_cons]
  simp only [Bool.and_eq_true, decide_eq_true_eq]
  rfl

/-- Asking a lock changes nothing in the metrics but the skipped runs. -/
theorem series_ask (l : RunLedger) (policy : LockPolicy) (lease : Duration)
    (asked name : String) :
    (l.ask policy lease asked).series name = { l.series name with
      skipped := (l.series name).skipped +
        if asked = name ∧ (policy.tryAcquire asked lease l.supervisor).1 = .denied then 1
        else 0 } := by
  have hmetrics := policy.metrics_tryAcquire asked lease l.supervisor
  simp only [series, ask, Fire.request]
  revert hmetrics
  rcases policy.tryAcquire asked lease l.supervisor with ⟨answer, s⟩
  intro hmetrics
  cases answer with
  | denied =>
      have hskipped := s.metrics.skipped_recordSkipped asked name
      simp only [and_true]
      rw [← (hmetrics : s.metrics = _), ← hskipped]
      exact s.metrics.series_recordSkipped asked name
  | overflow | granted _ =>
      simp only [reduceCtorEq, and_false, if_false, Nat.add_zero]
      rw [(hmetrics : s.metrics = _)]

/-- The metrics count the runs that are behind their counting step and the fires that were
denied; every fire that was granted a lease has a scheduled run. -/
structure Counted (l : RunLedger) : Prop where
  ended : ∀ name, (l.series name).durations = l.countRuns name (·.stage.isCounted) ∧
    (l.series name).allRuns = l.countRuns name (·.stage.isCounted)
  skipped : ∀ name, (l.series name).skipped = l.countFires name (· = .denied)
  scheduled : ∀ name, l.countRuns name (·.scheduled) = l.countFires name (·.isGranted)

theorem counted_initial {s : Supervisor} (h : s.metrics = .zero) : (initial s).Counted := by
  have hseries (name : String) : (initial s).series name = Series.zero := by
    rw [series, initial, h]
    rfl
  refine ⟨fun name => ?_, fun name => ?_, fun name => rfl⟩
  · rw [hseries]
    exact ⟨rfl, rfl⟩
  · rw [hseries]
    rfl

/-- What is not part of metrics, runs and fires may change. -/
theorem Counted.of_eq (h : l.Counted) {l' : RunLedger}
    (hmetrics : l'.supervisor.metrics = l.supervisor.metrics) (hruns : l'.runs = l.runs)
    (hfires : l'.fires = l.fires) : l'.Counted := by
  refine ⟨fun name => ?_, fun name => ?_, fun name => ?_⟩
  · rw [series, hmetrics, countRuns, hruns]
    exact h.ended name
  · rw [series, hmetrics, countFires, hfires]
    exact h.skipped name
  · rw [countRuns, hruns, countFires, hfires]
    exact h.scheduled name

/-- A run comes to another stage, and the metrics count it if and only if it is counted there. -/
theorem Counted.setStage (h : l.Counted) (hi : l.runs[i]? = some r) {stage : Stage}
    {l' : RunLedger} (hruns : l'.runs = l.runs.set i { r with stage := stage })
    (hfires : l'.fires = l.fires)
    (hskipped : ∀ name, (l'.series name).skipped = (l.series name).skipped)
    (hended : ∀ name, ∃ n,
      (l'.series name).durations = (l.series name).durations + n ∧
      (l'.series name).allRuns = (l.series name).allRuns + n ∧
      n + (if r.job.name = name ∧ r.stage.isCounted = true then 1 else 0) =
        if r.job.name = name ∧ stage.isCounted = true then 1 else 0) : l'.Counted := by
  refine ⟨fun name => ?_, fun name => ?_, fun name => ?_⟩
  · obtain ⟨n, hdurations, hall, hn⟩ := hended name
    obtain ⟨hbefore, hbefore'⟩ := h.ended name
    have hset := countRuns_set hi hruns name (·.stage.isCounted)
    dsimp only at hset
    constructor <;> omega
  · rw [hskipped, h.skipped, countFires, countFires, hfires]
  · have hset := countRuns_set hi hruns name (·.scheduled)
    have hscheduled := h.scheduled name
    rw [countFires, hfires]
    exact (Nat.add_right_cancel hset).trans hscheduled

theorem Counted.begin (h : l.Counted) (job : Descriptor) : (l.start job false).Counted := by
  refine ⟨fun name => ?_, h.skipped, fun name => ?_⟩
  · rw [countRuns_start l job false name fun _ _ => rfl, if_neg (by simp [Stage.isCounted])]
    exact h.ended name
  · rw [countRuns_start l job false name fun _ _ => rfl, if_neg (by simp)]
    exact h.scheduled name

/-- A fire counts a skip exactly if it was denied, and starts a scheduled run exactly if it was
granted its lease. -/
theorem Counted.fire (h : l.Counted) (policy : LockPolicy) (lease : Duration)
    (job : Descriptor) : (l.fire policy lease job).Counted := by
  have hseries := l.series_ask policy lease job.name
  have hfires := l.countFires_ask policy lease job.name
  have hended (name : String) :
      ((l.ask policy lease job.name).series name).durations =
          l.countRuns name (·.stage.isCounted) ∧
        ((l.ask policy lease job.name).series name).allRuns =
          l.countRuns name (·.stage.isCounted) := by
    rw [hseries name]
    exact h.ended name
  have hskipped (name : String) : ((l.ask policy lease job.name).series name).skipped =
      (l.ask policy lease job.name).countFires name (· = .denied) := by
    rw [hseries name, hfires name, h.skipped name]
    simp only [decide_eq_true_eq]
  simp only [RunLedger.fire]
  split
  · rename_i granted hanswer
    refine ⟨fun name => ?_, hskipped, fun name => ?_⟩
    · rw [countRuns_start _ _ _ _ fun _ _ => rfl, if_neg (by simp [Stage.isCounted])]
      exact hended name
    · rw [countRuns_start _ _ _ _ fun _ _ => rfl]
      change l.countRuns name (·.scheduled) + _ = (l.ask policy lease job.name).countFires name _
      rw [hfires name, hanswer, h.scheduled name]
      rfl
  all_goals
    rename_i hanswer
    refine ⟨hended, hskipped, fun name => ?_⟩
    rw [hfires name, hanswer, if_neg (by simp [LockAnswer.isGranted])]
    exact h.scheduled name

theorem runs_note (N : ChangeNotion) (i : Nat) (r : StartedRun) (l : RunLedger) :
    (l.note N i r).runs = l.runs := by
  simp only [note]
  split <;> rfl

theorem fires_note (N : ChangeNotion) (i : Nat) (r : StartedRun) (l : RunLedger) :
    (l.note N i r).fires = l.fires := by
  simp only [note]
  split <;> rfl

/-- The counting step counts the run, and no other step does. -/
theorem Counted.advance (h : l.Counted) (hi : l.runs[i]? = some r) : (l.advance N i r).Counted := by
  have hmetrics := Stage.metrics_advance r.job r.stage l.supervisor
  refine h.setStage hi rfl (l.fires_note N i r) (fun name => ?_) (fun name => ?_)
  · change ((r.stage.advance r.job l.supervisor).2.metrics.series name).skipped = _
    rw [hmetrics]
    cases r.stage with
    | healed x outcome => exact Metrics.skipped_recordRun _ _ _ _
    | seen x healthy => exact Metrics.skipped_recordHealth _ _ _ _
    | _ => rfl
  · change ∃ n, ((r.stage.advance r.job l.supervisor).2.metrics.series name).durations = _ ∧
      ((r.stage.advance r.job l.supervisor).2.metrics.series name).allRuns = _ ∧ _
    rw [hmetrics]
    cases hstage : r.stage with
    | healed x outcome =>
        refine ⟨if r.job.name = name then 1 else 0, ?_⟩
        simp only [Metrics.series_recordRun]
        by_cases hname : r.job.name = name
        · subst hname
          simp [Stage.advance, Stage.isCounted, series]
        · simp [hname, Stage.isCounted, series]
    | seen x healthy =>
        refine ⟨0, ?_, Metrics.allRuns_recordHealth _ _ _ _, Nat.zero_add _⟩
        simp only [Metrics.series_recordHealth]
        split
        · rename_i hname
          subst hname
          rfl
        · rfl
    | fresh =>
        have hnext : (Stage.fresh.advance r.job l.supervisor).1.isCounted = false := by
          simp only [Stage.advance]
          split <;> rfl
        refine ⟨0, rfl, rfl, ?_⟩
        rw [hnext]
        exact Nat.zero_add _
    | _ => exact ⟨0, rfl, rfl, Nat.zero_add _⟩

theorem Counted.step (h : l.Counted) (m : LedgerMove) : (l.step N m).Counted := by
  cases m with
  | begin job => exact h.begin job
  | fire policy lease job => exact h.fire policy lease job
  | advance i =>
      cases hi : l.runs[i]? with
      | some r =>
          simp only [RunLedger.step, hi]
          exact h.advance hi
      | none =>
          simp only [RunLedger.step, hi]
          exact h
  | finish i failure =>
      simp only [RunLedger.step]
      split
      · rename_i job scheduled alone r hi
        exact h.setStage hi rfl rfl (fun _ => rfl) fun _ => ⟨0, rfl, rfl, Nat.zero_add _⟩
      · exact h
  | change author? id op => exact h.of_eq rfl rfl rfl
  | create name =>
      refine h.of_eq ?_ rfl rfl
      simp only [RunLedger.step, Supervisor.ensureRecord]
      split <;> rfl
  | allocate => exact h.of_eq rfl rfl rfl
  | aside n => exact h.of_eq (n.metrics _) rfl rfl

/-- **The metrics agree with the ledger, whatever happened.** -/
theorem Counted.run (h : l.Counted) (moves : List LedgerMove) : (l.run N moves).Counted := by
  induction moves generalizing l with
  | nil => exact h
  | cons m moves ih => exact ih (h.step m)

end RunLedger

end JobSupervisor
