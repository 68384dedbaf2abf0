import JobSupervisor.Proofs.ShownHealth

/-!
# The metrics account for every run and every fire

When everything that was started has ended, the runs that are counted are those that ended, and
every fire was denied or has had its scheduled run.  The health that is shown is that of the
record, if the last change of it came from a run beside which there was no other of its job.

## Main definitions

* `RunLedger.conserved` — the metrics of a job at the end of everything that was started.
* `Enacts.runs_eq_durations` — the same for whole runs and whole fires, nested in any way.
-/

namespace JobSupervisor

namespace RunLedger

variable {l : RunLedger}

theorem countRuns_congr {p q : StartedRun → Bool} (h : ∀ r ∈ l.runs, p r = q r)
    (name : String) : l.countRuns name p = l.countRuns name q := by
  refine List.countP_congr fun r hr => ?_
  have hr := h r hr
  simp only [hr]

/-- If no request failed, every fire was granted its lease or denied. -/
theorem countFires_all (h : ∀ f ∈ l.fires, f.2 ≠ .overflow) (name : String) :
    l.countFires name (fun _ => true) =
      l.countFires name (·.isGranted) + l.countFires name (· = .denied) := by
  simp only [countFires]
  generalize l.fires = fires at h
  induction fires with
  | nil => rfl
  | cons f fires ih =>
      have hrest := ih fun f hf => h f (List.mem_cons_of_mem _ hf)
      have hf := h f List.mem_cons_self
      rw [List.countP_cons, List.countP_cons, List.countP_cons, hrest]
      obtain ⟨fired, answer⟩ := f
      by_cases hname : fired = name
      · cases answer with
        | overflow => exact absurd rfl hf
        | denied =>
            simp [hname, LockAnswer.isGranted]
            omega
        | granted lease =>
            simp [hname, LockAnswer.isGranted]
            omega
      · simp [hname]

/-- **Conservation of the metrics.**  The metrics start from zero, and runs and fires take their
steps in any order, until every run that was started is over, with no lease too long for the
clock.  Then, for every job, the three outcomes add up to the samples of the duration, and those
are the runs of the job that ended; the skips are its fires that were denied, and the scheduled
runs that ended and the skips are its fires.  If the last change of health came from a run of the
job beside which there was no other, then the health that is shown is that of the record. -/
theorem conserved (N : ChangeNotion) {s : Supervisor} (hzero : s.metrics = .zero)
    (hreachable : s.registry.Reachable) (moves : List LedgerMove)
    (hended : ∀ r ∈ ((initial s).run N moves).runs, r.stage.isReturned = true)
    (hclock : ∀ f ∈ ((initial s).run N moves).fires, f.2 ≠ .overflow) (name : String) :
    let l := (initial s).run N moves
    let m := l.supervisor.metrics.series name
    m.runs .success + m.runs .failure + m.runs .overrun = m.durations ∧
      m.durations = l.countRuns name (·.stage.isReturned) ∧
      m.skipped = l.countFires name (· = .denied) ∧
      l.countRuns name (fun r => r.scheduled && r.stage.isReturned) + m.skipped =
        l.countFires name (fun _ => true) ∧
      ∀ i, (l.supervisor.registry.lookup name).bind l.lastChange? = some (.run i) →
        l.runs[i]?.map (·.alone) = some true →
        m.health = some (l.supervisor.registry.recordOf name).isHealthy := by
  intro l m
  have hcounted : l.Counted := (counted_initial hzero).run moves
  have htracked : l.Tracked := (tracked_initial hreachable).run moves
  obtain ⟨hdurations, hall⟩ := hcounted.ended name
  have hall_counted : l.countRuns name (·.stage.isCounted) =
      l.countRuns name (·.stage.isReturned) := by
    refine countRuns_congr (fun r hr => ?_) name
    rw [Stage.eq_returned (hended r hr)]
    rfl
  rw [hall_counted] at hdurations hall
  have hskipped : m.skipped = l.countFires name (· = .denied) := hcounted.skipped name
  refine ⟨hall.trans hdurations.symm, hdurations, hskipped, ?_, fun i hsource halone => ?_⟩
  · have hscheduled : l.countRuns name (fun r => r.scheduled && r.stage.isReturned) =
        l.countRuns name (·.scheduled) := by
      refine countRuns_congr (fun r hr => ?_) name
      rw [hended r hr, Bool.and_true]
    rw [hscheduled, hcounted.scheduled name, hskipped, countFires_all hclock name]
  · obtain ⟨id, hlookup, hlast⟩ := Option.bind_eq_some_iff.1 hsource
    obtain ⟨r, hr, hr_alone⟩ := Option.map_eq_some_iff.1 halone
    obtain ⟨r₀, hr₀, hid⟩ := htracked.source id i hlast
    obtain rfl := Option.some.inj (hr.symm.trans hr₀)
    -- Distinct names have distinct records, so the run is one of the job.
    obtain rfl := htracked.reachable.separate _ _ id hid hlookup
    have hshown : r.stage.hasShown = true := by
      rw [Stage.eq_returned (hended r (List.mem_of_getElem? hr))]
      rfl
    rw [Health.Registry.recordOf_of_lookup hlookup]
    exact (htracked.left id i r hlast hr hr_alone).shown hshown

/-- A fire is denied while a scheduled run of the job is in progress, and the run fails. -/
def deniedBeside : List LedgerMove :=
  let nightly : Descriptor := ⟨"nightly", .ofSecs 60⟩
  .fire .table (.ofSecs 60) nightly :: List.replicate 4 (.advance 0) ++
    .fire .table (.ofSecs 60) nightly :: .finish 0 (some "disk full") ::
      List.replicate 7 (.advance 0)

/-- Turns of the health alone are changes of it. -/
def turning : ChangeNotion where
  counts r op := (op.apply r).isHealthy != r.isHealthy
  turns r op h := by simpa using h

theorem conserved_deniedBeside :
    let l := (initial .initial).run turning deniedBeside
    let m := l.supervisor.metrics.series "nightly"
    (∀ r ∈ l.runs, r.stage.isReturned = true) ∧ (∀ f ∈ l.fires, f.2 ≠ .overflow) ∧
      m.runs .success + m.runs .failure + m.runs .overrun = m.durations ∧
      l.countRuns "nightly" (fun r => r.scheduled && r.stage.isReturned) + m.skipped =
        l.countFires "nightly" (fun _ => true) ∧
      m.health = some (l.supervisor.registry.recordOf "nightly").isHealthy := by
  have hended : ∀ r ∈ ((initial .initial).run turning deniedBeside).runs,
      r.stage.isReturned = true := by decide
  have hclock : ∀ f ∈ ((initial .initial).run turning deniedBeside).fires,
      f.2 ≠ .overflow := by decide
  obtain ⟨hruns, -, -, hfires, hhealth⟩ :=
    conserved turning (s := .initial) rfl (Health.Registry.Leads.refl _) deniedBeside hended
      hclock "nightly"
  exact ⟨hended, hclock, hruns, hfires, hhealth 0 (by decide) (by decide)⟩

end RunLedger

/-- Whatever is made up of whole runs and whole fires, one within another, and of changes by hand
leaves as many samples of the duration as outcomes. -/
theorem Enacts.runs_eq_durations {N : ChangeNotion} {f : Supervisor → Supervisor}
    (hf : Enacts N f) {s : Supervisor} (hzero : s.metrics = .zero) (name : String) :
    let m := (f s).metrics.series name
    m.runs .success + m.runs .failure + m.runs .overrun = m.durations := by
  obtain ⟨moves, newer, hmoves, -, -⟩ := hf (RunLedger.initial s)
  have hcounted : ((RunLedger.initial s).run N moves).Counted :=
    (RunLedger.counted_initial hzero).run moves
  obtain ⟨hdurations, hall⟩ := hcounted.ended name
  rw [RunLedger.series, hmoves] at hdurations hall
  exact hall.trans hdurations.symm

end JobSupervisor
