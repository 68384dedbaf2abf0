import JobSupervisor.Job.Schedule

/-!
# What a run leaves alone

The beginning and the settlement of a run work on the record of the job, on the metrics of
runs, on the journal and on the thread.  They do not touch the leases, take no time, and count
no skipped run.

## Main definitions

* `Supervisor.Keeps` — leases, clock and skipped runs are as they were.
* `Run.keeps_begin`, `Run.keeps_settle` — the two ends of a run keep them.
* `Supervisor.Same`, `Fire.same_request` — what asking for a lease leaves alone.
-/

namespace JobSupervisor

namespace Metrics

theorem skipped_recordRun (m : Metrics) (job name : String) (o : Log.Outcome) :
    ((m.recordRun job o).series name).skipped = (m.series name).skipped := by
  rw [series_recordRun]
  by_cases h : job = name
  · subst h
    cases o <;> simp [Series.countRun]
  · simp [h]

theorem skipped_recordHealth (m : Metrics) (job name : String) (healthy : Bool) :
    ((m.recordHealth job healthy).series name).skipped = (m.series name).skipped := by
  unfold recordHealth series NameMap.modify NameMap.getD
  rw [NameMap.get?_insert]
  by_cases h : job = name
  · subst h
    simp
  · simp [h]

/-- A skipped run changes nothing else. -/
theorem series_recordSkipped (m : Metrics) (job name : String) :
    (m.recordSkipped job).series name =
      { m.series name with skipped := ((m.recordSkipped job).series name).skipped } := by
  unfold recordSkipped series NameMap.modify NameMap.getD
  rw [NameMap.get?_insert]
  by_cases h : job = name
  · subst h
    simp
  · simp [h]

end Metrics

namespace Supervisor

/-- The leases, the clock and the counts of skipped runs are as they were. -/
structure Keeps (s s' : Supervisor) : Prop where
  leases : s'.leases = s.leases
  clock : s'.clock = s.clock
  skipped : ∀ name, (s'.metrics.series name).skipped = (s.metrics.series name).skipped

theorem Keeps.refl (s : Supervisor) : s.Keeps s := ⟨rfl, rfl, fun _ => rfl⟩

theorem Keeps.trans {s s' s'' : Supervisor} (h : s.Keeps s') (h' : s'.Keeps s'') :
    s.Keeps s'' :=
  ⟨h'.leases.trans h.leases, h'.clock.trans h.clock,
    fun name => (h'.skipped name).trans (h.skipped name)⟩

/-- What is not part of them may change. -/
theorem keeps_of_eq {s s' : Supervisor} (hl : s'.leases = s.leases) (hc : s'.clock = s.clock)
    (hm : s'.metrics = s.metrics) : s.Keeps s' :=
  ⟨hl, hc, fun name => by rw [hm]⟩

theorem keeps_emit (s : Supervisor) (e : Log.Event) : s.Keeps (s.emit e) :=
  keeps_of_eq rfl rfl rfl

theorem keeps_perform (s : Supervisor) (id : Health.RecordId) (op : Health.Operation) :
    s.Keeps (s.perform id op) :=
  keeps_of_eq rfl rfl rfl

theorem keeps_swapThreads (s : Supervisor) : s.Keeps s.swapThreads := keeps_of_eq rfl rfl rfl

theorem keeps_ensureRecord (s : Supervisor) (name : String) :
    s.Keeps (s.ensureRecord name).2 := by
  obtain ⟨registry, journal, h⟩ := s.ensureRecord_frame name
  rw [h]
  exact keeps_of_eq rfl rfl rfl

theorem keeps_enterScope (s : Supervisor) (supplied : Option String) :
    s.Keeps (s.enterScope supplied).2 := by
  obtain ⟨context, drawn, h⟩ := s.enterScope_frame supplied
  rw [h]
  exact keeps_of_eq rfl rfl rfl

end Supervisor

namespace Run

variable {α : Type}

/-- The beginning of a run takes no time and leaves the leases alone. -/
theorem keeps_begin (job : Descriptor) (s : Supervisor) : s.Keeps (Run.begin job s).2 :=
  (s.keeps_ensureRecord job.name).trans
    (((s.ensureRecord job.name).2.keeps_enterScope none).trans
      (Supervisor.keeps_of_eq rfl rfl rfl))

theorem keeps_measure (r : Run) (outcome : Log.Outcome) (s : Supervisor) :
    s.Keeps (r.measure outcome s) := by
  refine ⟨rfl, rfl, fun name => ?_⟩
  simp only [measure, Metrics.skipped_recordHealth, Metrics.skipped_recordRun]

theorem keeps_leave (s : Supervisor) : s.Keeps (leave s) := Supervisor.keeps_of_eq rfl rfl rfl

/-- The settlement of a run takes no time and leaves the leases alone. -/
theorem keeps_settle (r : Run) (e : Ending α) (s : Supervisor) : s.Keeps (r.settle e s).2 := by
  have hoverrun (t : Supervisor) (elapsed : Duration) :
      t.Keeps (if r.job.budget < elapsed then r.overrun elapsed t else t) := by
    split
    · exact Supervisor.keeps_of_eq rfl rfl rfl
    · exact .refl t
  simp only [settle]
  refine .trans ?_ <| (hoverrun _ _).trans <| (Supervisor.keeps_perform _ _ _).trans <|
    (Supervisor.keeps_emit _ _).trans <| (r.keeps_measure _ _).trans (keeps_leave _)
  split
  · exact Supervisor.keeps_of_eq rfl rfl rfl
  · exact .refl s

end Run

/-! ## Asking for a lease -/

namespace Supervisor

/-- Records, clock and threads are as they were. -/
structure Same (s s' : Supervisor) : Prop where
  registry : s'.registry = s.registry
  clock : s'.clock = s.clock
  thread : s'.thread = s.thread
  worker : s'.worker = s.worker

theorem same_acquireFromTable (s : Supervisor) (name : String) (lease : Duration) :
    s.Same (s.acquireFromTable name lease).2 := by
  simp only [acquireFromTable]
  split <;> exact ⟨rfl, rfl, rfl, rfl⟩

end Supervisor

theorem LockPolicy.same_tryAcquire (p : LockPolicy) (name : String) (lease : Duration)
    (s : Supervisor) : s.Same (p.tryAcquire name lease s).2 := by
  have htable := s.same_acquireFromTable name lease
  cases p with
  | unlocked => exact ⟨rfl, rfl, rfl, rfl⟩
  | table | faultyReturn =>
      simp only [tryAcquire]
      split <;> simp_all

/-- A fire that asks for its lease changes no record and no thread and takes no time. -/
theorem Fire.same_request (p : LockPolicy) (lease : Duration) (name : String) (s : Supervisor) :
    s.Same (Fire.request p lease name s).2 := by
  have hlock := p.same_tryAcquire name lease s
  simp only [Fire.request]
  split <;> rename_i hrequest <;> rw [hrequest] at hlock
  · exact hlock
  · exact ⟨hlock.registry, hlock.clock, hlock.thread, hlock.worker⟩
  · exact hlock

end JobSupervisor
