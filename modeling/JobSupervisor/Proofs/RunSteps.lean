import JobSupervisor.Proofs.RunOperations

/-!
# A run step by step

A run touches what it shares with others in several steps, between which others can come: the
record is looked up and inserted if it is missing, a scope is opened, the record is reset, and
after the body a failure is marked, an overrun is marked, the record is healed, the run is
counted, the health is read and shown, and the scope is closed.  If nobody comes in between, the
steps make up the beginning and the settlement of a run.

## Main definitions

* `Stage` — how far a run has come.
* `Stage.advance` — the next step.
* `Stage.change?` — what the next step does to the record of the run.
* `Stage.iterate_begin`, `Stage.iterate_settle` — undisturbed steps are `Run.begin` and
  `Run.settle`.
-/

namespace JobSupervisor

/-- How far a run has come; the body is in progress in `running`. -/
inductive Stage where
  | fresh
  /-- The look-up found no record. -/
  | missed
  | placed (id : Health.RecordId)
  | entered (r : Run)
  | running (r : Run)
  /-- The body has ended, with the text of its failure if it failed. -/
  | ended (r : Run) (failure : Option String)
  | marked (r : Run) (failure : Option String)
  | judged (r : Run) (elapsed : Duration) (outcome : Log.Outcome)
  | healed (r : Run) (outcome : Log.Outcome)
  | counted (r : Run)
  /-- The health of the record has been read. -/
  | seen (r : Run) (healthy : Bool)
  | shown
  | returned

namespace Stage

/-- The outcome of a run whose body ended with some failure or none. -/
def outcomeOf (job : Descriptor) (failure : Option String) (elapsed : Duration) : Log.Outcome :=
  if job.budget < elapsed then .overrun else if failure.isSome then .failure else .success

/-- The next step of a run; a body in progress and a run that returned stay as they are. -/
def advance (job : Descriptor) (stage : Stage) (s : Supervisor) : Stage × Supervisor :=
  match stage with
  | .fresh =>
      match s.registry.lookup job.name with
      | some id => (.placed id, s)
      | none => (.missed, s)
  | .missed =>
      let (found, g) := s.registry.findOrInsert job.name
      let s := { s with registry := g }
      (.placed found.id, if found.inserted then s.emit (.recordRegistered job.name) else s)
  | .placed id =>
      let started := s.clock
      let (_, s) := s.enterScope none
      let correlation := s.correlation
      (.entered ⟨job, id, correlation, started⟩, s.openSpan (.run job.name correlation))
  | .entered r => (.running r, (s.perform r.record .resetOutstanding).emit .runStarted)
  | .running r => (.running r, s)
  | .ended r failure =>
      (.marked r failure,
        match failure with
        | some text => r.fail text s
        | none => s)
  | .marked r failure =>
      let elapsed := s.clock.since r.started
      (.judged r elapsed (outcomeOf job failure elapsed),
        if job.budget < elapsed then r.overrun elapsed s else s)
  | .judged r elapsed outcome =>
      (.healed r outcome,
        (s.perform r.record .healUnlessOutstanding).emit (.runFinished elapsed outcome))
  | .healed r outcome => (.counted r, { s with metrics := s.metrics.recordRun job.name outcome })
  | .counted r => (.seen r (s.record r.record).isHealthy, s)
  | .seen _ healthy => (.shown, { s with metrics := s.metrics.recordHealth job.name healthy })
  | .shown => (.returned, Run.leave s)
  | .returned => (.returned, s)

/-- Several steps, one after the other. -/
def iterate (job : Descriptor) : Nat → Stage → Supervisor → Stage × Supervisor
  | 0, stage, s => (stage, s)
  | n + 1, stage, s => iterate job n (stage.advance job s).1 (stage.advance job s).2

/-- The run is over. -/
def isReturned : Stage → Bool
  | .returned => true
  | _ => false

theorem eq_returned {stage : Stage} (h : stage.isReturned = true) : stage = .returned := by
  cases stage with
  | returned => rfl
  | _ => contradiction

/-- The place of the record of a run, as soon as it is known and as long as it is needed. -/
def place? : Stage → Option Health.RecordId
  | .fresh | .missed | .shown | .returned => none
  | .placed id => some id
  | .entered r | .running r | .ended r _ | .marked r _ | .judged r _ _ | .healed r _ |
    .counted r | .seen r _ => some r.record

/-- The record that the next step changes, and the operation on it. -/
def change? (job : Descriptor) (stage : Stage) (s : Supervisor) :
    Option (Health.RecordId × Health.Operation) :=
  match stage with
  | .entered r => some (r.record, .resetOutstanding)
  | .ended r failure => failure.map fun text => (r.record, .markUnhealthy (some text))
  | .marked r _ =>
      if job.budget < s.clock.since r.started then
        some (r.record, .markUnhealthy (some overrunReason))
      else none
  | .judged r _ _ => some (r.record, .healUnlessOutstanding)
  | .fresh | .missed | .placed _ | .running _ | .healed _ _ | .counted _ | .seen _ _ | .shown |
    .returned => none

/-! ## Undisturbed steps -/

/-- Undisturbed, the steps in front of the body are the beginning of a run. -/
theorem iterate_begin (job : Descriptor) (s : Supervisor) :
    ∃ n, iterate job n .fresh s = (.running (Run.begin job s).1, (Run.begin job s).2) := by
  cases hl : s.registry.lookup job.name with
  | some id =>
      refine ⟨3, ?_⟩
      have hfound : s.ensureRecord job.name = (id, s) := by
        simp [Supervisor.ensureRecord, Health.Registry.getOrCreate, hl]
      simp only [iterate, advance, hl, Run.begin, hfound]
  | none =>
      refine ⟨4, ?_⟩
      simp only [iterate, advance, hl, Run.begin, Supervisor.ensureRecord,
        Health.Registry.getOrCreate]

/-- **Undisturbed, the steps behind the body are the settlement of a run.** -/
theorem iterate_settle {α : Type} (r : Run) (e : Ending α) (s : Supervisor) :
    iterate r.job 7 (.ended r e.failure?) s = (.returned, (r.settle e s).2) := by
  have houtcome : ∀ elapsed, outcomeOf r.job e.failure? elapsed = r.outcome e elapsed :=
    fun _ => rfl
  simp only [iterate, advance, Run.settle, houtcome, Run.measure]
  cases e.failure? <;> rfl

/-! ## What a step does to registry and metrics -/

/-- A step changes a record at the place that the run knows. -/
theorem place?_of_change? {job : Descriptor} {stage : Stage} {s : Supervisor}
    {id : Health.RecordId} {op : Health.Operation} (h : stage.change? job s = some (id, op)) :
    stage.place? = some id := by
  cases stage with
  | entered r | judged r elapsed outcome =>
      obtain ⟨rfl, -⟩ := Prod.mk.inj (Option.some.inj h)
      rfl
  | ended r failure =>
      obtain ⟨text, -, heq⟩ := Option.map_eq_some_iff.1 h
      obtain ⟨rfl, -⟩ := Prod.mk.inj heq
      rfl
  | marked r failure =>
      simp only [change?] at h
      split at h
      · obtain ⟨rfl, -⟩ := Prod.mk.inj (Option.some.inj h)
        rfl
      · contradiction
  | _ => contradiction

/-- A step finds the record of the job, or changes a record, or leaves all records alone. -/
theorem registry_advance (job : Descriptor) (stage : Stage) (s : Supervisor) :
    (stage.advance job s).2.registry =
      match stage, stage.change? job s with
      | .missed, _ => (s.registry.findOrInsert job.name).2
      | _, some (id, op) => s.registry.perform id op
      | _, none => s.registry := by
  cases stage with
  | fresh =>
      simp only [advance]
      split <;> rfl
  | missed =>
      simp only [advance]
      split <;> rfl
  | placed id => exact s.registry_enterScope none
  | ended r failure => cases failure <;> rfl
  | marked r failure =>
      simp only [advance, change?]
      split <;> rfl
  | _ => rfl

theorem registry_advance_of_change? {job : Descriptor} {stage : Stage} {s : Supervisor}
    {id : Health.RecordId} {op : Health.Operation} (h : stage.change? job s = some (id, op)) :
    (stage.advance job s).2.registry = s.registry.perform id op := by
  rw [registry_advance, h]
  cases stage with
  | missed => contradiction
  | _ => rfl

theorem registry_advance_of_change?_eq_none {job : Descriptor} {stage : Stage} {s : Supervisor}
    (h : stage.change? job s = none) (hne : stage ≠ .missed) :
    (stage.advance job s).2.registry = s.registry := by
  rw [registry_advance, h]
  cases stage with
  | missed => exact absurd rfl hne
  | _ => rfl

/-- A run comes to know the place of its record when the job has it, and keeps to that. -/
theorem place?_advance {job : Descriptor} {stage : Stage} {s : Supervisor}
    {id : Health.RecordId} (h : (stage.advance job s).1.place? = some id) :
    stage.place? = some id ∨ (stage.advance job s).2.registry.lookup job.name = some id := by
  cases stage with
  | fresh =>
      simp only [advance] at h ⊢
      split at h
      · rename_i found hlookup
        rw [hlookup]
        exact .inr h
      · contradiction
  | missed =>
      have hregistry := registry_advance job .missed s
      right
      rw [hregistry]
      exact (s.registry.lookup_findOrInsert_self job.name).trans h
  | seen r healthy | shown | returned => contradiction
  | _ => exact .inl h

/-- A step leaves the metrics alone unless it counts the run or shows its health. -/
theorem metrics_advance (job : Descriptor) (stage : Stage) (s : Supervisor) :
    (stage.advance job s).2.metrics =
      match stage with
      | .healed _ outcome => s.metrics.recordRun job.name outcome
      | .seen _ healthy => s.metrics.recordHealth job.name healthy
      | _ => s.metrics := by
  cases stage with
  | fresh =>
      simp only [advance]
      split <;> rfl
  | missed =>
      simp only [advance]
      split <;> rfl
  | placed id =>
      simp only [advance, Supervisor.enterScope]
      split <;> rfl
  | entered r => rfl
  | running r => rfl
  | ended r failure => cases failure <;> rfl
  | marked r failure =>
      simp only [advance]
      split <;> rfl
  | judged r elapsed outcome => rfl
  | healed r outcome => rfl
  | counted r => rfl
  | seen r healthy => rfl
  | shown => rfl
  | returned => rfl

end Stage

end JobSupervisor
