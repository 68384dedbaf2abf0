import JobSupervisor.Proofs.RecordLaw
import JobSupervisor.Proofs.SessionConduct

/-!
# The verdict of a run

What a run returns and how it leaves the record of its job, for every body.  A body may read
and change any record, the one of its own job included, may run other jobs and the same job
again, and may work on further threads; of the registry it is only known that it changes by
calls.  Nothing else changes the record between the beginning of the run and its end.

The reset at the beginning clears the outstanding error, so an error that is outstanding when
the body ends was recorded by the body.  The marks of the settlement come after everything
that the body did, and the mark for an overrun comes last; hence an overrun wins over a
failure, a failure wins over what the body left, and the healing only works when there was
neither and the body left no outstanding error.

## Main definitions

* `verdictReason` — which reason wins.
* `Course` — how a run ends, and `Course.operations`, what it does to the record by itself.
* `Body` — a body, with the fact that it changes the registry by calls.
* `Body.recordLeft`, `Body.recordAfter` — the record at the end of the body and of the run.
* `Body.run_verdict` — the verdict.
-/

namespace JobSupervisor

/-! ## Which reason wins -/

variable {α : Type}

/-- The reason in a record that a run left degraded: an overrun wins over a failure of the
body, and a failure over what the body left in the record. -/
def verdictReason (e : Ending α) (overran : Bool) (left : Health.Record) : Option String :=
  if overran then some "Maximum execution time exceeded"
  else match e with
    | .value _ => left.reason
    | .error text => some (if Text.IsBlank text then "Unknown" else text)
    | .panicked none => some "Unknown"
    | .panicked (some text) => some (if Text.IsBlank text then "Unknown" else text)

theorem usableReason_overrunReason :
    Health.usableReason (some overrunReason) = overrunReason :=
  Health.usableReason_of_not_isBlank (by decide)

theorem verdictReason_of_value {e : Ending α} (h : e.failure? = none) (left : Health.Record) :
    verdictReason e false left = left.reason := by
  cases e with
  | value a => rfl
  | error text => simp [Ending.failure?] at h
  | panicked text => simp [Ending.failure?] at h

/-- A failure leaves its text, as far as that is usable. -/
theorem verdictReason_of_failure {e : Ending α} {text : String} (h : e.failure? = some text)
    (left : Health.Record) :
    verdictReason e false left = some (Health.usableReason (some text)) := by
  rw [Health.usableReason_some]
  cases e with
  | value a => simp [Ending.failure?] at h
  | error text' =>
      obtain rfl : text' = text := Option.some.inj h
      rfl
  | panicked payload =>
      obtain rfl : payload.getD "" = text := Option.some.inj h
      cases payload with
      | none => rfl
      | some text => rfl

/-- A body ends without a failure exactly if it returns a value. -/
theorem Ending.failure?_eq_none_iff {e : Ending α} : e.failure? = none ↔ ∃ v, e = .value v := by
  cases e <;> simp [Ending.failure?]

theorem Ending.value?_eq_some_iff {e : Ending α} {v : α} : e.value? = some v ↔ e = .value v := by
  cases e <;> simp [Ending.value?]

namespace Health.Record

theorem after_closing_overran (failure : Option String) (r : Record) :
    r.after (Run.closing failure true) = failed (some overrunReason) := by
  cases failure <;> rfl

theorem after_closing_failed (text : String) (r : Record) :
    r.after (Run.closing (some text) false) = failed (some text) := rfl

theorem after_closing_none (r : Record) : r.after (Run.closing none false) = r.healed := rfl

/-- A settlement heals the record of a run without failure and overrun if no error is
outstanding, and otherwise leaves the reason that wins. -/
theorem after_closing {r : Record} (hr : r.Sound) (e : Ending α) (overran : Bool) :
    r.after (Run.closing e.failure? overran) =
      if e.failure? = none ∧ overran = false ∧ r.outstanding = false then pristine
      else ⟨true, true, verdictReason e overran r⟩ := by
  cases overran with
  | true =>
      rw [after_closing_overran, failed, usableReason_overrunReason]
      simp [verdictReason, overrunReason]
  | false =>
      cases hf : e.failure? with
      | some text =>
          rw [after_closing_failed, failed, verdictReason_of_failure hf]
          simp
      | none =>
          rw [after_closing_none, verdictReason_of_value hf]
          cases ho : r.outstanding with
          | false => simp [healed_of_not_outstanding ho]
          | true => simpa [healed_of_outstanding ho] using hr.eq_of_outstanding ho

end Health.Record

/-! ## What a run does by itself -/

/-- How a run ends: with which failure of its body, and whether it exceeded its budget. -/
structure Course where
  failure : Option String
  overran : Bool
  deriving DecidableEq, Repr

/-- What a run does to the record of its job: a reset at the beginning, and the marks and the
healing of the settlement. -/
def Course.operations (c : Course) : List Health.Operation :=
  .resetOutstanding :: (Run.marks c.failure c.overran ++ [.healUnlessOutstanding])

/-! ## Runs around a body -/

namespace Session

/-- The code of a body: it may do anything, but it changes the registry by calls. -/
structure Body (α : Type) where
  act : Session → Ending α × Session
  leads : ∀ x : Session, x.Leads (act x).2

namespace Body

/-- A body that performs actions, lets time pass and ends as it is told. -/
def ofActions (steps : List Action) (sleep : Duration) (ending : BodyEnd) : Body String where
  act := scriptedBody (performAll steps) sleep ending
  leads x := leads_scriptedBody (leads_performAll steps x) sleep ending

/-- The place of the record of a job during a run. -/
def place (job : Descriptor) (x : Session) : Health.RecordId :=
  (Run.begin job x.supervisor).1.record

/-- The session in which the body of a run begins. -/
def entry (job : Descriptor) (x : Session) : Session :=
  x.withSupervisor (Run.begin job x.supervisor).2

variable (b : Body α) (job : Descriptor) (x : Session)

/-- A run of a job around a body. -/
def run : Option α × Session :=
  supervise Session.supervisor withSupervisor job b.act x

/-- How the body of a run ends. -/
def ending : Ending α := (b.act (entry job x)).1

/-- The session in which the body of a run ends. -/
def exit : Session := (b.act (entry job x)).2

/-- The time from the beginning of a run to the end of its body. -/
def elapsed : Duration := (b.exit job x).supervisor.clock.since x.supervisor.clock

/-- Whether a run exceeds the budget of its job. -/
def overran : Bool := job.budget < b.elapsed job x

/-- How the run ends. -/
def course : Course := ⟨(b.ending job x).failure?, b.overran job x⟩

/-- The record of the job at the end of the body. -/
def recordLeft : Health.Record := (b.exit job x).supervisor.registry.recordOf job.name

/-- The record of the job at the end of the run. -/
def recordAfter : Health.Record := (b.run job x).2.supervisor.registry.recordOf job.name

/-- A run of scripted actions is a run around the body that they make. -/
theorem supervisor_runJob (steps : List Action) (sleep : Duration) (ending : BodyEnd) :
    (runJob job (performAll steps) sleep ending x).2.supervisor =
      ((ofActions steps sleep ending).run job x).2.supervisor := rfl

theorem fst_run : (b.run job x).1 = (b.ending job x).value? := rfl

theorem lookup_entry :
    (entry job x).supervisor.registry.lookup job.name = some (place job x) :=
  Run.lookup_begin job x.supervisor

theorem lookup_exit :
    (b.exit job x).supervisor.registry.lookup job.name = some (place job x) := by
  obtain ⟨calls, h⟩ := b.leads (entry job x)
  rw [exit, h]
  exact Health.Registry.lookup_after (lookup_entry job x) calls

/-- The settlement works on what the body left. -/
theorem registry_run :
    (b.run job x).2.supervisor.registry =
      (b.exit job x).supervisor.registry.after
        ((Run.closing (b.ending job x).failure? (b.overran job x)).map
          (.change (place job x))) := by
  have h := Run.registry_settle (Run.begin job x.supervisor).1 (b.ending job x)
    (b.exit job x).supervisor
  rwa [Run.overran, Run.started_begin, Run.job_begin] at h

variable {x}

theorem wellFormed_entry (hx : x.supervisor.registry.Reachable) :
    (entry job x).supervisor.registry.WellFormed :=
  (hx.leads (Run.leads_begin job x.supervisor)).wellFormed

theorem wellFormed_exit (hx : x.supervisor.registry.Reachable) :
    (b.exit job x).supervisor.registry.WellFormed :=
  ((hx.leads (Run.leads_begin job x.supervisor)).leads (b.leads (entry job x))).wellFormed

/-- **The record after a run is what the settlement makes of what the body left.** -/
theorem recordAfter_eq (hx : x.supervisor.registry.Reachable) :
    b.recordAfter job x =
      (b.recordLeft job x).after
        (Run.closing (b.ending job x).failure? (b.overran job x)) := by
  have hexit := b.lookup_exit job x
  have hlt := (b.wellFormed_exit job hx).inRange job.name _ hexit
  rw [recordAfter, registry_run,
    Health.Registry.recordOf_of_lookup (Health.Registry.lookup_after hexit _),
    Health.Registry.record_after hlt, Health.operationsOn_map_change, recordLeft,
    Health.Registry.recordOf_of_lookup hexit]

/-- **A body finds the record from before the run without an outstanding error.** -/
theorem recordOf_entry (hx : x.supervisor.registry.Reachable) :
    (entry job x).supervisor.registry.recordOf job.name =
      { x.supervisor.registry.recordOf job.name with outstanding := false } :=
  (Health.Registry.recordOf_of_lookup (lookup_entry job x)).trans
    (Run.record_begin job hx.wellFormed)

/-- During a run the record is what the operations on it make of what the body found. -/
theorem recordOf_after_entry (hx : x.supervisor.registry.Reachable) {y : Session}
    {calls : List Health.Call}
    (hy : y.supervisor.registry = (entry job x).supervisor.registry.after calls) :
    y.supervisor.registry.recordOf job.name =
      ((entry job x).supervisor.registry.recordOf job.name).after
        (Health.operationsOn (place job x) calls) := by
  have hentry := lookup_entry job x
  have hlt := (wellFormed_entry job hx).inRange job.name _ hentry
  rw [hy, Health.Registry.recordOf_of_lookup (Health.Registry.lookup_after hentry calls),
    Health.Registry.recordOf_of_lookup hentry, Health.Registry.record_after hlt]

/-- As long as no call changes the record of the job, a reader sees what was seen before the
run. -/
theorem snapshot_of_untouched (hx : x.supervisor.registry.Reachable) {y : Session}
    {calls : List Health.Call}
    (hy : y.supervisor.registry = (entry job x).supervisor.registry.after calls)
    (h : Health.operationsOn (place job x) calls = []) :
    (y.supervisor.registry.recordOf job.name).snapshot =
      (x.supervisor.registry.recordOf job.name).snapshot := by
  rw [recordOf_after_entry job hx hy, h, Health.Record.after_nil, recordOf_entry job hx]
  exact Health.Record.snapshot_reset _

/-- A run whose body does not change the record does to it what its course says. -/
theorem recordAfter_of_untouched (hx : x.supervisor.registry.Reachable)
    {calls : List Health.Call}
    (hcalls : (b.exit job x).supervisor.registry =
      (entry job x).supervisor.registry.after calls)
    (h : Health.operationsOn (place job x) calls = []) :
    b.recordAfter job x =
      (x.supervisor.registry.recordOf job.name).after (b.course job x).operations := by
  rw [b.recordAfter_eq job hx, recordLeft, recordOf_after_entry job hx hcalls, h,
    Health.Record.after_nil, recordOf_entry job hx]
  rfl

/-- A run whose body does not change the record leaves it pristine exactly if it went well, and
whatever an earlier run left. -/
theorem recordAfter_of_untouched_eq_pristine_iff (hx : x.supervisor.registry.Reachable)
    {calls : List Health.Call}
    (hcalls : (b.exit job x).supervisor.registry =
      (entry job x).supervisor.registry.after calls)
    (h : Health.operationsOn (place job x) calls = []) :
    b.recordAfter job x = Health.Record.pristine ↔
      (∃ v, b.ending job x = .value v) ∧ ¬ job.budget < b.elapsed job x := by
  have hsound := Health.Registry.sound_recordOf hx.wellFormed job.name
  have hclosing : (b.course job x).operations =
      .resetOutstanding :: Run.closing (b.ending job x).failure? (b.overran job x) := rfl
  rw [b.recordAfter_of_untouched job hx hcalls h, hclosing, Health.Record.after_cons,
    Health.Record.after_closing (hsound.apply .resetOutstanding), ← Ending.failure?_eq_none_iff]
  split
  · simp_all [overran, Health.Operation.apply]
  · simp_all [overran, Health.Operation.apply, Health.Record.pristine]

/-- **The verdict of a run.**  From every registry that calls can make and around every body,
a run returns a value exactly when the body does.  It leaves the record of the job pristine
exactly when the body returned a value within the budget and left no outstanding error, and
otherwise degraded, with an outstanding error and the reason that wins.

The body finds no outstanding error of an earlier run.  One that is outstanding in the end was
recorded by the body itself, with the reason that the record has then; and after a body that
did not change the record, it does not matter what an earlier run left.  Until a call changes
the record, a reader sees what was seen before the run. -/
theorem run_verdict (hx : x.supervisor.registry.Reachable) :
    (∀ v, (b.run job x).1 = some v ↔ b.ending job x = .value v) ∧
    (b.recordAfter job x = Health.Record.pristine ↔
      (∃ v, b.ending job x = .value v) ∧ ¬ job.budget < b.elapsed job x ∧
        (b.recordLeft job x).outstanding = false) ∧
    (b.recordAfter job x ≠ Health.Record.pristine →
      b.recordAfter job x =
        ⟨true, true, verdictReason (b.ending job x) (b.overran job x) (b.recordLeft job x)⟩) ∧
    (entry job x).supervisor.registry.recordOf job.name =
      { x.supervisor.registry.recordOf job.name with outstanding := false } ∧
    (∀ calls, (b.exit job x).supervisor.registry =
        (entry job x).supervisor.registry.after calls →
      ((b.recordLeft job x).outstanding = true ↔
        ∃ before reason later,
          Health.operationsOn (place job x) calls = before ++ .markUnhealthy reason :: later ∧
          (∀ op ∈ later, op = .healUnlessOutstanding) ∧
          b.recordLeft job x = Health.Record.failed reason) ∧
      (Health.operationsOn (place job x) calls = [] →
        (b.recordAfter job x = Health.Record.pristine ↔
          (∃ v, b.ending job x = .value v) ∧ ¬ job.budget < b.elapsed job x))) ∧
    (∀ (y : Session) calls, y.supervisor.registry =
        (entry job x).supervisor.registry.after calls →
      Health.operationsOn (place job x) calls = [] →
      (y.supervisor.registry.recordOf job.name).snapshot =
        (x.supervisor.registry.recordOf job.name).snapshot) := by
  have hleft : (b.recordLeft job x).Sound :=
    Health.Registry.sound_recordOf (b.wellFormed_exit job hx) job.name
  have hafter := (b.recordAfter_eq job hx).trans
    (Health.Record.after_closing hleft (b.ending job x) (b.overran job x))
  have hbudget : b.overran job x = false ↔ ¬ job.budget < b.elapsed job x := by
    simp [overran]
  have hfound := recordOf_entry job hx
  refine ⟨fun v => ?_, ?_, fun hne => ?_, hfound, fun calls hcalls => ⟨?_, fun h =>
    b.recordAfter_of_untouched_eq_pristine_iff job hx hcalls h⟩,
    fun y calls hy h => snapshot_of_untouched job hx hy h⟩
  · rw [fst_run, Ending.value?_eq_some_iff]
  · rw [hafter, ← Ending.failure?_eq_none_iff, ← hbudget]
    split
    · simp_all
    · simp_all [Health.Record.pristine]
  · rw [hafter] at hne ⊢
    split at hne
    · exact absurd rfl hne
    · rw [if_neg ‹_›]
  · rw [recordLeft, recordOf_after_entry job hx hcalls]
    exact Health.Record.outstanding_after_iff (by rw [hfound]) _

/-- A run of a job whose earlier run failed: around a body that leaves the record alone, and around
one that marks the record, runs the job again and then fails with another text. -/
theorem run_verdict_after_failure :
    let job : Descriptor := ⟨"sync", .ofSecs 60⟩
    let x := ((ofActions [] ⟨0⟩ (.message "disk full")).run job Session.initial).2
    let quiet := ofActions [] ⟨0⟩ (.success "1")
    let nested := ofActions [.change (.named "sync") (.markUnhealthy (some "stale")),
      .run job [] ⟨0⟩ (.success "1")] ⟨0⟩ (.message "no route")
    x.supervisor.registry.Reachable ∧
      x.supervisor.registry.recordOf "sync" = ⟨true, true, some "disk full"⟩ ∧
      (entry job x).supervisor.registry.recordOf "sync" = ⟨true, false, some "disk full"⟩ ∧
      quiet.recordAfter job x = Health.Record.pristine ∧
      (nested.recordAfter job x).reason = some "no route" := by
  intro job x quiet nested
  have hinitial : Session.initial.supervisor.registry.Reachable := Health.Registry.Leads.refl _
  have hx : x.supervisor.registry.Reachable := hinitial.leads
    (leads_supervise job (ofActions [] ⟨0⟩ (.message "disk full")).leads Session.initial)
  have hfailed : x.supervisor.registry.recordOf "sync" = ⟨true, true, some "disk full"⟩ := by
    decide +kernel
  obtain ⟨-, -, -, hfound, hbody, -⟩ := run_verdict quiet job hx
  rw [show job.name = "sync" from rfl, hfailed] at hfound
  have hcalls (z : Session) : (quiet.exit job z).supervisor.registry =
      (entry job z).supervisor.registry.after [] := rfl
  refine ⟨hx, hfailed, hfound, ?_, ?_⟩
  · exact ((hbody [] (hcalls x)).2 rfl).2 ⟨⟨"1", rfl⟩, by decide +kernel⟩
  · have h := (run_verdict nested job hx).2.2.1 (by decide +kernel)
    rw [h]
    decide +kernel

end Body

end Session

end JobSupervisor
