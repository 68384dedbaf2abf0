import JobSupervisor.Proofs.ExposedMetrics
import JobSupervisor.Proofs.RunCounts
import JobSupervisor.Proofs.SessionSpans

/-!
# The views of one run

A run tells what became of it in several places: by what it returns, by events in the journal, by
a counter with an outcome, and by a gauge.  They are made at different points of the run, and in
between the body may have changed the context of the thread, run other jobs, or written events
of its own.

What a run itself writes stands at two places in the journal: before everything that its body
writes, and after that.  The name and the identifier in it are those that the run kept from its
beginning, the text is that of the failure before a record judges it, and the diagnostics are
those in effect when the body ends.

## Main definitions

* `Run.opening`, `Run.ending` — what a run writes into the journal before and after its body.
* `Session.SpannedBody.Views` — what the views of a run show.
* `Session.SpannedBody.views_agree` — every run shows that.
-/

namespace JobSupervisor

/-! ## What a run writes into the journal -/

namespace Supervisor

/-- An event within the open spans. -/
def entryOf (s : Supervisor) (e : Log.Event) : Log.Entry := ⟨e, s.thread.spans.reverse⟩

theorem journal_emit (s : Supervisor) (e : Log.Event) :
    (s.emit e).journal.toList = s.journal.toList ++ [s.entryOf e] := by
  simp [emit, entryOf]

theorem journal_ensureRecord (s : Supervisor) (name : String) :
    (s.ensureRecord name).2.journal.toList = s.journal.toList ++
      if (s.registry.getOrCreate name).1.inserted then [s.entryOf (.recordRegistered name)]
      else [] := by
  simp only [ensureRecord]
  split
  · exact journal_emit _ _
  · simp

theorem journal_enterScope (s : Supervisor) (supplied : Option String) :
    (s.enterScope supplied).2.journal = s.journal := by
  obtain ⟨context, drawn, h⟩ := s.enterScope_frame supplied
  rw [h]

theorem metrics_ensureRecord (s : Supervisor) (name : String) :
    (s.ensureRecord name).2.metrics = s.metrics := by
  obtain ⟨registry, journal, h⟩ := s.ensureRecord_frame name
  rw [h]

theorem metrics_enterScope (s : Supervisor) (supplied : Option String) :
    (s.enterScope supplied).2.metrics = s.metrics := by
  obtain ⟨context, drawn, h⟩ := s.enterScope_frame supplied
  rw [h]

end Supervisor

namespace Run

variable {α : Type}

/-- What a run writes before its body: the record of its job, if it is a new one, and its start
within its own span. -/
def opening (job : Descriptor) (s : Supervisor) : List Log.Entry :=
  (if (s.registry.getOrCreate job.name).1.inserted then [s.entryOf (.recordRegistered job.name)]
    else []) ++
  [(Run.begin job s).2.entryOf .runStarted]

/-- The events of a settlement: the failure, the overrun, and always the end. -/
def closingEvents (r : Run) (e : Ending α) (s : Supervisor) : List Log.Event :=
  (match e.failure? with
    | some text => [.runFailed r.job.name r.correlation text s.thread.context.snapshot]
    | none => []) ++
  (if r.job.budget < s.clock.since r.started then
    [.runOverran r.job.name r.correlation (s.clock.since r.started) r.job.budget]
    else []) ++
  [.runFinished (s.clock.since r.started) (r.outcome e (s.clock.since r.started))]

/-- A run writes its opening before its body. -/
theorem journal_begin (job : Descriptor) (s : Supervisor) :
    (Run.begin job s).2.journal.toList = s.journal.toList ++ opening job s := by
  have hstart : (Run.begin job s).2.journal.toList =
      (s.ensureRecord job.name).2.journal.toList ++ [(Run.begin job s).2.entryOf .runStarted] := by
    rw [← Supervisor.journal_enterScope (s.ensureRecord job.name).2 none]
    exact Supervisor.journal_emit _ _
  rw [hstart, s.journal_ensureRecord, opening, List.append_assoc]

@[simp] theorem journal_measure (r : Run) (outcome : Log.Outcome) (s : Supervisor) :
    (r.measure outcome s).journal = s.journal := rfl

@[simp] theorem journal_leave (s : Supervisor) : (leave s).journal = s.journal := rfl

/-- A run writes its closing events after its body, within the spans that the body left open. -/
theorem journal_settle (r : Run) (e : Ending α) (s : Supervisor) :
    (r.settle e s).2.journal.toList =
      s.journal.toList ++ (r.closingEvents e s).map s.entryOf := by
  by_cases ho : r.job.budget < s.clock.since r.started
  · cases hf : e.failure? <;>
      simp [settle, closingEvents, hf, ho, fail, overrun, Supervisor.entryOf, Supervisor.emit,
        Supervisor.perform]
  · cases hf : e.failure? <;>
      simp [settle, closingEvents, hf, ho, fail, Supervisor.entryOf, Supervisor.emit,
        Supervisor.perform]

theorem metrics_begin (job : Descriptor) (s : Supervisor) :
    (Run.begin job s).2.metrics = s.metrics := by
  have hscope := (s.ensureRecord job.name).2.metrics_enterScope none
  rw [s.metrics_ensureRecord] at hscope
  exact hscope

/-- The metrics after a settlement. -/
theorem metrics_settle (r : Run) (e : Ending α) (s : Supervisor) :
    (r.settle e s).2.metrics =
      (s.metrics.recordRun r.job.name (r.outcome e (s.clock.since r.started))).recordHealth
        r.job.name ((r.settle e s).2.record r.record).isHealthy := by
  simp only [settle]
  split <;> split <;> rfl

end Run

/-! ## What a run counts -/

namespace Metrics

open Log (Outcome)

theorem runs_countRun (s : Series) (o o' : Outcome) :
    (s.countRun o).runs o' = s.runs o' + if o' = o then 1 else 0 := by
  cases o <;> cases o' <;> simp [Series.countRun, Series.runs]

/-- A run that ended is counted for its job, with its outcome. -/
theorem runs_recordRun_recordHealth (m : Metrics) (job name : String) (o o' : Outcome)
    (healthy : Bool) :
    (((m.recordRun job o).recordHealth job healthy).series name).runs o' =
      (m.series name).runs o' + if name = job ∧ o' = o then 1 else 0 := by
  have hhealth : (((m.recordRun job o).recordHealth job healthy).series name).runs o' =
      ((m.recordRun job o).series name).runs o' := by
    rw [series_recordHealth]
    split
    · rename_i h
      subst h
      cases o' <;> rfl
    · rfl
  rw [hhealth, series_recordRun]
  by_cases hname : job = name
  · subst hname
    simp [runs_countRun]
  · rw [if_neg hname, if_neg (fun h => hname h.1.symm), Nat.add_zero]

end Metrics

/-! ## The views -/

/-- The time and the outcome that an event tells about a run that ended. -/
def Log.Event.finish? : Log.Event → Option (Duration × Log.Outcome)
  | .runFinished elapsed outcome => some (elapsed, outcome)
  | _ => none

namespace Session

/-- The identifier of a run that begins: the one of the scope that is open, or else the one that
is drawn next. -/
def runIdentifier (x : Session) : String :=
  if x.supervisor.thread.context.depth = 0 then Context.Identifier.nth x.supervisor.drawn
  else x.supervisor.thread.context.currentText

theorem correlation_begin (job : Descriptor) (x : Session) :
    (Run.begin job x.supervisor).1.correlation = x.runIdentifier := by
  rw [Run.correlation_begin, Context.currentText, runIdentifier]
  split
  · rename_i hzero
    rw [Run.current_begin_outermost job hzero, Option.getD_some]
  · rename_i hne
    rw [Run.current_begin_inner job hne]
    rfl

namespace SpannedBody

variable {α : Type} (b : SpannedBody α) (job : Descriptor) (x : Session)

/-- The diagnostics of the thread when the body ends. -/
def diagnostics : List (String × String) := (b.exit job x).supervisor.thread.context.snapshot

/-- The outcome of a run: an overrun wins over what the run returned. -/
def outcome : Log.Outcome :=
  if job.budget < b.elapsed job x then .overrun
  else if (b.run job x).1.isNone then .failure else .success

/-- What the views of a run show, where `own` are the entries that the run itself wrote. -/
structure Views (own : List Log.Entry) : Prop where
  /-- The run returned nothing exactly if its body failed. -/
  returned : (b.run job x).1 = none ↔ ((b.ending job x).failure?).isSome
  /-- One error, with the text of the failure as it is, or none. -/
  errors : (own.map Log.Entry.event).filter (·.level = .error) =
    ((b.ending job x).failure?.map fun text =>
      Log.Event.runFailed job.name x.runIdentifier text (b.diagnostics job x)).toList
  /-- One warning, or none. -/
  warnings : (own.map Log.Entry.event).filter (·.level = .warn) =
    if job.budget < b.elapsed job x then
      [.runOverran job.name x.runIdentifier (b.elapsed job x) job.budget]
    else []
  inside : ∀ e ∈ own, e.event.level = .error ∨ e.event.level = .warn →
    x.spans.reverse ++ [.run job.name x.runIdentifier] <+: e.spans
  sorted : (b.diagnostics job x).Pairwise fun e e' => e.1 < e'.1
  finished : (own.map Log.Entry.event).filterMap Log.Event.finish? =
    [(b.elapsed job x, b.outcome job x)]
  /-- Nothing is counted before the body, and one run after it. -/
  uncounted : (Body.entry job x).supervisor.metrics = x.supervisor.metrics
  counted : ∀ name (o : Log.Outcome),
    ((b.run job x).2.supervisor.metrics.exposed? "job_runs_total"
        [("job", name), ("outcome", o.word)]).getD 0 =
      ((b.exit job x).supervisor.metrics.exposed? "job_runs_total"
        [("job", name), ("outcome", o.word)]).getD 0 +
      if name = job.name ∧ o = b.outcome job x then 1 else 0
  gauge : (b.run job x).2.supervisor.metrics.exposed? "job_health" [("job", job.name)] =
    some (if (b.recordAfter job x).isHealthy then 1 else 0)
  success :
    (b.run job x).2.supervisor.metrics.exposed? "job_health" [("job", job.name)] = some 1 →
      b.outcome job x = .success

/-! ## What the run itself wrote -/

/-- What a run writes itself, before its body and after it. -/
def ownEntries : List Log.Entry :=
  Run.opening job x.supervisor ++
    ((Run.begin job x.supervisor).1.closingEvents (b.ending job x)
      (b.exit job x).supervisor).map (b.exit job x).supervisor.entryOf

theorem isNone_run : (b.run job x).1.isNone = ((b.ending job x).failure?).isSome := by
  rw [Body.fst_run]
  cases b.ending job x <;> rfl

/-- The time that a settlement compares with the budget. -/
theorem elapsed_eq :
    (b.exit job x).supervisor.clock.since (Run.begin job x.supervisor).1.started =
      b.elapsed job x := by
  rw [Run.started_begin]
  rfl

theorem outcome_eq :
    (Run.begin job x.supervisor).1.outcome (b.ending job x) (b.elapsed job x) =
      b.outcome job x := by
  rw [outcome, isNone_run]
  rfl

/-- The events of a run, one after the other. -/
theorem events_ownEntries :
    (b.ownEntries job x).map Log.Entry.event =
      (if (x.supervisor.registry.getOrCreate job.name).1.inserted
        then [.recordRegistered job.name] else []) ++ [.runStarted] ++
      (((b.ending job x).failure?.map fun text =>
        Log.Event.runFailed job.name x.runIdentifier text (b.diagnostics job x)).toList ++
      (if job.budget < b.elapsed job x then
        [.runOverran job.name x.runIdentifier (b.elapsed job x) job.budget] else []) ++
      [.runFinished (b.elapsed job x) (b.outcome job x)]) := by
  have hopening : (Run.opening job x.supervisor).map Log.Entry.event =
      (if (x.supervisor.registry.getOrCreate job.name).1.inserted
        then [.recordRegistered job.name] else []) ++ [.runStarted] := by
    rw [Run.opening, List.map_append]
    split <;> rfl
  have hclosing : (Run.begin job x.supervisor).1.closingEvents (b.ending job x)
      (b.exit job x).supervisor =
      ((b.ending job x).failure?.map fun text =>
        Log.Event.runFailed job.name x.runIdentifier text (b.diagnostics job x)).toList ++
      (if job.budget < b.elapsed job x then
        [.runOverran job.name x.runIdentifier (b.elapsed job x) job.budget] else []) ++
      [.runFinished (b.elapsed job x) (b.outcome job x)] := by
    rw [Run.closingEvents, elapsed_eq, Run.job_begin, correlation_begin, outcome_eq]
    cases (b.ending job x).failure? <;> rfl
  have hentry : Log.Entry.event ∘ (b.exit job x).supervisor.entryOf = id := rfl
  rw [ownEntries, List.map_append, List.map_map, hopening, hclosing, hentry, List.map_id]

/-- After its body a run is still within its own span, which is within those in which it
began. -/
theorem prefix_spans_exit :
    x.spans.reverse ++ [.run job.name x.runIdentifier] <+: (b.exit job x).spans.reverse := by
  obtain ⟨opened, hopened⟩ := b.keeps (Body.entry job x)
  have hentry : (Body.entry job x).spans = .run job.name x.runIdentifier :: x.spans := by
    rw [← correlation_begin job]
    exact Run.spans_begin job x.supervisor
  rw [hentry] at hopened
  rw [Body.exit, ← hopened]
  exact ⟨opened.reverse, by simp⟩

theorem inside_ownEntries {e : Log.Entry} (he : e ∈ b.ownEntries job x)
    (hlevel : e.event.level = .error ∨ e.event.level = .warn) :
    x.spans.reverse ++ [.run job.name x.runIdentifier] <+: e.spans := by
  rcases List.mem_append.mp he with hbefore | hafter
  · -- What is written before the body is of the lowest level.
    rw [Run.opening] at hbefore
    split at hbefore <;> simp [Supervisor.entryOf] at hbefore <;>
      rcases hbefore with rfl | rfl <;> simp [Log.Event.level] at hlevel
  · obtain ⟨event, -, rfl⟩ := List.mem_map.mp hafter
    exact b.prefix_spans_exit job x

/-! ## What it counted -/

theorem metrics_run :
    (b.run job x).2.supervisor.metrics =
      ((b.exit job x).supervisor.metrics.recordRun job.name (b.outcome job x)).recordHealth
        job.name (b.recordAfter job x).isHealthy := by
  -- The record whose health is shown is the one under the name of the job after the run.
  have hrecord : (b.run job x).2.supervisor.record (Body.place job x) = b.recordAfter job x := by
    rw [Body.recordAfter, Supervisor.record]
    apply (Health.Registry.recordOf_of_lookup _).symm
    rw [b.registry_run]
    exact Health.Registry.lookup_after (b.lookup_exit job x) _
  have hsettle := Run.metrics_settle (Run.begin job x.supervisor).1 (b.ending job x)
    (b.exit job x).supervisor
  rw [elapsed_eq, outcome_eq, Run.job_begin] at hsettle
  rw [← hrecord]
  exact hsettle

theorem metrics_entry : (Body.entry job x).supervisor.metrics = x.supervisor.metrics :=
  Run.metrics_begin job x.supervisor

variable {x}

/-- A run that leaves the record of its job healthy had neither a failure nor an overrun. -/
theorem outcome_of_isHealthy (hx : x.supervisor.registry.Reachable)
    (h : (b.recordAfter job x).isHealthy = true) : b.outcome job x = .success := by
  have hleft : (b.recordLeft job x).Sound :=
    Health.Registry.sound_recordOf (b.wellFormed_exit job hx) job.name
  rw [b.recordAfter_eq job hx, Health.Record.after_closing hleft] at h
  split at h
  · rename_i hgood
    obtain ⟨hreturned, hbudget, -⟩ := hgood
    have hin : ¬ job.budget < b.elapsed job x := by simpa [Body.overran] using hbudget
    rw [outcome, if_neg hin, isNone_run, hreturned]
    rfl
  · simp [Health.Record.isHealthy] at h

/-- **The views of a run agree.**  Around every body that does not close the spans in which it
began, a run writes its own entries before and after those of its body.  They have one error
exactly if the run returns nothing, one warning exactly if it exceeds its budget, and one end
with the outcome that is also counted; the gauge shows the health of the record that the run
leaves, and is up only after a success. -/
theorem views_agree (hx : x.supervisor.registry.Reachable) :
    ∃ before after : List Log.Entry,
      (Body.entry job x).supervisor.journal.toList = x.supervisor.journal.toList ++ before ∧
      (b.run job x).2.supervisor.journal.toList =
        (b.exit job x).supervisor.journal.toList ++ after ∧
      b.Views job x (before ++ after) := by
  refine ⟨_, _, Run.journal_begin job x.supervisor, Run.journal_settle _ _ _, ?_⟩
  have hevents := b.events_ownEntries job x
  have hgauge : (b.run job x).2.supervisor.metrics.exposed? "job_health" [("job", job.name)] =
      some (if (b.recordAfter job x).isHealthy then 1 else 0) := by
    rw [Metrics.exposed_health, metrics_run, Metrics.health_recordHealth]
    rfl
  constructor
  case returned =>
    rw [← isNone_run, Option.isNone_iff_eq_none]
  case errors =>
    refine (congrArg _ hevents).trans ?_
    cases (b.ending job x).failure? <;> split <;> split <;> rfl
  case warnings =>
    refine (congrArg _ hevents).trans ?_
    cases (b.ending job x).failure? <;> split <;> split <;> rfl
  case inside =>
    intro e he hlevel
    exact b.inside_ownEntries job x he hlevel
  case sorted =>
    exact (b.exit job x).supervisor.thread.context.diagnostics.ascending
  case finished =>
    refine (congrArg _ hevents).trans ?_
    cases (b.ending job x).failure? <;> split <;> split <;> rfl
  case uncounted =>
    exact metrics_entry job x
  case counted =>
    intro name o
    rw [Metrics.exposed_runs, Metrics.exposed_runs, metrics_run,
      Metrics.runs_recordRun_recordHealth]
  case gauge =>
    exact hgauge
  case success =>
    intro h
    rw [hgauge] at h
    apply b.outcome_of_isHealthy job hx
    cases hhealthy : (b.recordAfter job x).isHealthy with
    | true => rfl
    | false => simp [hhealthy] at h

/-- A body that puts another identifier into the diagnostics of its thread, runs the job again,
and fails with a blank text after the budget is exceeded. -/
def disguised : SpannedBody String :=
  ofActions [.put "tenant" "acme", .put "correlation_id" "other",
    .run ⟨"sync", .ofSecs 1⟩ [] ⟨0⟩ (.success "1")] (.ofSecs 2) (.message " ")

/-- The error has the identifier from the beginning and the blank text, although the record
gives the overrun as its reason. -/
theorem views_agree_disguised :
    Session.initial.supervisor.registry.Reachable ∧
      (∃ before after : List Log.Entry,
        (disguised.run ⟨"sync", .ofSecs 1⟩ Session.initial).2.supervisor.journal.toList =
          (disguised.exit ⟨"sync", .ofSecs 1⟩ Session.initial).supervisor.journal.toList ++ after ∧
        ((before ++ after).map Log.Entry.event).filter (·.level = .error) =
          [.runFailed "sync" (Context.Identifier.nth 0) " "
            [("correlation_id", "other"), ("tenant", "acme")]]) ∧
      (disguised.recordAfter ⟨"sync", .ofSecs 1⟩ Session.initial).reason = some overrunReason := by
  have hx : Session.initial.supervisor.registry.Reachable := Health.Registry.Leads.refl _
  obtain ⟨before, after, -, hafter, hviews⟩ := disguised.views_agree ⟨"sync", .ofSecs 1⟩ hx
  refine ⟨hx, ⟨before, after, hafter, ?_⟩, by decide +kernel⟩
  rw [hviews.errors]
  decide +kernel

end SpannedBody

end Session

end JobSupervisor
