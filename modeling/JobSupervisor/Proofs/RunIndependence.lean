import JobSupervisor.Proofs.CrewSchedules
import JobSupervisor.Proofs.HealthEndpoints
import JobSupervisor.Proofs.RunScopes

/-!
# Runs of distinct jobs are independent

Whatever the order in which workers take their steps, when all runs of distinct jobs are over,
names, records, report, metrics and returned values are the same, and in particular those of the
runs made one after the other.  For every job there is one worker at most, so what is shared about
the job is what that worker has left, or what it was before.

A run opens a scope and closes one.  The thread ends with the scopes with which it began, unless
the body itself leaves other scopes behind than it found.  A body that works on scopes only by
guards does not.

## Main definitions

* `Supervisor.shared_of_footprint` — what is shared is known by the footprints of all jobs.
* `Script.KeepsScopes`, `Script.guarded` — bodies that keep the scopes, and guards within them.
* `Worker.LeavesScopes` — a body leaves the scopes of its thread as it found them.
* `Crew.independent` — the outcome does not depend on the order of the steps.
-/

namespace JobSupervisor

/-! ## What is shared -/

namespace Supervisor

variable {s s' : Supervisor}

/-- What is shared is known by what is shared about each job. -/
theorem shared_of_footprint (h : ∀ name, s.footprint name = s'.footprint name) :
    s.registry.names = s'.registry.names ∧
      (∀ name, s.registry.recordOf? name = s'.registry.recordOf? name) ∧
      s.report = s'.report ∧ s.metrics = s'.metrics := by
  have hrecord (name : String) : s.registry.recordOf? name = s'.registry.recordOf? name :=
    congrArg Footprint.record (h name)
  have hreport (g : Health.Registry) (name : String) : g.report.details.get? name =
      (g.recordOf? name).bind fun r =>
        if r.snapshot.status = .degraded then some (r.snapshot.reason.getD "") else none := by
    rw [g.get?_report, Health.Registry.recordOf?, Option.bind_map]
    rfl
  refine ⟨?_, hrecord, ?_, ?_⟩
  · refine NameMap.keys_eq_of_isSome fun name => ?_
    have hsome := congrArg Option.isSome (hrecord name)
    rw [Health.Registry.recordOf?, Health.Registry.recordOf?, Option.isSome_map,
      Option.isSome_map] at hsome
    exact hsome
  · have hdetails : s.report.details = s'.report.details := NameMap.eq_of_get? fun name => by
      rw [report, report, hreport, hreport, hrecord]
    exact congrArg Health.Report.mk hdetails
  · have hjobs : s.metrics.jobs = s'.metrics.jobs := NameMap.eq_of_get? fun name =>
      congrArg Footprint.series (h name)
    exact congrArg Metrics.mk hjobs

end Supervisor

/-! ## The scopes of a thread -/

namespace RunLocal

/-- Opens a scope. -/
def openScope (supplied : Option String) (own : RunLocal) : RunLocal :=
  .of ((own.view .initial).enterScope supplied).2

/-- Closes the innermost scope. -/
def closeScope (own : RunLocal) : RunLocal := .of (own.view .initial).exitScope.2

/-- Sets a diagnostic. -/
def put (key : FreeKey) (value : String) (own : RunLocal) : RunLocal :=
  { own with thread := { own.thread with context := own.thread.context.put key value } }

end RunLocal

namespace Script

variable {α : Type} {name : String} {script : Script α}

/-- A body that begins within a scope leaves as many open scopes as it found, and the identifier
that was in effect. -/
def KeepsScopes (name : String) (script : Script α) : Prop :=
  ∀ v : Supervisor, 0 < v.thread.context.depth →
    (script.play name v).2.thread.context.depth = v.thread.context.depth ∧
      (script.play name v).2.thread.context.current = v.thread.context.current

theorem keepsScopes_done (e : Ending α) : (done e).KeepsScopes name := fun _ _ => ⟨rfl, rfl⟩

theorem keepsScopes_change {op : Health.Operation} {next : Option Bool → Script α}
    (h : ∀ answer, (next answer).KeepsScopes name) : (change op next).KeepsScopes name := by
  intro v hv
  have hthread := v.thread_ensureRecord name
  have hrest := h (op.answer? ((v.ensureRecord name).2.record (v.ensureRecord name).1))
    ((v.ensureRecord name).2.perform (v.ensureRecord name).1 op)
  rw [show ((v.ensureRecord name).2.perform (v.ensureRecord name).1 op).thread = v.thread from
    hthread] at hrest
  exact hrest hv

theorem keepsScopes_read {next : Health.Record → Script α}
    (h : ∀ r, (next r).KeepsScopes name) : (read next).KeepsScopes name := by
  intro v hv
  have hrest := h ((v.ensureRecord name).2.record (v.ensureRecord name).1) (v.ensureRecord name).2
  rw [v.thread_ensureRecord] at hrest
  exact hrest hv

/-- Whatever leaves the scopes alone may be done. -/
theorem keepsScopes_own {f : RunLocal → RunLocal} {next : RunLocal → Script α}
    (hf : ∀ own, (f own).thread.context.depth = own.thread.context.depth ∧
      (f own).thread.context.current = own.thread.context.current)
    (h : ∀ own, (next own).KeepsScopes name) : (own f next).KeepsScopes name := by
  intro v hv
  obtain ⟨hdepth, hcurrent⟩ := hf (.of v)
  have hv' : 0 < (f (.of v)).thread.context.depth := Nat.lt_of_lt_of_eq hv hdepth.symm
  obtain ⟨hdepth', hcurrent'⟩ := h (f (.of v)) ((f (.of v)).view v) hv'
  exact ⟨hdepth'.trans hdepth, hcurrent'.trans hcurrent⟩

/-- Closes a scope at every end of a body. -/
def closing : Script α → Script α
  | .done e => .own .closeScope fun _ => .done e
  | .change op next => .change op fun answer => (next answer).closing
  | .read next => .read fun r => (next r).closing
  | .own f next => .own f fun own => (next own).closing

/-- A body within a guard: a scope is opened before it and closed at every end of it. -/
def guarded (supplied : Option String) (script : Script α) : Script α :=
  .own (.openScope supplied) fun _ => script.closing

theorem play_closing (script : Script α) (v : Supervisor) :
    script.closing.play name v = ((script.play name v).1, (script.play name v).2.exitScope.2) := by
  induction script generalizing v with
  | done e => rfl
  | change op next ih => exact ih _ _
  | read next ih => exact ih _ _
  | own f next ih => exact ih _ _

/-- **A guard keeps the scopes**, if the body within it does. -/
theorem KeepsScopes.guarded (h : script.KeepsScopes name) (supplied : Option String) :
    (script.guarded supplied).KeepsScopes name := by
  intro v hv
  let inner : Supervisor := (RunLocal.openScope supplied (.of v)).view v
  have hview : ((RunLocal.of v).view .initial).thread = v.thread := rfl
  have hdepth : inner.thread.context.depth = v.thread.context.depth + 1 :=
    ((RunLocal.of v).view .initial).depth_enterScope supplied
  have hcurrent : inner.thread.context.current = v.thread.context.current :=
    Supervisor.current_enterScope_inner (s := (RunLocal.of v).view .initial)
      (Nat.ne_of_gt hv) supplied
  obtain ⟨hdepth', hcurrent'⟩ := h inner (by omega)
  have hplay : (script.guarded supplied).play name v = script.closing.play name inner := rfl
  have hne : (script.play name inner).2.thread.context.depth ≠ 1 := by omega
  rw [hplay, play_closing]
  refine ⟨?_, ?_⟩
  · change (script.play name inner).2.exitScope.2.thread.context.depth = _
    rw [Supervisor.depth_exitScope, hdepth', hdepth, Nat.add_sub_cancel]
  · change (script.play name inner).2.exitScope.2.thread.context.current = _
    rw [Supervisor.current_exitScope_inner hne, hcurrent', hcurrent]

end Script

namespace Worker

variable {α : Type} {w : Worker α} {s : Supervisor}

/-- The number of open scopes and the identifier in effect. -/
def scopes (w : Worker α) : Nat × Option String :=
  (w.own.thread.context.depth, w.own.thread.context.current)

/-- The body leaves as many open scopes as it found, and the identifier that was in effect. -/
def LeavesScopes (w : Worker α) (s : Supervisor) : Prop :=
  let found := (Run.begin w.job (w.own.view s)).2
  let left := (w.script.play w.job.name found).2
  left.thread.context.depth = found.thread.context.depth ∧
    left.thread.context.current = found.thread.context.current

/-- A body that keeps its scopes wherever it begins keeps them in its run. -/
theorem leavesScopes_of_keepsScopes (h : w.script.KeepsScopes w.job.name) (s : Supervisor) :
    w.LeavesScopes s := by
  refine h _ ?_
  rw [Run.depth_begin]
  exact Nat.succ_pos _

/-- An identifier is in effect only while a scope is open. -/
def Tidy (w : Worker α) : Prop :=
  w.own.thread.context.depth = 0 → w.own.thread.context.current = none

/-- **A run closes the scope that it opened**, so that its thread is left as it was before, if the
body leaves the scopes as it found them. -/
theorem LeavesScopes.settle {β : Type} (h : w.LeavesScopes s) (htidy : w.Tidy) (r : Run)
    (e : Ending β) :
    let left := (w.script.play w.job.name (Run.begin w.job (w.own.view s)).2).2
    ((r.settle e left).2.thread.context.depth, (r.settle e left).2.thread.context.current) =
      w.scopes := by
  intro left
  obtain ⟨hdepth, hcurrent⟩ := h
  have hfound := Run.depth_begin w.job (w.own.view s)
  have hleft : left.thread.context.depth = w.own.thread.context.depth + 1 := hdepth.trans hfound
  rw [Run.context_settle, scopes]
  refine Prod.ext ?_ ?_
  · change left.exitScope.2.thread.context.depth = _
    rw [left.depth_exitScope, hleft, Nat.add_sub_cancel]
  · change left.exitScope.2.thread.context.current = _
    by_cases hzero : w.own.thread.context.depth = 0
    · have hone : left.thread.context.depth = 1 := by rw [hleft, hzero]
      rw [Supervisor.current_exitScope_outermost hone, htidy hzero]
    · have hne : left.thread.context.depth ≠ 1 := by omega
      rw [Supervisor.current_exitScope_inner hne]
      exact hcurrent.trans (Run.current_begin_inner w.job hzero)

end Worker

namespace Crew

variable {α : Type} {c : Crew α} {w : Worker α} {i : Nat}

theorem sound_of_fresh (hreachable : c.supervisor.registry.Reachable)
    (hfresh : ∀ w ∈ c.workers, w.stage = .fresh)
    (hdistinct : (c.workers.map fun w => w.job.name).Nodup) : c.Sound := by
  refine ⟨hreachable, fun w hw id hid => ?_, hdistinct⟩
  rw [hfresh w hw] at hid
  contradiction

/-- Two orders of the steps in which all runs come to their ends leave the same. -/
theorem Sound.outcome_eq (hc : c.Sound) {schedule schedule' : List Nat}
    (hover : (c.run schedule).Over) (hover' : (c.run schedule').Over) :
    (∀ name, (c.run schedule).supervisor.footprint name =
        (c.run schedule').supervisor.footprint name) ∧
      (c.run schedule).workers.map (·.value?) = (c.run schedule').workers.map (·.value?) := by
  have hsame {i : Nat} {w : Worker α} (hi : c.workers[i]? = some w) :
      ∃ a b, (c.run schedule).workers[i]? = some a ∧ (c.run schedule').workers[i]? = some b ∧
        a.value? = b.value? ∧ a.own = b.own ∧
        (c.run schedule).supervisor.footprint w.job.name =
          (c.run schedule').supervisor.footprint w.job.name := by
    obtain ⟨a, ha⟩ := exists_getElem?_run hi schedule
    obtain ⟨b, hb⟩ := exists_getElem?_run hi schedule'
    exact ⟨a, b, ha, hb, hc.eq_of_returned hi ha hb
      (Stage.eq_returned (hover a (List.mem_of_getElem? ha)))
      (Stage.eq_returned (hover' b (List.mem_of_getElem? hb)))⟩
  constructor
  · intro name
    by_cases hname : ∃ w ∈ c.workers, w.job.name = name
    · obtain ⟨w, hw, rfl⟩ := hname
      obtain ⟨i, hi⟩ := List.mem_iff_getElem?.1 hw
      obtain ⟨a, b, -, -, -, -, hfoot⟩ := hsame hi
      exact hfoot
    · have hnone : ∀ w ∈ c.workers, w.job.name ≠ name := fun w hw heq => hname ⟨w, hw, heq⟩
      rw [hc.footprint_run hnone, hc.footprint_run hnone]
  · refine List.ext_getElem? fun i => ?_
    rw [List.getElem?_map, List.getElem?_map]
    cases hi : c.workers[i]? with
    | some w =>
        obtain ⟨a, b, ha, hb, hvalue, -, -⟩ := hsame hi
        rw [ha, hb, Option.map_some, Option.map_some, hvalue]
    | none =>
        have hlength := List.getElem?_eq_none_iff.1 hi
        rw [List.getElem?_eq_none (by rwa [length_run]),
          List.getElem?_eq_none (by rwa [length_run])]

/-- A worker whose body leaves the scopes as it found them ends with those with which it began. -/
theorem Sound.scopes_eq (hc : c.Sound) (hi : c.workers[i]? = some w) (hfresh : w.stage = .fresh)
    (hleaves : w.LeavesScopes c.supervisor) (htidy : w.Tidy) {schedule : List Nat} {a : Worker α}
    (ha : (c.run schedule).workers[i]? = some a) (hover : a.stage = .returned) :
    a.scopes = w.scopes := by
  obtain ⟨n, hn⟩ := Worker.exists_steps_of_fresh hfresh c.supervisor
  have hrun := run_replicate hi n
  rw [hn] at hrun
  have hb := getElem?_set_self hi (w.steps n c.supervisor).1
  rw [hn] at hb
  have hb' : (c.run (List.replicate n i)).workers[i]? = _ :=
    (congrArg (fun c : Crew α => c.workers[i]?) hrun).trans hb
  obtain ⟨-, hown, -⟩ := hc.eq_of_returned hi ha hb' hover rfl
  rw [Worker.scopes, hown]
  exact hleaves.settle htidy _ _

/-- **Runs of distinct jobs are independent.**  Workers make runs of jobs with distinct names, from
any state of the registry.  Once every worker has taken enough steps, all runs are over; and in
whichever order the steps came, names, records, report, returned values and metrics are those of
the runs made one after the other in any order, and every thread whose body leaves the scopes as
it found them ends with the scopes with which it began. -/
theorem independent (hreachable : c.supervisor.registry.Reachable)
    (hfresh : ∀ w ∈ c.workers, w.stage = .fresh)
    (hdistinct : (c.workers.map fun w => w.job.name).Nodup) :
    (∃ n, ∀ schedule : List Nat, (∀ i < c.workers.length, n ≤ schedule.count i) →
      (c.run schedule).Over) ∧
    ∀ schedule, (c.run schedule).Over →
      ∀ order : List Nat, order.Perm (List.range c.workers.length) →
        let a := c.run schedule
        let b := c.oneByOne order
        a.supervisor.registry.names = b.supervisor.registry.names ∧
          (∀ name, a.supervisor.registry.recordOf? name = b.supervisor.registry.recordOf? name) ∧
          a.supervisor.report = b.supervisor.report ∧
          a.workers.map (·.value?) = b.workers.map (·.value?) ∧
          a.supervisor.metrics = b.supervisor.metrics ∧
          ∀ (i : Nat) (w w' : Worker α), c.workers[i]? = some w → w.LeavesScopes c.supervisor →
            w.Tidy → a.workers[i]? = some w' → w'.scopes = w.scopes := by
  have hc := sound_of_fresh hreachable hfresh hdistinct
  refine ⟨hc.exists_bound_over hfresh, fun schedule hover order horder => ?_⟩
  have hnodup : order.Nodup := horder.nodup_iff.2 List.nodup_range
  have hget {i : Nat} (hi : i ∈ order) : ∃ w, c.workers[i]? = some w ∧ w.stage = .fresh := by
    have hlt : i < c.workers.length := List.mem_range.1 (horder.mem_iff.1 hi)
    exact ⟨_, List.getElem?_eq_getElem hlt, hfresh _ (List.getElem_mem _)⟩
  -- One after the other is one of the orders of the steps.
  obtain ⟨schedule', hschedule'⟩ := exists_run_eq_oneByOne hnodup fun i hi => hget hi
  have hover' : (c.run schedule').Over := by
    intro b hb
    obtain ⟨i, hi⟩ := List.mem_iff_getElem?.1 hb
    have hmem : i ∈ order :=
      horder.mem_iff.2 (List.mem_range.2 (lt_length_of_getElem?_run hi))
    obtain ⟨w, hw, -⟩ := hget hmem
    obtain ⟨b', hb', hreturned⟩ := exists_getElem?_oneByOne hnodup hmem hw
    rw [← hschedule'] at hb'
    obtain rfl := Option.some.inj (hi.symm.trans hb')
    rw [hreturned]
    rfl
  obtain ⟨hfoot, hvalues⟩ := hc.outcome_eq hover hover'
  obtain ⟨hnames, hrecords, hreport, hmetrics⟩ := Supervisor.shared_of_footprint hfoot
  rw [hschedule'] at hnames hrecords hreport hmetrics hvalues
  refine ⟨hnames, hrecords, hreport, hvalues, hmetrics, fun i w w' hi hleaves htidy hw' => ?_⟩
  exact hc.scopes_eq hi (hfresh w (List.mem_of_getElem? hi)) hleaves htidy hw'
    (Stage.eq_returned (hover w' (List.mem_of_getElem? hw')))

/-- A body that looks at its record, notes what it did, marks the record and succeeds, all of it
within a guard of its own. -/
def partialBatch : Script String :=
  .guarded (some "batch-7") <| .read fun _ =>
    .own (.put ⟨"rows", by decide⟩ "3") fun _ =>
      .change (.markUnhealthy (some "partial batch")) fun _ => .done (.value "3")

theorem keepsScopes_partialBatch (name : String) : partialBatch.KeepsScopes name := by
  refine Script.KeepsScopes.guarded (Script.keepsScopes_read fun _ => ?_) (some "batch-7")
  refine Script.keepsScopes_own (fun own => ⟨rfl, ?_⟩) fun _ => ?_
  · exact Context.current_put own.thread.context _ "3"
  · exact Script.keepsScopes_change fun _ => Script.keepsScopes_done (.value "3")

/-- A run that fails, and a run that marks its record within a guard and succeeds. -/
def failsBesideMarks : Crew String :=
  let own : RunLocal := .of .initial
  ⟨.initial, [
    ⟨⟨"nightly", .ofSecs 60⟩, own, .fresh, .done (.error "disk full"), none⟩,
    ⟨⟨"hourly", .ofSecs 60⟩, own, .fresh, partialBatch, none⟩]⟩

theorem independent_failsBesideMarks :
    let c := failsBesideMarks
    let a := c.run (List.replicate 18 [0, 1]).flatten
    let b := c.oneByOne [1, 0]
    (∀ w ∈ c.workers, w.stage = .fresh) ∧ (c.workers.map fun w => w.job.name).Nodup ∧ a.Over ∧
      a.supervisor.registry.names = b.supervisor.registry.names ∧
      a.supervisor.report = b.supervisor.report ∧ a.supervisor.metrics = b.supervisor.metrics ∧
      a.workers.map (·.value?) = b.workers.map (·.value?) ∧
      ∀ w' ∈ a.workers[1]?, w'.scopes = (0, none) := by
  have hfresh : ∀ w ∈ failsBesideMarks.workers, w.stage = .fresh := by
    simp [failsBesideMarks]
  have hdistinct : (failsBesideMarks.workers.map fun w => w.job.name).Nodup := by decide
  have hover : (failsBesideMarks.run (List.replicate 18 [0, 1]).flatten).Over := by decide
  obtain ⟨hnames, -, hreport, hvalues, hmetrics, hscopes⟩ :=
    (independent (c := failsBesideMarks) (Health.Registry.Leads.refl _) hfresh hdistinct).2 _
      hover [1, 0] (by decide)
  have hleaves (w : Worker String) (hw : failsBesideMarks.workers[1]? = some w) :
      w.LeavesScopes failsBesideMarks.supervisor := by
    obtain rfl := Option.some.inj hw
    exact Worker.leavesScopes_of_keepsScopes (keepsScopes_partialBatch "hourly") _
  refine ⟨hfresh, hdistinct, hover, hnames, hreport, hmetrics, hvalues, fun w' hw' => ?_⟩
  exact hscopes 1 _ w' rfl (hleaves _ rfl) (fun _ => rfl) hw'

/-- A run whose body opens a scope and does not close it, and a run on a thread on which an
identifier lies outside of every scope. -/
def leftOpenAndStale : Crew String :=
  let own : RunLocal := .of .initial
  let stale : Context := Context.initial.put Context.correlationKey "stale"
  ⟨.initial, [
    ⟨⟨"nightly", .ofSecs 60⟩, own, .fresh,
      .own (.openScope none) fun _ => .done (.value "1"), none⟩,
    ⟨⟨"hourly", .ofSecs 60⟩, { own with thread := ⟨stale, []⟩ }, .fresh, .done (.value "2"), none⟩]⟩

/-- Neither thread ends with the scopes with which it began: on the first one a scope is left
open, and on the second one the identifier is gone. -/
theorem scopes_leftOpenAndStale :
    let c := leftOpenAndStale
    let a := c.run (List.replicate 14 [0, 1]).flatten
    c.supervisor.registry.Reachable ∧ (∀ w ∈ c.workers, w.stage = .fresh) ∧
      (c.workers.map fun w => w.job.name).Nodup ∧ a.Over ∧
      ∀ i < 2, a.workers[i]?.map (·.scopes) ≠ c.workers[i]?.map (·.scopes) := by
  refine ⟨Health.Registry.Leads.refl _, ?_, by decide, by decide, by decide⟩
  simp [leftOpenAndStale]

end Crew

end JobSupervisor
