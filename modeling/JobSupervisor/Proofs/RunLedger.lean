import JobSupervisor.Proofs.RunFrame
import JobSupervisor.Proofs.RunSteps

/-!
# A ledger of runs and fires

Runs are started by callers and by fires that were granted a lease.  Each run takes its steps one
by one, and between two steps anything else can come: steps of other runs, further fires, changes
of records by bodies or by hand, and whatever leaves records and metrics alone.  The ledger keeps
beside the supervisor what no part of it knows: every run that was ever started, every fire with
the answer of its lock, and where each change of health came from.

What counts as a change of health is a parameter.  It is only asked that an operation counts that
makes a healthy record unhealthy or the other way round.

## Main definitions

* `ChangeNotion` — what counts as a change of health.
* `StartedRun`, `RunLedger` — the runs, the fires and the changes so far.
* `LedgerMove`, `RunLedger.step`, `RunLedger.run` — what can happen.
* `Enacts` — undisturbed moves do to the supervisor what a function does.
* `Enacts.supervise`, `Enacts.fire` — whole runs around bodies, and whole fires, are such moves.
-/

namespace JobSupervisor

open Health (RecordId Operation)

/-- What counts as a change of health: at least what turns the health of a record. -/
structure ChangeNotion where
  counts : Health.Record → Operation → Bool
  turns : ∀ r op, (op.apply r).isHealthy ≠ r.isHealthy → counts r op = true

/-- Something that leaves records and metrics alone. -/
structure Neutral where
  act : Supervisor → Supervisor
  registry : ∀ s, (act s).registry = s.registry
  metrics : ∀ s, (act s).metrics = s.metrics

namespace Stage

/-- The run is counted in the metrics. -/
def isCounted : Stage → Bool
  | .counted _ | .seen _ _ | .shown | .returned => true
  | _ => false

/-- The health that the run has read and not shown yet. -/
def reading? : Stage → Option Bool
  | .seen _ healthy => some healthy
  | _ => none

/-- The health was shown. -/
def hasShown : Stage → Bool
  | .shown | .returned => true
  | _ => false

/-- The record of the run while its body is in progress. -/
def body? : Stage → Option RecordId
  | .running r => some r.record
  | _ => none

end Stage

/-- A run that was started, by a fire or by a caller, and whether no other run of the job was in
progress at any time since. -/
structure StartedRun where
  job : Descriptor
  scheduled : Bool
  alone : Bool
  stage : Stage

/-- A run of some job name is in progress. -/
def StartedRun.isBusy (name : String) (r : StartedRun) : Bool :=
  !r.stage.isReturned && r.job.name = name

/-- A run that is in progress when another run of its job starts is no longer alone. -/
def StartedRun.join (name : String) (r : StartedRun) : StartedRun :=
  { r with alone := r.alone && !r.isBusy name }

/-- Where a change of health came from: a step or the body of a run, or something else. -/
inductive ChangeSource where
  | run (i : Nat)
  | other
  deriving DecidableEq

/-- The supervisor, the runs in the order of their start, the fires with the answers of their
locks, and the changes of health with their sources; of fires and changes the last comes first. -/
structure RunLedger where
  supervisor : Supervisor
  runs : List StartedRun
  fires : List (String × LockAnswer)
  changes : List (RecordId × ChangeSource)

/-- What can happen next. -/
inductive LedgerMove where
  | begin (job : Descriptor)
  | fire (policy : LockPolicy) (lease : Duration) (job : Descriptor)
  | advance (i : Nat)
  /-- The body of a run ends, with the text of its failure if it failed. -/
  | finish (i : Nat) (failure : Option String)
  /-- A record is changed, by the body of a run on its own record or by something else. -/
  | change (author? : Option Nat) (id : RecordId) (op : Operation)
  | create (name : String)
  | allocate
  | aside (n : Neutral)

namespace RunLedger

/-- The ledger before anything was started. -/
def initial (s : Supervisor) : RunLedger := ⟨s, [], [], []⟩

/-- Where the last change of health of a record came from. -/
def lastChange? (l : RunLedger) (id : RecordId) : Option ChangeSource :=
  (l.changes.find? fun c => c.1 = id).map Prod.snd

/-- Starts a run. -/
def start (job : Descriptor) (scheduled : Bool) (l : RunLedger) : RunLedger :=
  let alone := !l.runs.any (·.isBusy job.name)
  { l with runs := l.runs.map (·.join job.name) ++ [⟨job, scheduled, alone, .fresh⟩] }

/-- Asks a lock as a fire does. -/
def ask (policy : LockPolicy) (lease : Duration) (name : String) (l : RunLedger) : RunLedger :=
  { l with
    supervisor := (Fire.request policy lease name l.supervisor).2
    fires := (name, (policy.tryAcquire name lease l.supervisor).1) :: l.fires }

/-- Asks a lock; if it grants a lease, a scheduled run starts. -/
def fire (policy : LockPolicy) (lease : Duration) (job : Descriptor) (l : RunLedger) :
    RunLedger :=
  match (policy.tryAcquire job.name lease l.supervisor).1 with
  | .granted _ => (l.ask policy lease job.name).start job true
  | .overflow | .denied => l.ask policy lease job.name

/-- Performs an operation on a record and notes it if it changes the health. -/
def change (N : ChangeNotion) (source : ChangeSource) (id : RecordId) (op : Operation)
    (l : RunLedger) : RunLedger :=
  { l with
    supervisor := l.supervisor.perform id op
    changes := if N.counts (l.supervisor.record id) op then (id, source) :: l.changes
      else l.changes }

/-- Notes what the next step of a run does to its record. -/
def note (N : ChangeNotion) (i : Nat) (r : StartedRun) (l : RunLedger) : RunLedger :=
  match r.stage.change? r.job l.supervisor with
  | some (id, op) => l.change N (.run i) id op
  | none => l

/-- The next step of a run. -/
def advance (N : ChangeNotion) (i : Nat) (r : StartedRun) (l : RunLedger) : RunLedger :=
  let next := r.stage.advance r.job l.supervisor
  { l.note N i r with supervisor := next.2, runs := l.runs.set i { r with stage := next.1 } }

/-- The source of a change: the run that is named as its author, if its body is in progress and
the record is its own. -/
def sourceOf (author? : Option Nat) (id : RecordId) (l : RunLedger) : ChangeSource :=
  match author? with
  | some i =>
      if (l.runs[i]?.bind fun r => r.stage.body?) = some id then .run i else .other
  | none => .other

/-- The ledger after something happened. -/
def step (N : ChangeNotion) (m : LedgerMove) (l : RunLedger) : RunLedger :=
  match m with
  | .begin job => l.start job false
  | .fire policy lease job => l.fire policy lease job
  | .advance i =>
      match l.runs[i]? with
      | some r => l.advance N i r
      | none => l
  | .finish i failure =>
      match l.runs[i]? with
      | some ⟨job, scheduled, alone, .running r⟩ =>
          { l with runs := l.runs.set i ⟨job, scheduled, alone, .ended r failure⟩ }
      | _ => l
  | .change author? id op => l.change N (l.sourceOf author? id) id op
  | .create name => { l with supervisor := (l.supervisor.ensureRecord name).2 }
  | .allocate =>
      { l with supervisor := { l.supervisor with registry := l.supervisor.registry.allocate.2 } }
  | .aside n => { l with supervisor := n.act l.supervisor }

/-- The ledger after some things happened, one after the other. -/
def run (N : ChangeNotion) (moves : List LedgerMove) (l : RunLedger) : RunLedger :=
  moves.foldl (fun l m => l.step N m) l

@[simp] theorem run_nil (N : ChangeNotion) (l : RunLedger) : l.run N [] = l := rfl

@[simp] theorem run_cons (N : ChangeNotion) (m : LedgerMove) (moves : List LedgerMove)
    (l : RunLedger) : l.run N (m :: moves) = (l.step N m).run N moves := rfl

theorem run_append (N : ChangeNotion) (moves moves' : List LedgerMove) (l : RunLedger) :
    l.run N (moves ++ moves') = (l.run N moves).run N moves' :=
  List.foldl_append

/-! ## Undisturbed moves -/

/-- How far the runs are, in the order of their start. -/
def stages (l : RunLedger) : List (Descriptor × Stage) := l.runs.map fun r => (r.job, r.stage)

theorem stages_start (l : RunLedger) (job : Descriptor) (scheduled : Bool) :
    (l.start job scheduled).stages = l.stages ++ [(job, .fresh)] := by
  simp only [stages, start, List.map_append, List.map_map, List.map_cons, List.map_nil]
  rfl

variable {N : ChangeNotion} {l : RunLedger} {older newer : List (Descriptor × Stage)}
  {job : Descriptor} {stage : Stage}

/-- The run behind `older` in the order of the start. -/
theorem exists_run_of_stages (h : l.stages = older ++ (job, stage) :: newer) :
    ∃ r, l.runs[older.length]? = some r ∧ r.job = job ∧ r.stage = stage := by
  have hget : l.stages[older.length]? = some (job, stage) := by simp [h]
  rw [stages, List.getElem?_map, Option.map_eq_some_iff] at hget
  obtain ⟨r, hr, heq⟩ := hget
  exact ⟨r, hr, congrArg Prod.fst heq, congrArg Prod.snd heq⟩

theorem stages_set (h : l.stages = older ++ (job, stage) :: newer) (r : StartedRun) :
    (l.runs.set older.length r).map (fun r => (r.job, r.stage)) =
      older ++ (r.job, r.stage) :: newer := by
  rw [List.map_set]
  change l.stages.set older.length (r.job, r.stage) = _
  rw [h, List.set_append_right _ _ (Nat.le_refl _), Nat.sub_self, List.set_cons_zero]

theorem step_advance_of_stages (h : l.stages = older ++ (job, stage) :: newer) :
    (l.step N (.advance older.length)).supervisor = (stage.advance job l.supervisor).2 ∧
      (l.step N (.advance older.length)).stages =
        older ++ (job, (stage.advance job l.supervisor).1) :: newer := by
  obtain ⟨r, hr, rfl, rfl⟩ := exists_run_of_stages h
  have hstep : l.step N (.advance older.length) = l.advance N older.length r := by
    simp only [step, hr]
  rw [hstep]
  exact ⟨rfl, stages_set h _⟩

/-- Undisturbed, a run takes the steps of its stages. -/
theorem run_advance_of_stages (n : Nat) (h : l.stages = older ++ (job, stage) :: newer) :
    let l' := l.run N (List.replicate n (.advance older.length))
    l'.supervisor = (Stage.iterate job n stage l.supervisor).2 ∧
      l'.stages = older ++ (job, (Stage.iterate job n stage l.supervisor).1) :: newer := by
  induction n generalizing l stage with
  | zero => exact ⟨rfl, h⟩
  | succ n ih =>
      obtain ⟨hsupervisor, hstages⟩ := step_advance_of_stages (N := N) h
      have hrest := ih hstages
      rw [hsupervisor] at hrest
      exact hrest

theorem step_finish_of_stages {r : Run} (h : l.stages = older ++ (job, .running r) :: newer)
    (failure : Option String) :
    (l.step N (.finish older.length failure)).supervisor = l.supervisor ∧
      (l.step N (.finish older.length failure)).stages =
        older ++ (job, .ended r failure) :: newer := by
  obtain ⟨⟨job', scheduled, alone, stage'⟩, hr, hjob, hstage⟩ := exists_run_of_stages h
  obtain rfl : job' = job := hjob
  obtain rfl : stage' = .running r := hstage
  have hstep : l.step N (.finish older.length failure) =
      { l with runs := l.runs.set older.length ⟨job', scheduled, alone, .ended r failure⟩ } := by
    simp only [step, hr]
  rw [hstep]
  exact ⟨rfl, stages_set h _⟩

end RunLedger

/-- Some moves do to the supervisor what a function does, disturb no run in progress, and leave
no run unfinished. -/
def Enacts (N : ChangeNotion) (f : Supervisor → Supervisor) : Prop :=
  ∀ l : RunLedger, ∃ moves newer, (l.run N moves).supervisor = f l.supervisor ∧
    (l.run N moves).stages = l.stages ++ newer ∧ ∀ e ∈ newer, e.2 = .returned

namespace Enacts

open RunLedger

variable {N : ChangeNotion} {f g : Supervisor → Supervisor}

theorem of_move (m : LedgerMove) (hf : ∀ l : RunLedger, (l.step N m).supervisor = f l.supervisor)
    (hruns : ∀ l : RunLedger, (l.step N m).runs = l.runs) : Enacts N f := by
  intro l
  refine ⟨[m], [], hf l, ?_, by simp⟩
  rw [run_cons, run_nil, stages, hruns, List.append_nil]
  rfl

theorem neutral (n : Neutral) : Enacts N n.act :=
  of_move (.aside n) (fun _ => rfl) fun _ => rfl

/-- A change by hand. -/
theorem perform (id : RecordId) (op : Operation) : Enacts N (·.perform id op) :=
  of_move (.change none id op) (fun _ => rfl) fun _ => rfl

theorem ensureRecord (name : String) : Enacts N fun s => (s.ensureRecord name).2 :=
  of_move (.create name) (fun _ => rfl) fun _ => rfl

theorem allocate : Enacts N fun s => { s with registry := s.registry.allocate.2 } :=
  of_move .allocate (fun _ => rfl) fun _ => rfl

theorem comp (hg : Enacts N g) (hf : Enacts N f) : Enacts N fun s => g (f s) := by
  intro l
  obtain ⟨moves, newer, hmoves, hstages, hended⟩ := hf l
  obtain ⟨moves', newer', hmoves', hstages', hended'⟩ := hg (l.run N moves)
  refine ⟨moves ++ moves', newer ++ newer', ?_, ?_, ?_⟩
  · rw [run_append, hmoves', hmoves]
  · rw [run_append, hstages', hstages, List.append_assoc]
  · intro e he
    rcases List.mem_append.1 he with he | he
    · exact hended e he
    · exact hended' e he

/-- The moves of a run that was started, from its first step to its last. -/
theorem exists_moves_of_fresh {α : Type} {body : Supervisor → Ending α × Supervisor}
    (hbody : Enacts N fun s => (body s).2) {l : RunLedger}
    {older : List (Descriptor × Stage)} {job : Descriptor}
    (h : l.stages = older ++ [(job, .fresh)]) :
    ∃ moves newer,
      (l.run N moves).supervisor =
        (JobSupervisor.supervise id (fun s _ => s) job body l.supervisor).2 ∧
      (l.run N moves).stages = older ++ newer ∧ ∀ e ∈ newer, e.2 = .returned := by
  let r := (Run.begin job l.supervisor).1
  let e := (body (Run.begin job l.supervisor).2).1
  -- The steps in front of the body.
  obtain ⟨n, hn⟩ := Stage.iterate_begin job l.supervisor
  obtain ⟨hfront, hfrontStages⟩ := run_advance_of_stages (N := N) n h
  rw [hn] at hfront hfrontStages
  let entered := l.run N (List.replicate n (.advance older.length))
  -- The body.
  obtain ⟨inner, newer, hinner, hinnerStages, hended⟩ := hbody entered
  rw [hfrontStages, List.append_assoc, List.singleton_append] at hinnerStages
  let left := entered.run N inner
  have hleft : left.supervisor = (body (Run.begin job l.supervisor).2).2 := by
    rw [hinner, hfront]
  -- The steps behind it.
  obtain ⟨hfinish, hfinishStages⟩ := step_finish_of_stages (N := N) hinnerStages e.failure?
  obtain ⟨hback, hbackStages⟩ := run_advance_of_stages (N := N) 7 hfinishStages
  have hsettle : Stage.iterate job 7 (.ended r e.failure?) left.supervisor =
      (.returned, (r.settle e left.supervisor).2) := Stage.iterate_settle r e left.supervisor
  rw [hfinish, hsettle] at hback hbackStages
  refine ⟨List.replicate n (.advance older.length) ++ (inner ++
    .finish older.length e.failure? :: List.replicate 7 (.advance older.length)),
    (job, .returned) :: newer, ?_, ?_, ?_⟩
  · rw [run_append, run_append, run_cons, hback, hleft]
    rfl
  · rw [run_append, run_append, run_cons, hbackStages]
  · intro x hx
    rcases List.mem_cons.1 hx with rfl | hx
    · rfl
    · exact hended x hx

/-- **A whole run around a body consists of moves**, however the body ends, and whatever it does
itself: it may change records, make runs and fire jobs. -/
theorem supervise {α : Type} {body : Supervisor → Ending α × Supervisor}
    (hbody : Enacts N fun s => (body s).2) (job : Descriptor) :
    Enacts N fun s => (JobSupervisor.supervise id (fun s _ => s) job body s).2 := by
  intro l
  have hstart := l.stages_start job false
  obtain ⟨moves, newer, hmoves, hstages, hended⟩ := exists_moves_of_fresh hbody hstart
  exact ⟨.begin job :: moves, newer, hmoves, hstages, hended⟩

/-- What a worker does under a granted lease, from the first step of its run to the last. -/
theorem exists_moves_of_granted {β : Type} {body : β → Supervisor → Ending Unit × Supervisor}
    (hbody : ∀ b, Enacts N fun s => (body b s).2) (job : ScheduledJob β) (lease : Lease)
    {l : RunLedger} {older : List (Descriptor × Stage)}
    (h : l.stages = older ++ [(job.descriptor, .fresh)]) :
    ∃ moves newer,
      (l.run N moves).supervisor =
        Fire.complete id (fun s _ => s) job lease body l.supervisor ∧
      (l.run N moves).stages = older ++ newer ∧ ∀ e ∈ newer, e.2 = .returned := by
  let swap : Neutral := ⟨Supervisor.swapThreads, fun _ => rfl, fun _ => rfl⟩
  let giveBack : Neutral := ⟨(·.giveBack lease), fun _ => rfl, fun _ => rfl⟩
  let abort : Neutral :=
    ⟨(·.emit (.taskAborted job.descriptor.name Fire.abortText)), fun _ => rfl, fun _ => rfl⟩
  obtain ⟨moves, newer, hmoves, hstages, hended⟩ :=
    exists_moves_of_fresh (l := l.step N (.aside swap)) (hbody job.body) h
  -- Behind the run nothing else happens than what leaves records and metrics alone.
  refine ⟨.aside swap :: moves ++ (.aside giveBack :: .aside swap ::
    if lease.returnFails then [.aside abort] else []), newer, ?_, ?_, hended⟩
  · rw [run_append, run_cons, run_cons, run_cons]
    by_cases hfails : lease.returnFails = true
    · simp only [hfails, if_true, Fire.complete, run_cons, run_nil]
      exact congrArg (fun s : Supervisor => abort.act (s.giveBack lease).swapThreads) hmoves
    · simp only [hfails, Fire.complete]
      exact congrArg (fun s : Supervisor => (s.giveBack lease).swapThreads) hmoves
  · rw [run_append, run_cons, run_cons, run_cons]
    by_cases hfails : lease.returnFails = true
    · rw [if_pos hfails]
      exact hstages
    · rw [if_neg hfails]
      exact hstages

/-- **A whole fire consists of moves**, whatever its lock answers. -/
theorem fire {β : Type} {body : β → Supervisor → Ending Unit × Supervisor}
    (hbody : ∀ b, Enacts N fun s => (body b s).2) (policy : LockPolicy) (lease : Duration)
    (job : ScheduledJob β) :
    Enacts N fun s => (Fire.fire id (fun s _ => s) policy lease job body s).2 := by
  intro l
  let m : LedgerMove := .fire policy lease job.descriptor
  rcases hanswer : policy.tryAcquire job.descriptor.name lease l.supervisor with ⟨answer, s⟩
  cases answer with
  | overflow =>
      refine ⟨[m], [], ?_, ?_, by simp⟩
      · simp [m, step, RunLedger.fire, ask, Fire.fire, Fire.request, hanswer]
      · simp [m, step, RunLedger.fire, ask, hanswer, stages]
  | denied =>
      refine ⟨[m], [], ?_, ?_, by simp⟩
      · simp [m, step, RunLedger.fire, ask, Fire.fire, Fire.request, hanswer]
      · simp [m, step, RunLedger.fire, ask, hanswer, stages]
  | granted granted =>
      have hfired : l.step N m =
          { l with
            supervisor := s
            fires := (job.descriptor.name, .granted granted) :: l.fires }.start
              job.descriptor true := by
        simp only [m, step, RunLedger.fire, ask, hanswer, Fire.request]
      have hstart : (l.step N m).stages = l.stages ++ [(job.descriptor, .fresh)] := by
        rw [hfired, stages_start]
        rfl
      obtain ⟨moves, newer, hmoves, hstages, hended⟩ :=
        exists_moves_of_granted hbody job granted hstart
      refine ⟨m :: moves, newer, ?_, hstages, hended⟩
      rw [run_cons, hmoves, hfired]
      simp only [Fire.fire, Fire.request, hanswer, id_eq]
      rfl

end Enacts

end JobSupervisor
