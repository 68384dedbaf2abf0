import JobSupervisor.Proofs.RunSteps

/-!
# Runs on separate threads

Each of several workers makes one run of a job of its own on a thread of its own.  They share the
registry and the metrics, and take their steps in any order.  What the body of a run does is given
as a script: it may change and read the record of its job and do anything on its own thread, and
what it does next may depend on everything that it has seen.

The time that passes for a run and the identifiers that it draws are its own.  They come from a
clock and from a random source, so that no run has a say in those of another one.

## Main definitions

* `RunLocal` — what a run has for itself.
* `Script`, `Script.play` — what a body does, and doing it without disturbance.
* `Worker`, `Crew`, `Crew.step`, `Crew.run` — workers that take steps in the order of a schedule.
* `Crew.whole`, `Crew.oneByOne` — whole runs, one after the other, as `supervise` makes them.
* `Crew.exists_run_eq_oneByOne` — one after the other is an order of the steps as well.
-/

namespace JobSupervisor

open Health (RecordId Operation)

/-- What a run has for itself: its thread, the time that passes for it, and its identifiers. -/
structure RunLocal where
  thread : Thread
  clock : Instant
  drawn : Nat

namespace RunLocal

/-- What the run that is in progress has for itself. -/
def of (s : Supervisor) : RunLocal := ⟨s.thread, s.clock, s.drawn⟩

/-- The supervisor as a run sees it. -/
def view (own : RunLocal) (s : Supervisor) : Supervisor :=
  { s with thread := own.thread, clock := own.clock, drawn := own.drawn }

@[simp] theorem view_of (s : Supervisor) : (of s).view s = s := rfl

@[simp] theorem of_view (own : RunLocal) (s : Supervisor) : of (own.view s) = own := rfl

@[simp] theorem view_view (own other : RunLocal) (s : Supervisor) :
    own.view (other.view s) = own.view s := rfl

end RunLocal

/-- What a body does. -/
inductive Script (α : Type) where
  | done (e : Ending α)
  /-- Asks the registry for the record of the job and changes it. -/
  | change (op : Operation) (next : Option Bool → Script α)
  /-- Asks the registry for the record of the job and reads it. -/
  | read (next : Health.Record → Script α)
  /-- Does something on its own thread, or lets time pass. -/
  | own (f : RunLocal → RunLocal) (next : RunLocal → Script α)

namespace Script

variable {α : Type} (name : String)

/-- The first thing that a body does. -/
def step : Script α → Supervisor → Script α × Supervisor
  | .done e, s => (.done e, s)
  | .change op next, s =>
      let (id, s) := s.ensureRecord name
      (next (op.answer? (s.record id)), s.perform id op)
  | .read next, s =>
      let (id, s) := s.ensureRecord name
      (next (s.record id), s)
  | .own f next, s =>
      let own := f (.of s)
      (next own, own.view s)

/-- Everything that a body does. -/
def play : Script α → Supervisor → Ending α × Supervisor
  | .done e, s => (e, s)
  | .change op next, s =>
      let (id, s) := s.ensureRecord name
      play (next (op.answer? (s.record id))) (s.perform id op)
  | .read next, s =>
      let (id, s) := s.ensureRecord name
      play (next (s.record id)) s
  | .own f next, s =>
      let own := f (.of s)
      play (next own) (own.view s)

end Script

/-- A run on a thread of its own: how far it is, what is left of its body, and what it returns. -/
structure Worker (α : Type) where
  job : Descriptor
  own : RunLocal
  stage : Stage
  script : Script α
  value? : Option α

namespace Worker

variable {α : Type}

/-- The next step of a run, with the supervisor as the run sees it. -/
def advance (w : Worker α) (v : Supervisor) : Worker α × Supervisor :=
  match w.stage, w.script with
  | .running r, .done e => ({ w with stage := .ended r e.failure?, value? := e.value? }, v)
  | .running _, script =>
      let (script, v) := script.step w.job.name v
      ({ w with script := script }, v)
  | stage, _ =>
      let (stage, v) := stage.advance w.job v
      ({ w with stage := stage }, v)

/-- The next step of a run. -/
def step (w : Worker α) (s : Supervisor) : Worker α × Supervisor :=
  let (w, v) := w.advance (w.own.view s)
  ({ w with own := .of v }, (RunLocal.of s).view v)

end Worker

/-- Workers that share a supervisor. -/
structure Crew (α : Type) where
  supervisor : Supervisor
  workers : List (Worker α)

namespace Crew

variable {α : Type}

/-- A worker takes a step. -/
def step (i : Nat) (c : Crew α) : Crew α :=
  match c.workers[i]? with
  | some w =>
      let (w, s) := w.step c.supervisor
      ⟨s, c.workers.set i w⟩
  | none => c

/-- Workers take steps in the order of a schedule. -/
def run (schedule : List Nat) (c : Crew α) : Crew α := schedule.foldl (fun c i => c.step i) c

@[simp] theorem run_nil (c : Crew α) : c.run [] = c := rfl

@[simp] theorem run_cons (i : Nat) (schedule : List Nat) (c : Crew α) :
    c.run (i :: schedule) = (c.step i).run schedule := rfl

theorem run_append (schedule schedule' : List Nat) (c : Crew α) :
    c.run (schedule ++ schedule') = (c.run schedule).run schedule' :=
  List.foldl_append

/-- A worker makes its whole run, and nobody else does anything meanwhile. -/
def whole (i : Nat) (c : Crew α) : Crew α :=
  match c.workers[i]? with
  | some w =>
      let body (x : Supervisor × Script α) : Ending α × Supervisor × Script α :=
        let (e, v) := x.2.play w.job.name x.1
        (e, v, .done e)
      let (value, v, script) := supervise Prod.fst (fun v x => (v, x.2)) w.job body
        (w.own.view c.supervisor, w.script)
      ⟨(RunLocal.of c.supervisor).view v,
        c.workers.set i ⟨w.job, .of v, .returned, script, value⟩⟩
  | none => c

/-- Workers make their whole runs one after the other. -/
def oneByOne (order : List Nat) (c : Crew α) : Crew α := order.foldl (fun c i => c.whole i) c

end Crew

/-! ## Undisturbed steps -/

namespace Worker

variable {α : Type} {w : Worker α} {v : Supervisor}

/-- Several steps of a run, with the supervisor as the run sees it. -/
def advances : Nat → Worker α → Supervisor → Worker α × Supervisor
  | 0, w, v => (w, v)
  | n + 1, w, v => advances n (w.advance v).1 (w.advance v).2

theorem advances_add (m n : Nat) (w : Worker α) (v : Supervisor) :
    w.advances (m + n) v = (w.advances m v).1.advances n (w.advances m v).2 := by
  induction m generalizing w v with
  | zero => rw [Nat.zero_add]; rfl
  | succ m ih =>
      rw [Nat.succ_add]
      exact ih _ _

/-- What a run has for itself is put in place between its steps only. -/
theorem advance_own (w : Worker α) (own : RunLocal) (v : Supervisor) :
    ({ w with own := own } : Worker α).advance v =
      ({ (w.advance v).1 with own := own }, (w.advance v).2) := by
  simp only [advance]
  split
  · rfl
  · rfl
  · rfl

theorem advances_own (n : Nat) (w : Worker α) (own : RunLocal) (v : Supervisor) :
    ({ w with own := own } : Worker α).advances n v =
      ({ (w.advances n v).1 with own := own }, (w.advances n v).2) := by
  induction n generalizing w v with
  | zero => rfl
  | succ n ih =>
      simp only [advances, advance_own]
      exact ih _ _

theorem advance_running_done {r : Run} {e : Ending α} (hstage : w.stage = .running r)
    (hscript : w.script = .done e) :
    w.advance v = ({ w with stage := .ended r e.failure?, value? := e.value? }, v) := by
  simp only [advance, hstage, hscript]

theorem advance_running {r : Run} (hstage : w.stage = .running r)
    (hscript : ∀ e, w.script ≠ .done e) :
    w.advance v = ({ w with script := (w.script.step w.job.name v).1 },
      (w.script.step w.job.name v).2) := by
  cases h : w.script with
  | done e => exact absurd h (hscript e)
  | _ => simp only [advance, hstage, h]

theorem advance_of_not_running (hstage : ∀ r, w.stage ≠ .running r) :
    w.advance v = ({ w with stage := (w.stage.advance w.job v).1 },
      (w.stage.advance w.job v).2) := by
  cases h : w.stage with
  | running r => exact absurd h (hstage r)
  | _ => simp only [advance, h]

theorem iterate_running (job : Descriptor) (n : Nat) (r : Run) (v : Supervisor) :
    Stage.iterate job n (.running r) v = (.running r, v) := by
  induction n with
  | zero => rfl
  | succ n ih => exact ih

/-- A run takes the steps of its stages until its body is in progress. -/
theorem exists_advances_of_iterate {n : Nat} {stage : Stage} {v' : Supervisor}
    (h : Stage.iterate w.job n w.stage v = (stage, v')) :
    ∃ m, w.advances m v = ({ w with stage := stage }, v') := by
  induction n generalizing w v with
  | zero =>
      obtain ⟨rfl, rfl⟩ := Prod.mk.inj h
      exact ⟨0, rfl⟩
  | succ n ih =>
      by_cases hrunning : ∃ r, w.stage = .running r
      · obtain ⟨r, hr⟩ := hrunning
        rw [hr, iterate_running] at h
        obtain ⟨rfl, rfl⟩ := Prod.mk.inj h
        exact ⟨0, by rw [← hr]; rfl⟩
      · have hstep := advance_of_not_running (v := v) fun r hr => hrunning ⟨r, hr⟩
        obtain ⟨m, hm⟩ := ih (w := (w.advance v).1) (v := (w.advance v).2) (by rw [hstep]; exact h)
        refine ⟨m + 1, hm.trans ?_⟩
        rw [hstep]

/-- A body does everything that its script says. -/
theorem exists_advances_of_play {r : Run} (hstage : w.stage = .running r) :
    ∃ m, w.advances m v =
      ({ w with script := .done (w.script.play w.job.name v).1 },
        (w.script.play w.job.name v).2) := by
  obtain ⟨job, own, stage, script, value?⟩ := w
  obtain rfl : stage = .running r := hstage
  induction script generalizing v with
  | done e => exact ⟨0, rfl⟩
  | change op next ih =>
      obtain ⟨m, hm⟩ := ih (op.answer? ((v.ensureRecord job.name).2.record
        (v.ensureRecord job.name).1)) (v := (v.ensureRecord job.name).2.perform
          (v.ensureRecord job.name).1 op)
      exact ⟨m + 1, hm⟩
  | read next ih =>
      obtain ⟨m, hm⟩ := ih ((v.ensureRecord job.name).2.record (v.ensureRecord job.name).1)
        (v := (v.ensureRecord job.name).2)
      exact ⟨m + 1, hm⟩
  | own f next ih =>
      obtain ⟨m, hm⟩ := ih (f (.of v)) (v := (f (.of v)).view v)
      exact ⟨m + 1, hm⟩

theorem exists_advances_of_fresh (hfresh : w.stage = .fresh) :
    let (r, v₁) := Run.begin w.job v
    let (e, v₂) := w.script.play w.job.name v₁
    ∃ m, w.advances m v = ({ w with
      stage := .returned, script := .done e, value? := e.value? }, (r.settle e v₂).2) := by
  obtain ⟨job, own, stage, script, value?⟩ := w
  obtain rfl : stage = .fresh := hfresh
  obtain ⟨n, hn⟩ := Stage.iterate_begin job v
  obtain ⟨a, ha⟩ := exists_advances_of_iterate (w := ⟨job, own, .fresh, script, value?⟩) hn
  let r := (Run.begin job v).1
  let v₁ := (Run.begin job v).2
  let e := (script.play job.name v₁).1
  let v₂ := (script.play job.name v₁).2
  obtain ⟨b, hb⟩ := exists_advances_of_play (w := ⟨job, own, .running r, script, value?⟩)
    (v := v₁) rfl
  obtain ⟨d, hd⟩ := exists_advances_of_iterate
    (w := ⟨job, own, .ended r e.failure?, .done e, e.value?⟩) (Stage.iterate_settle r e v₂)
  refine ⟨a + (b + (1 + d)), ?_⟩
  rw [advances_add, ha, advances_add, hb, advances_add]
  exact hd

end Worker

namespace Worker

variable {α : Type} {w : Worker α} {s : Supervisor}

/-- Several steps of a run, and nobody else does anything meanwhile. -/
def steps : Nat → Worker α → Supervisor → Worker α × Supervisor
  | 0, w, s => (w, s)
  | n + 1, w, s => steps n (w.step s).1 (w.step s).2

theorem steps_add (m n : Nat) (w : Worker α) (s : Supervisor) :
    w.steps (m + n) s = (w.steps m s).1.steps n (w.steps m s).2 := by
  induction m generalizing w s with
  | zero => rw [Nat.zero_add]; rfl
  | succ m ih =>
      rw [Nat.succ_add]
      exact ih _ _

/-- Undisturbed, a run need not put anything in place between its steps. -/
theorem steps_eq (n : Nat) (w : Worker α) (s : Supervisor) :
    w.steps n s = ({ (w.advances n (w.own.view s)).1 with
      own := .of (w.advances n (w.own.view s)).2 },
      (RunLocal.of s).view (w.advances n (w.own.view s)).2) := by
  induction n generalizing w s with
  | zero => rfl
  | succ n ih =>
      rw [steps, ih]
      simp only [step, RunLocal.view_of, RunLocal.view_view, RunLocal.of_view, advances_own,
        advances]

/-- **Undisturbed, the steps of a worker are a whole run** around its script. -/
theorem exists_steps_of_fresh (hfresh : w.stage = .fresh) (s : Supervisor) :
    let (r, v₁) := Run.begin w.job (w.own.view s)
    let (e, v₂) := w.script.play w.job.name v₁
    let v₃ := (r.settle e v₂).2
    ∃ n, w.steps n s =
      (⟨w.job, .of v₃, .returned, .done e, e.value?⟩, (RunLocal.of s).view v₃) := by
  obtain ⟨n, hn⟩ := exists_advances_of_fresh (v := w.own.view s) hfresh
  exact ⟨n, by rw [steps_eq, hn]⟩

end Worker

namespace Crew

variable {α : Type} {c : Crew α} {w : Worker α} {i : Nat}

theorem step_of_getElem? (hi : c.workers[i]? = some w) :
    c.step i = ⟨(w.step c.supervisor).2, c.workers.set i (w.step c.supervisor).1⟩ := by
  simp only [step, hi]

theorem getElem?_set_self (hi : c.workers[i]? = some w) (w' : Worker α) :
    (c.workers.set i w')[i]? = some w' := by
  rw [List.getElem?_set_self (List.getElem?_eq_some_iff.1 hi).1]

theorem set_self (hi : c.workers[i]? = some w) : c.workers.set i w = c.workers := by
  refine List.ext_getElem? fun j => ?_
  by_cases hij : i = j
  · subst hij
    rw [getElem?_set_self hi, hi]
  · rw [List.getElem?_set_ne hij]

/-- A worker takes several steps, and nobody else does anything meanwhile. -/
theorem run_replicate (hi : c.workers[i]? = some w) (n : Nat) :
    c.run (List.replicate n i) =
      ⟨(w.steps n c.supervisor).2, c.workers.set i (w.steps n c.supervisor).1⟩ := by
  induction n generalizing c w with
  | zero => exact congrArg (Crew.mk c.supervisor) (set_self hi).symm
  | succ n ih =>
      have hstep := step_of_getElem? hi
      have hself := getElem?_set_self hi (w.step c.supervisor).1
      have hrest := ih (c := c.step i) (by rw [hstep]; exact hself)
      rw [List.replicate_succ, run_cons, hrest, hstep]
      simp only [List.set_set, Worker.steps]

/-- **A whole run is an order of steps as well**, in which nobody else takes any. -/
theorem exists_run_eq_whole (hi : c.workers[i]? = some w) (hfresh : w.stage = .fresh) :
    ∃ n, c.run (List.replicate n i) = c.whole i := by
  obtain ⟨n, hn⟩ := Worker.exists_steps_of_fresh hfresh c.supervisor
  refine ⟨n, ?_⟩
  rw [run_replicate hi, hn]
  simp only [whole, hi]
  rfl

theorem getElem?_whole_of_ne {j : Nat} (hij : i ≠ j) :
    (c.whole i).workers[j]? = c.workers[j]? := by
  simp only [whole]
  split
  · exact List.getElem?_set_ne hij
  · rfl

/-- **Whole runs one after the other are an order of steps as well.** -/
theorem exists_run_eq_oneByOne {order : List Nat} (hnodup : order.Nodup)
    (hfresh : ∀ i ∈ order, ∃ w, c.workers[i]? = some w ∧ w.stage = .fresh) :
    ∃ schedule, c.run schedule = c.oneByOne order := by
  induction order generalizing c with
  | nil => exact ⟨[], rfl⟩
  | cons i order ih =>
      obtain ⟨hnot, hnodup⟩ := List.nodup_cons.1 hnodup
      obtain ⟨w, hi, hw⟩ := hfresh i List.mem_cons_self
      obtain ⟨n, hn⟩ := exists_run_eq_whole hi hw
      obtain ⟨schedule, hschedule⟩ := ih (c := c.whole i) hnodup fun j hj => by
        obtain ⟨w', hj', hw'⟩ := hfresh j (List.mem_cons_of_mem _ hj)
        have hij : i ≠ j := fun heq => hnot (heq ▸ hj)
        exact ⟨w', (getElem?_whole_of_ne hij).trans hj', hw'⟩
      refine ⟨List.replicate n i ++ schedule, ?_⟩
      rw [run_append, hn, hschedule]
      rfl

end Crew

end JobSupervisor
