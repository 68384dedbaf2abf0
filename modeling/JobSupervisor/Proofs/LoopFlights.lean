import JobSupervisor.Proofs.FireSystem
import JobSupervisor.Proofs.LoopSystem

/-!
# The fires that loops await

A tick of a loop begins a fire.  The fire asks for a lease on the name of the job, in three steps
if there is a lock, and hands what it was granted to a worker, which runs the job and gives the
lease back; only then does the loop go on.  The steps of the fires of all loops are taken in any
order, while time passes, the shutdown is triggered, and other code does what has nothing to do
with leases.  The clock that the leases are compared with need not be the one that the loops wait
by.

## Main definitions

* `FlightStage`, `Flight` — how far a fire is that a loop awaits.
* `Flight.advance`, `Flight.Advance` — its steps, and what they can do.
* `Flight.fire_eq_advanceAll` — the steps undisturbed are `Fire.fire`.
* `Fleet`, `Fleet.step`, `Fleet.run` — the loops of a scheduler with their fires.
-/

namespace JobSupervisor

/-- How far a fire is that a loop awaits. -/
inductive FlightStage where
  | asking
  /-- The clock is read. -/
  | clocked (now : Instant)
  | drawn (now : Instant) (h : Holding)
  /-- The lease was denied, and the skip is not counted yet. -/
  | refused
  | granted (l : Lease)
  | running (l : Lease) (r : Run)
  /-- The body has ended and the run is not settled yet. -/
  | ended (l : Lease) (r : Run) (e : Ending Unit)
  | settled (l : Lease)
  /-- The lease is given back. -/
  | returned (l : Lease)
  /-- There is nothing left to do, and the loop has not noticed yet. -/
  | closed (fired : Fired)
  /-- The loop has gone on. -/
  | landed (fired : Fired)

namespace FlightStage

/-- The lease that a fire holds. -/
def lease? : FlightStage → Option Lease
  | .granted l | .running l _ | .ended l _ _ | .settled l => some l
  | .asking | .clocked _ | .drawn _ _ | .refused | .returned _ | .closed _ | .landed _ => none

/-- Whether the loop still awaits the fire. -/
def isAwaited : FlightStage → Bool
  | .landed _ => false
  | _ => true

theorem isAwaited_of_lease? {stage : FlightStage} {l : Lease} (h : stage.lease? = some l) :
    stage.isAwaited = true := by
  cases stage <;> first | rfl | cases h

end FlightStage

/-- A fire that a loop began: the place of the loop, what the loop fires and which lock it asks
for how long a lease, the thread of the worker, and what came of asking. -/
structure Flight where
  loop : Nat
  job : Descriptor
  policy : LockPolicy
  lease : Duration
  thread : Thread
  stage : FlightStage
  admission : Option Admission

namespace Flight

/-- What a fire keeps of a lease that was entered into the table. -/
def holds (f : Flight) (token : Token) : Lease :=
  if f.policy = .faultyReturn then .faulty f.job.name token else .attached f.job.name token

/-- The worker does something. -/
def work {α : Type} (g : Supervisor → α × Supervisor) (stage : α → FlightStage) (f : Flight)
    (s : Supervisor) : Flight × Supervisor :=
  let (a, thread, s) := s.onWorker f.thread g
  ({ f with thread := thread, stage := stage a }, s)

/-- A fire draws its token; a lease that is too long ends it. -/
def draw (now : Instant) (f : Flight) (s : Supervisor) : Flight × Supervisor :=
  let (token, table) := s.leases.draw
  let s := { s with leases := table }
  match now.later? f.lease with
  | some expiresAt => ({ f with stage := .drawn now ⟨token, expiresAt⟩ }, s)
  | none => ({ f with stage := .closed .overflow }, s)

/-- A fire enters the table; a takeover is logged. -/
def enter (now : Instant) (h : Holding) (f : Flight) (s : Supervisor) : Flight × Supervisor :=
  let (admission, table) := s.leases.enter f.job.name now h
  let f := { f with admission := some admission }
  let s := { s with leases := table }
  match admission with
  | .denied => ({ f with stage := .refused }, s)
  | .granted tookOver =>
      ({ f with stage := .granted (f.holds h.token) },
        if tookOver then s.emit (.leaseTakenOver f.job.name) else s)

/-- The next step of a fire, unless that is one of the body. -/
def next (f : Flight) (s : Supervisor) : Flight × Supervisor :=
  match f.stage with
  | .asking =>
      if f.policy = .unlocked then
        ({ f with stage := .granted .detached, admission := some (.granted false) }, s)
      else ({ f with stage := .clocked s.clock }, s)
  | .clocked now => f.draw now s
  | .drawn now h => f.enter now h s
  | .refused => ({ f with stage := .closed .skipped }, s.skipRun f.job.name)
  | .granted l => f.work (Run.begin f.job) (.running l) s
  | .running _ _ => (f, s)
  | .ended l r e => f.work (r.settle e) (fun _ => .settled l) s
  | .settled l => ({ f with stage := .returned l }, s.giveBack l)
  | .returned l =>
      ({ f with stage := .closed .ran },
        if l.returnFails then s.emit (.taskAborted f.job.name Fire.abortText) else s)
  | .closed _ | .landed _ => (f, s)

/-- A step of a fire. -/
inductive Step where
  | next
  /-- The body does something. -/
  | act (d : Deed)
  /-- The body ends. -/
  | finish (e : Ending Unit)

/-- A fire and the supervisor after a step; a step that cannot be taken changes nothing. -/
def advance (a : Step) (f : Flight) (s : Supervisor) : Flight × Supervisor :=
  match a, f.stage with
  | .next, _ => f.next s
  | .act d, .running l r => f.work (fun s => ((), d.act s)) (fun _ => .running l r) s
  | .finish e, .running l r => ({ f with stage := .ended l r e }, s)
  | .act _, _ => (f, s)
  | .finish _, _ => (f, s)

/-! ## What a step can do -/

/-- What a step of a fire can do, each with how far the fire is before. -/
inductive Advance (f : Flight) (s : Supervisor) : Flight × Supervisor → Prop where
  | rest : Advance f s (f, s)
  | free (stage : f.stage = .asking) (policy : f.policy = .unlocked) :
      Advance f s ({ f with stage := .granted .detached, admission := some (.granted false) }, s)
  | read (stage : f.stage = .asking) (policy : f.policy ≠ .unlocked) :
      Advance f s ({ f with stage := .clocked s.clock }, s)
  | draw {now : Instant} (stage : f.stage = .clocked now) : Advance f s (f.draw now s)
  | enter {now : Instant} {h : Holding} (stage : f.stage = .drawn now h) :
      Advance f s (f.enter now h s)
  | skip (stage : f.stage = .refused) :
      Advance f s ({ f with stage := .closed .skipped }, s.skipRun f.job.name)
  /-- The worker or its body does something that is neither asking nor giving back. -/
  | work {l : Lease} {thread : Thread} {stage : FlightStage} {s' : Supervisor}
      (before : f.stage.lease? = some l) (after : stage.lease? = some l) (keeps : s.Keeps s') :
      Advance f s ({ f with thread := thread, stage := stage }, s')
  | giveBack {l : Lease} (stage : f.stage = .settled l) :
      Advance f s ({ f with stage := .returned l }, s.giveBack l)
  | complete {l : Lease} (stage : f.stage = .returned l) {s' : Supervisor} (keeps : s.Keeps s') :
      Advance f s ({ f with stage := .closed .ran }, s')

theorem advance_work {α : Type} {f : Flight} {l : Lease} (hf : f.stage.lease? = some l)
    {g : Supervisor → α × Supervisor} (hg : ∀ s : Supervisor, s.Keeps (g s).2)
    {stage : α → FlightStage} (hstage : ∀ a, (stage a).lease? = some l) (s : Supervisor) :
    Advance f s (f.work g stage s) :=
  .work hf (hstage _) (s.keeps_onWorker f.thread hg)

theorem advance_next (f : Flight) (s : Supervisor) : Advance f s (f.next s) := by
  unfold next
  split
  · split
    · exact .free ‹_› ‹_›
    · exact .read ‹_› ‹_›
  · exact .draw ‹_›
  · exact .enter ‹_›
  · exact .skip ‹_›
  · rename_i hf
    exact advance_work (by rw [hf]; rfl) (Run.keeps_begin f.job) (fun _ => rfl) s
  · exact .rest
  · rename_i hf
    exact advance_work (by rw [hf]; rfl) (Run.keeps_settle _ _) (fun _ => rfl) s
  · exact .giveBack ‹_›
  · refine .complete ‹_› ?_
    split
    · exact s.keeps_emit _
    · exact .refl s
  · exact .rest
  · exact .rest

/-- **What a step can do.** -/
theorem advance_advance (a : Step) (f : Flight) (s : Supervisor) :
    Advance f s (f.advance a s) := by
  unfold advance
  split
  · exact f.advance_next s
  · rename_i d l r hf
    exact advance_work (by rw [hf]; rfl) d.keeps (fun _ => rfl) s
  · rename_i e l r hf
    exact .work (by rw [hf]; rfl) rfl (.refl s)
  · exact .rest
  · exact .rest

/-! ## The steps undisturbed -/

/-- A fire and the supervisor after steps one after the other. -/
def advanceAll (steps : List Step) (f : Flight) (s : Supervisor) : Flight × Supervisor :=
  steps.foldl (fun x a => x.1.advance a x.2) (f, s)

/-- The steps of a fire whose body does one thing. -/
def wholeSteps (d : Deed) (e : Ending Unit) : List Step :=
  [.next, .next, .next, .next, .act d, .finish e, .next, .next, .next]

/-- A fire at its beginning. -/
def begin (loop : Nat) (job : Descriptor) (policy : LockPolicy) (lease : Duration)
    (thread : Thread) : Flight :=
  ⟨loop, job, policy, lease, thread, .asking, none⟩

theorem advanceAll_cons (a : Step) (steps : List Step) (f : Flight) (s : Supervisor) :
    f.advanceAll (a :: steps) s = (f.advance a s).1.advanceAll steps (f.advance a s).2 := rfl

/-- On its own thread a worker works on `S`, while the thread in its place there runs. -/
theorem work_eq {α : Type} {f : Flight} {S : Supervisor} (hthread : f.thread = S.thread)
    (w : Thread) (g : Supervisor → α × Supervisor) (stage : α → FlightStage) :
    f.work g stage { S.swapThreads with worker := w } =
      ({ f with thread := (g S).2.thread, stage := stage (g S).1 },
        { (g S).2.swapThreads with worker := w }) := by
  simp only [work, hthread]
  rfl

/-- Undisturbed, a worker whose run is settled gives its lease back. -/
theorem return_eq_advanceAll {f : Flight} {l : Lease} (hf : f.stage = .settled l)
    {S : Supervisor} (hthread : f.thread = S.thread) (w : Thread) :
    let x := f.advanceAll [.next, .next] { S.swapThreads with worker := w }
    x.1.stage = .closed .ran ∧ { x.2 with worker := x.1.thread } =
      if l.returnFails then
        (S.giveBack l).swapThreads.emit (.taskAborted f.job.name Fire.abortText)
      else (S.giveBack l).swapThreads := by
  obtain ⟨loop, job, policy, lease, thread, stage, admission⟩ := f
  obtain rfl : thread = S.thread := hthread
  obtain rfl : stage = .settled l := hf
  cases l <;> exact ⟨rfl, rfl⟩

/-- Undisturbed, a worker completes a fire that was granted a lease. -/
theorem complete_eq_advanceAll {β : Type} {f : Flight} {l : Lease} (hf : f.stage = .granted l)
    (j : ScheduledJob β) (hjob : f.job = j.descriptor) (d : Deed) (e : Ending Unit)
    {s : Supervisor} (hthread : f.thread = s.worker) :
    let x := f.advanceAll [.next, .act d, .finish e, .next, .next, .next] s
    x.1.stage = .closed .ran ∧ { x.2 with worker := x.1.thread } =
      Fire.complete (fun s => s) (fun s _ => s) j l (fun _ s => (e, d.act s)) s := by
  obtain ⟨loop, job, policy, lease, thread, stage, admission⟩ := f
  obtain rfl : job = j.descriptor := hjob
  obtain rfl : stage = .granted l := hf
  obtain rfl : thread = s.worker := hthread
  let w := s.worker
  let S := s.swapThreads
  let r := (Run.begin j.descriptor S).1
  let S₁ := (Run.begin j.descriptor S).2
  let S₂ := d.act S₁
  let S₃ := (r.settle e S₂).2
  -- The fire before and after each of the first four steps.
  let f₁ : Flight := ⟨loop, j.descriptor, policy, lease, S₁.thread, .running l r, admission⟩
  let f₂ : Flight := { f₁ with thread := S₂.thread }
  let f₃ : Flight := { f₂ with stage := .ended l r e }
  let f₄ : Flight := { f₃ with thread := S₃.thread, stage := .settled l }
  let f₀ : Flight := ⟨loop, j.descriptor, policy, lease, w, .granted l, admission⟩
  have hbegin : f₀.advance .next s = (f₁, { S₁.swapThreads with worker := w }) :=
    work_eq (f := f₀) (S := S) rfl w (Run.begin j.descriptor) (.running l)
  have hact : f₁.advance (.act d) { S₁.swapThreads with worker := w } =
      (f₂, { S₂.swapThreads with worker := w }) :=
    work_eq (f := f₁) (S := S₁) rfl w (fun s => ((), d.act s)) fun _ => .running l r
  have hfinish : f₂.advance (.finish e) { S₂.swapThreads with worker := w } =
      (f₃, { S₂.swapThreads with worker := w }) := rfl
  have hsettle : f₃.advance .next { S₂.swapThreads with worker := w } =
      (f₄, { S₃.swapThreads with worker := w }) :=
    work_eq (f := f₃) (S := S₂) rfl w (r.settle e) fun _ => .settled l
  have hcomplete : Fire.complete (fun s => s) (fun s _ => s) j l (fun _ s => (e, d.act s)) s =
      if l.returnFails then
        (S₃.giveBack l).swapThreads.emit (.taskAborted j.descriptor.name Fire.abortText)
      else (S₃.giveBack l).swapThreads := rfl
  have hsteps : f₀.advanceAll [.next, .act d, .finish e, .next, .next, .next] s =
      f₄.advanceAll [.next, .next] { S₃.swapThreads with worker := w } := by
    rw [advanceAll_cons, hbegin, advanceAll_cons, hact, advanceAll_cons, hfinish,
      advanceAll_cons, hsettle]
  have hreturn := return_eq_advanceAll (f := f₄) (l := l) rfl (S := S₃) rfl w
  rw [← hsteps] at hreturn
  rw [hcomplete]
  exact hreturn

/-- A fire that is over takes no further step. -/
theorem advanceAll_of_closed {f : Flight} {fired : Fired} (hf : f.stage = .closed fired)
    (steps : List Step) (s : Supervisor) : f.advanceAll steps s = (f, s) := by
  induction steps with
  | nil => rfl
  | cons a steps ih =>
      have hrest : f.advance a s = (f, s) := by cases a <;> simp [advance, next, hf]
      rw [advanceAll_cons, hrest, ih]

/-- Once the run has begun, the next step is one of the body. -/
theorem advanceAll_next_next {f : Flight} {l : Lease} (hf : f.stage = .granted l)
    (steps : List Step) (s : Supervisor) :
    f.advanceAll (.next :: .next :: steps) s = f.advanceAll (.next :: steps) s := by
  have hbegun : (f.advance .next s).1.stage =
      .running l (s.onWorker f.thread (Run.begin f.job)).1 := by
    simp [advance, next, hf, work]
  have hrest : (f.advance .next s).1.advance .next (f.advance .next s).2 = f.advance .next s := by
    generalize f.advance .next s = x at hbegun
    simp [advance, next, hbegun]
  rw [advanceAll_cons, advanceAll_cons, hrest, ← advanceAll_cons]

/-- Undisturbed, a fire asks a lock as a fire does. -/
theorem request_eq_advanceAll {policy : LockPolicy} (hpolicy : policy ≠ .unlocked) (loop : Nat)
    (lease : Duration) (job : Descriptor) (s : Supervisor) :
    let x := (begin loop job policy lease s.worker).advanceAll [.next, .next, .next] s
    let y := Fire.request policy lease job.name s
    x.1.job = job ∧ x.1.thread = s.worker ∧ match y.1 with
      | .overflow => x.1.stage = .closed .overflow ∧ x.2 = y.2
      | .skipped => x.1.stage = .refused ∧ x.2.skipRun job.name = y.2
      | .started l => x.1.stage = .granted l ∧ x.2 = y.2 := by
  intro x y
  cases hl : s.clock.later? lease with
  | none =>
      cases policy with
      | unlocked => exact absurd rfl hpolicy
      | table | faultyReturn =>
          simp [x, y, begin, advanceAll, advance, next, draw, hl, Fire.request,
            LockPolicy.tryAcquire, Supervisor.acquireFromTable, LeaseTable.tryAcquire]
  | some expiresAt =>
      rcases henter : s.leases.draw.2.enter job.name s.clock ⟨s.leases.draw.1, expiresAt⟩ with
        ⟨_ | _ | _, table⟩ <;>
      cases policy with
      | unlocked => exact absurd rfl hpolicy
      | table | faultyReturn =>
          simp [x, y, begin, advanceAll, advance, next, draw, enter, holds, hl, henter,
            Fire.request, LockPolicy.tryAcquire, Supervisor.acquireFromTable,
            LeaseTable.tryAcquire, Supervisor.skipRun, Supervisor.emit]

/-- Without a lock a fire is granted a lease that stands nowhere. -/
theorem advance_next_of_unlocked (loop : Nat) (job : Descriptor) (lease : Duration)
    (thread : Thread) (s : Supervisor) :
    (begin loop job .unlocked lease thread).advance .next s =
      (⟨loop, job, .unlocked, lease, thread, .granted .detached, some (.granted false)⟩, s) := by
  simp [advance, next, begin]

/-- **Undisturbed, the steps of a fire do to the supervisor what a fire does**, whatever the lock
answers; the thread of the worker belongs to the fire. -/
theorem fire_eq_advanceAll {β : Type} (loop : Nat) (policy : LockPolicy) (lease : Duration)
    (j : ScheduledJob β) (d : Deed) (e : Ending Unit) (s : Supervisor) :
    let x := (begin loop j.descriptor policy lease s.worker).advanceAll (wholeSteps d e) s
    let y := Fire.fire (fun s => s) (fun s _ => s) policy lease j (fun _ s => (e, d.act s)) s
    x.1.stage = .closed y.1 ∧ { x.2 with worker := x.1.thread } = y.2 := by
  by_cases hpolicy : policy = .unlocked
  · subst hpolicy
    rw [wholeSteps, advanceAll_cons, advance_next_of_unlocked, advanceAll_next_next rfl,
      advanceAll_next_next rfl]
    exact complete_eq_advanceAll
      (f := ⟨loop, j.descriptor, .unlocked, lease, s.worker, .granted .detached, _⟩) rfl j rfl d e
      rfl
  · have hsame := (Fire.same_request policy lease j.descriptor.name s).worker
    have hasked := request_eq_advanceAll hpolicy loop lease j.descriptor s
    have hsteps : (begin loop j.descriptor policy lease s.worker).advanceAll (wholeSteps d e) s =
        (((begin loop j.descriptor policy lease s.worker).advanceAll [.next, .next, .next] s).1
          |>.advanceAll [.next, .act d, .finish e, .next, .next, .next]
            ((begin loop j.descriptor policy lease s.worker).advanceAll [.next, .next, .next] s).2)
        := rfl
    rw [hsteps]
    generalize (begin loop j.descriptor policy lease s.worker).advanceAll [.next, .next, .next] s =
      x at hasked
    obtain ⟨f, s'⟩ := x
    obtain ⟨hjob, hthread, hanswer⟩ := hasked
    rcases hrequest : Fire.request policy lease j.descriptor.name s with ⟨answer, t⟩
    rw [hrequest] at hanswer hsame
    have hworker : f.thread = t.worker := hthread.trans hsame.symm
    simp only [Fire.fire, hrequest]
    cases answer with
    | overflow =>
        obtain ⟨hstage, rfl⟩ := hanswer
        rw [advanceAll_of_closed hstage, hworker]
        exact ⟨hstage, rfl⟩
    | skipped =>
        obtain ⟨hstage, rfl⟩ := hanswer
        change f.stage = .refused at hstage
        have hskip : f.advance .next s' =
            ({ f with stage := .closed .skipped }, s'.skipRun j.descriptor.name) := by
          rw [← hjob]
          simp only [advance, next, hstage]
        rw [advanceAll_cons, hskip, advanceAll_of_closed rfl, hworker]
        exact ⟨rfl, rfl⟩
    | started l =>
        obtain ⟨hstage, rfl⟩ := hanswer
        exact complete_eq_advanceAll hstage j hjob d e hworker

end Flight

/-! ## The loops of a scheduler with their fires -/

/-- The loops of a scheduler, the supervisor, and the fires that the loops have begun, in the
order in which they began. -/
structure Fleet (β : Type) where
  loops : LoopSystem β
  supervisor : Supervisor
  flights : List Flight

namespace Fleet

variable {β : Type}

/-- What can happen: time passes on the clock of the loops and on that of the leases, the shutdown
is triggered, a loop selects, a fire takes a step, a loop notices that its fire is over, or other
code does something. -/
inductive Move where
  | pass (timers leases : Duration)
  | trigger
  /-- If the loop takes a tick, its fire is run on the given thread. -/
  | select (i : Nat) (timerFirst : Bool) (thread : Thread)
  | fly (k : Nat) (a : Flight.Step)
  | land (k : Nat)
  | other (d : Deed)

/-- The loops of a scheduler as they are started. -/
def start (c : Scheduler β) (s : Supervisor) (timers : Instant) : Fleet β :=
  ⟨(LoopSystem.initial timers).step (.start c), s, []⟩

/-- A loop selects; if it takes a tick, a fire begins. -/
def select (i : Nat) (timerFirst : Bool) (thread : Thread) (s : Fleet β) : Fleet β :=
  let loops := s.loops.step (.select i timerFirst)
  match loops.tasks[i]? with
  | some t =>
      if loops.fires i = s.loops.fires i then { s with loops := loops }
      else
        { s with
          loops := loops
          flights := s.flights ++
            [.begin i t.loop.job.descriptor t.loop.policy t.loop.lease thread] }
  | none => { s with loops := loops }

/-- A fire takes a step. -/
def fly (k : Nat) (a : Flight.Step) (s : Fleet β) : Fleet β :=
  match s.flights[k]? with
  | some f =>
      let (f', supervisor) := f.advance a s.supervisor
      { s with supervisor := supervisor, flights := s.flights.set k f' }
  | none => s

/-- A loop notices that its fire is over. -/
def land (k : Nat) (s : Fleet β) : Fleet β :=
  match s.flights[k]? with
  | some f =>
      match f.stage with
      | .closed fired =>
          { s with
            loops := s.loops.step (.finish f.loop fired)
            flights := s.flights.set k { f with stage := .landed fired } }
      | _ => s
  | none => s

/-- The system after a move; a move that cannot be made changes nothing. -/
def step (m : Move) (s : Fleet β) : Fleet β :=
  match m with
  | .pass timers leases =>
      { s with
        loops := s.loops.step (.pass timers)
        supervisor := s.supervisor.elapse leases }
  | .trigger => { s with loops := s.loops.step .trigger }
  | .select i timerFirst thread => s.select i timerFirst thread
  | .fly k a => s.fly k a
  | .land k => s.land k
  | .other d => { s with supervisor := d.act s.supervisor }

/-- The system after moves one after the other. -/
def run (moves : List Move) (s : Fleet β) : Fleet β :=
  moves.foldl (fun s m => s.step m) s

@[simp] theorem run_nil (s : Fleet β) : s.run [] = s := rfl

@[simp] theorem run_cons (m : Move) (moves : List Move) (s : Fleet β) :
    s.run (m :: moves) = (s.step m).run moves := rfl

theorem run_append (moves later : List Move) (s : Fleet β) :
    s.run (moves ++ later) = (s.run moves).run later :=
  List.foldl_append

variable {s : Fleet β} {k : Nat} {f : Flight}

theorem fly_eq (hk : s.flights[k]? = some f) (a : Flight.Step) :
    s.fly k a =
      { s with
        supervisor := (f.advance a s.supervisor).2
        flights := s.flights.set k (f.advance a s.supervisor).1 } := by
  simp [fly, hk]

theorem land_eq (hk : s.flights[k]? = some f) {fired : Fired} (hf : f.stage = .closed fired) :
    s.land k =
      { s with
        loops := s.loops.step (.finish f.loop fired)
        flights := s.flights.set k { f with stage := .landed fired } } := by
  simp [land, hk, hf]

end Fleet

end JobSupervisor
