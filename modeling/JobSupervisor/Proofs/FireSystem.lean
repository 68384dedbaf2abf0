import JobSupervisor.Job.Schedule
import JobSupervisor.Proofs.LeaseExclusion
import JobSupervisor.Proofs.RunFrame

/-!
# Fires that share a lock

Loops and callers fire jobs at any time.  A fire asks for a lease on the name of its job, which
takes the three steps of an acquisition.  A refused fire counts a skip and reports it.  A fire
that is granted the lease hands it to a worker, which runs the job around its body and gives the
lease back at the end; whoever awaits the fire may stop to do so at any time in between, and the
worker does not notice.  Leases on the same names are also taken and given back elsewhere.

## Main definitions

* `Deed` — what bodies, and code that has nothing to do with fires, may do.
* `FireStage`, `FireTask` — how far a fire is.
* `FireSystem`, `FireSystem.step`, `FireSystem.run` — the fires with their lock.
* `FireSystem.Advances` — what a step of a fire does.
* `FireSystem.supervisor_fire` — the steps undisturbed are a fire.
-/

namespace JobSupervisor

/-- Something that bodies and other code do besides taking leases: anything that leaves the
leases and the clock alone and counts no skipped run. -/
structure Deed where
  act : Supervisor → Supervisor
  keeps : ∀ s : Supervisor, s.Keeps (act s)

/-- A lease that a fire was granted, with the clock then and the place among all fires that were
granted one. -/
structure Tenure where
  grant : Grant
  since : Instant
  turn : Nat
  deriving DecidableEq

/-- How far a fire is. -/
inductive FireStage where
  | asking
  /-- The lease is too long for the clock. -/
  | overflowed
  /-- The lease was denied, and the skip is not counted yet. -/
  | refused
  | skipped
  | granted (t : Tenure)
  | running (t : Tenure) (r : Run)
  /-- The body has ended and the run is not settled yet. -/
  | ended (t : Tenure) (r : Run) (e : Ending Unit)
  | settled (t : Tenure)
  /-- The lease is given back. -/
  | returned (t : Tenure)

/-- The lease that a fire holds. -/
def FireStage.tenure? : FireStage → Option Tenure
  | .granted t | .running t _ | .ended t _ _ | .settled t => some t
  | .asking | .overflowed | .refused | .skipped | .returned _ => none

/-- A fire: its job, the thread of its worker, what came of asking for the lease, whether
somebody awaits it, and how often its body has begun and ended. -/
structure FireTask where
  job : Descriptor
  thread : Thread
  stage : FireStage
  admission : Option Admission
  awaited : Bool
  begun : Nat
  ended : Nat

/-- What a fire reports to whoever awaits it: whether the job was run. -/
def FireTask.report? (f : FireTask) : Option Bool :=
  match f.stage with
  | .skipped => some false
  | .returned _ => if f.awaited then some true else none
  | _ => none

/-- The fires in the order in which they began, the lock that they ask, the leases that were
taken elsewhere, and the number of fires that were granted a lease. -/
structure FireSystem where
  lock : LockSystem
  supervisor : Supervisor
  fires : List FireTask
  taken : List Grant
  turns : Nat

/-- Works on the thread of a worker; the thread that was running waits meanwhile. -/
def Supervisor.onWorker {α : Type} (thread : Thread) (g : Supervisor → α × Supervisor)
    (s : Supervisor) : α × Thread × Supervisor :=
  let (a, s') := g ({ s with worker := thread }).swapThreads
  (a, s'.swapThreads.worker, { s'.swapThreads with worker := s.worker })

/-- Logs and counts a skipped run. -/
def Supervisor.skipRun (name : String) (s : Supervisor) : Supervisor :=
  { s.emit (.runSkipped name) with metrics := s.metrics.recordSkipped name }

theorem Supervisor.keeps_onWorker {α : Type} (s : Supervisor) (thread : Thread)
    {g : Supervisor → α × Supervisor} (hg : ∀ s : Supervisor, s.Keeps (g s).2) :
    s.Keeps (s.onWorker thread g).2.2 :=
  have hkept := hg (swapThreads { s with worker := thread })
  ⟨hkept.leases, hkept.clock, hkept.skipped⟩

namespace FireSystem

/-- A step of one fire. -/
inductive FireMove where
  | draw
  | enter
  | skip
  | begin
  /-- The body does something. -/
  | act (d : Deed)
  /-- The body ends. -/
  | finish (e : Ending Unit)
  | settle
  | giveBack
  /-- Nobody awaits the fire any more. -/
  | abandon

/-- What can happen: a job is fired, a fire takes a step, somebody else takes a step with the
lock or lets time pass, or does something else. -/
inductive Move where
  | ask (job : Descriptor) (lease : Duration) (thread : Thread)
  | own (i : Nat) (m : FireMove)
  | elsewhere (m : LockSystem.Move)
  | other (d : Deed)

/-- A supervisor before any lease was taken. -/
def start (s : Supervisor) : FireSystem :=
  ⟨.start s.clock, { s with leases := .empty }, [], [], 0⟩

/-- The thread with which a fire asks the lock; the other threads have the odd numbers. -/
def asker (i : Nat) : Nat := 2 * i

/-- Changes a fire. -/
def setFire (i : Nat) (f : FireTask) (s : FireSystem) : FireSystem :=
  { s with fires := s.fires.set i f }

/-- Changes the lock, of which the supervisor sees the table and the clock. -/
def withLock (l : LockSystem) (s : FireSystem) : FireSystem :=
  { s with lock := l, supervisor := { s.supervisor with leases := l.table, clock := l.clock } }

/-- Changes the supervisor. -/
def modify (g : Supervisor → Supervisor) (s : FireSystem) : FireSystem :=
  { s with supervisor := g s.supervisor }

/-- A thread enters the table; a takeover is logged. -/
def enterTable (thread : Nat) (name : String) (now : Instant) (h : Holding) (s : FireSystem) :
    Admission × FireSystem :=
  let admission := (s.lock.table.enter name now h).1
  let s := s.withLock (s.lock.step (.enter thread))
  (admission,
    if admission = .granted true then s.modify (·.emit (.leaseTakenOver name)) else s)

/-- A fire draws its token; a lease that is too long ends it. -/
def draw (i : Nat) (f : FireTask) (s : FireSystem) : FireSystem :=
  match s.lock.attempts (asker i) with
  | .clocked _ lease now =>
      let s := s.withLock (s.lock.step (.draw (asker i)))
      match now.later? lease with
      | some _ => s
      | none => s.setFire i { f with stage := .overflowed }
  | _ => s

/-- A fire enters the table. -/
def enter (i : Nat) (f : FireTask) (s : FireSystem) : FireSystem :=
  match s.lock.attempts (asker i) with
  | .drawn name now h =>
      let t : Tenure := ⟨⟨name, h.token, h.expiresAt⟩, s.lock.clock, s.turns⟩
      match s.enterTable (asker i) name now h with
      | (.denied, s) => s.setFire i { f with stage := .refused, admission := some .denied }
      | (.granted tookOver, s) =>
          { s with turns := s.turns + 1 }.setFire i
            { f with stage := .granted t, admission := some (.granted tookOver) }
  | _ => s

/-- The worker of a fire does something. -/
def work {α : Type} (i : Nat) (f : FireTask) (g : Supervisor → α × Supervisor)
    (next : α → FireTask) (s : FireSystem) : FireSystem :=
  let (a, thread, supervisor) := s.supervisor.onWorker f.thread g
  { s with supervisor := supervisor }.setFire i { next a with thread := thread }

/-- A step of a fire; a step that is not the fire's next one changes nothing. -/
def advance (i : Nat) (m : FireMove) (f : FireTask) (s : FireSystem) : FireSystem :=
  match m, f.stage with
  | .draw, .asking => s.draw i f
  | .enter, .asking => s.enter i f
  | .skip, .refused =>
      (s.modify (·.skipRun f.job.name)).setFire i { f with stage := .skipped }
  | .begin, .granted t =>
      s.work i f (Run.begin f.job) fun r => { f with stage := .running t r, begun := f.begun + 1 }
  | .act d, .running _ _ => s.work i f (fun s => ((), d.act s)) fun _ => f
  | .finish e, .running t r =>
      s.setFire i { f with stage := .ended t r e, ended := f.ended + 1 }
  | .settle, .ended t r e => s.work i f (r.settle e) fun _ => { f with stage := .settled t }
  | .giveBack, .settled t =>
      (s.withLock (s.lock.step (.drop t.grant))).setFire i { f with stage := .returned t }
  | .abandon, stage =>
      if stage.tenure?.isSome then s.setFire i { f with awaited := false } else s
  | _, _ => s

/-- A step that somebody else takes with the lock. -/
def elsewhere (m : LockSystem.Move) (s : FireSystem) : FireSystem :=
  match m with
  | .pass d => s.withLock (s.lock.step (.pass d))
  | .read i name lease => s.withLock (s.lock.step (.read (asker i + 1) name lease))
  | .draw i => s.withLock (s.lock.step (.draw (asker i + 1)))
  | .enter i =>
      match s.lock.attempts (asker i + 1) with
      | .drawn name now h =>
          match s.enterTable (asker i + 1) name now h with
          | (.denied, s) => s
          | (.granted _, s) => { s with taken := ⟨name, h.token, h.expiresAt⟩ :: s.taken }
      | _ => s
  | .drop g =>
      if g ∈ s.taken then
        { s.withLock (s.lock.step (.drop g)) with taken := s.taken.erase g }
      else s

/-- The system after a move; a move that cannot be made changes nothing. -/
def step (m : Move) (s : FireSystem) : FireSystem :=
  match m with
  | .ask job lease thread =>
      { s.withLock (s.lock.step (.read (asker s.fires.length) job.name lease)) with
        fires := s.fires ++ [⟨job, thread, .asking, none, true, 0, 0⟩] }
  | .own i m =>
      match s.fires[i]? with
      | some f => s.advance i m f
      | none => s
  | .elsewhere m => s.elsewhere m
  | .other d => s.modify d.act

/-- The system after moves one after the other. -/
def run (moves : List Move) (s : FireSystem) : FireSystem :=
  moves.foldl (fun s m => s.step m) s

@[simp] theorem run_nil (s : FireSystem) : s.run [] = s := rfl

@[simp] theorem run_cons (m : Move) (moves : List Move) (s : FireSystem) :
    s.run (m :: moves) = (s.step m).run moves := rfl

theorem run_append (moves moves' : List Move) (s : FireSystem) :
    s.run (moves ++ moves') = (s.run moves).run moves' :=
  List.foldl_append

/-! ## The steps undisturbed -/

variable {s : FireSystem} {i : Nat} {f : FireTask}

theorem getElem?_setFire_self (hi : s.fires[i]? = some f) (f' : FireTask) :
    (s.setFire i f').fires[i]? = some f' := by
  have hlt : i < s.fires.length := (List.getElem?_eq_some_iff.1 hi).1
  simp [setFire, hlt]

theorem step_own (hi : s.fires[i]? = some f) (m : FireMove) :
    s.step (.own i m) = s.advance i m f := by
  simp [step, hi]

/-- What a fire does with its next step, each with how far the fire is before; any other step
changes nothing. -/
inductive Advances (s : FireSystem) (i : Nat) (f : FireTask) : FireSystem → Prop where
  | stay : Advances s i f s
  | draw (h : f.stage = .asking) : Advances s i f (s.draw i f)
  | enter (h : f.stage = .asking) : Advances s i f (s.enter i f)
  | skip (h : f.stage = .refused) :
      Advances s i f ((s.modify (·.skipRun f.job.name)).setFire i { f with stage := .skipped })
  | begin {t : Tenure} (h : f.stage = .granted t) :
      Advances s i f (s.work i f (Run.begin f.job)
        fun r => { f with stage := .running t r, begun := f.begun + 1 })
  | act {t : Tenure} {r : Run} (h : f.stage = .running t r) (d : Deed) :
      Advances s i f (s.work i f (fun s => ((), d.act s)) fun _ => f)
  | finish {t : Tenure} {r : Run} (h : f.stage = .running t r) (e : Ending Unit) :
      Advances s i f (s.setFire i { f with stage := .ended t r e, ended := f.ended + 1 })
  | settle {t : Tenure} {r : Run} {e : Ending Unit} (h : f.stage = .ended t r e) :
      Advances s i f (s.work i f (r.settle e) fun _ => { f with stage := .settled t })
  | giveBack {t : Tenure} (h : f.stage = .settled t) :
      Advances s i f
        ((s.withLock (s.lock.step (.drop t.grant))).setFire i { f with stage := .returned t })
  | abandon (h : f.stage.tenure?.isSome) :
      Advances s i f (s.setFire i { f with awaited := false })

theorem advances_advance (i : Nat) (m : FireMove) (f : FireTask) (s : FireSystem) :
    s.Advances i f (s.advance i m f) := by
  obtain ⟨job, thread, stage, admission, awaited, begun, ended⟩ := f
  cases m with
  | draw =>
      cases stage with
      | asking => exact .draw rfl
      | _ => exact .stay
  | enter =>
      cases stage with
      | asking => exact .enter rfl
      | _ => exact .stay
  | skip =>
      cases stage with
      | refused => exact .skip rfl
      | _ => exact .stay
  | begin =>
      cases stage with
      | granted t => exact .begin rfl
      | _ => exact .stay
  | act d =>
      cases stage with
      | running t r => exact .act rfl d
      | _ => exact .stay
  | finish e =>
      cases stage with
      | running t r => exact .finish rfl e
      | _ => exact .stay
  | settle =>
      cases stage with
      | ended t r e => exact .settle rfl
      | _ => exact .stay
  | giveBack =>
      cases stage with
      | settled t => exact .giveBack rfl
      | _ => exact .stay
  | abandon =>
      simp only [advance]
      split
      · exact .abandon ‹_›
      · exact .stay

/-- A step of a fire that is not there changes nothing. -/
theorem step_own_cases (s : FireSystem) (i : Nat) (m : FireMove) :
    s.step (.own i m) = s ∨ ∃ f, s.fires[i]? = some f ∧ s.Advances i f (s.step (.own i m)) := by
  cases hi : s.fires[i]? with
  | none => exact .inl (by simp [step, hi])
  | some f => exact .inr ⟨f, rfl, by rw [step_own hi]; exact s.advances_advance i m f⟩

/-! ### Steps of a worker -/

theorem step_begin (hi : s.fires[i]? = some f) {t : Tenure} (h : f.stage = .granted t) :
    s.step (.own i .begin) = s.work i f (Run.begin f.job)
      fun r => { f with stage := .running t r, begun := f.begun + 1 } := by
  -- With its stage in place the step computes; `advance` has too many equations to rewrite with.
  obtain ⟨job, thread, stage, admission, awaited, begun, ended⟩ := f
  obtain rfl : stage = .granted t := h
  exact step_own hi .begin

theorem step_act (hi : s.fires[i]? = some f) {t : Tenure} {r : Run} (h : f.stage = .running t r)
    (d : Deed) :
    s.step (.own i (.act d)) = s.work i f (fun s => ((), d.act s)) fun _ => f := by
  obtain ⟨job, thread, stage, admission, awaited, begun, ended⟩ := f
  obtain rfl : stage = .running t r := h
  exact step_own hi (.act d)

theorem step_finish (hi : s.fires[i]? = some f) {t : Tenure} {r : Run}
    (h : f.stage = .running t r) (e : Ending Unit) :
    s.step (.own i (.finish e)) =
      s.setFire i { f with stage := .ended t r e, ended := f.ended + 1 } := by
  obtain ⟨job, thread, stage, admission, awaited, begun, ended⟩ := f
  obtain rfl : stage = .running t r := h
  exact step_own hi (.finish e)

theorem step_settle (hi : s.fires[i]? = some f) {t : Tenure} {r : Run} {e : Ending Unit}
    (h : f.stage = .ended t r e) :
    s.step (.own i .settle) = s.work i f (r.settle e) fun _ => { f with stage := .settled t } := by
  obtain ⟨job, thread, stage, admission, awaited, begun, ended⟩ := f
  obtain rfl : stage = .ended t r e := h
  exact step_own hi .settle

theorem step_giveBack (hi : s.fires[i]? = some f) {t : Tenure} (h : f.stage = .settled t) :
    s.step (.own i .giveBack) =
      (s.withLock (s.lock.step (.drop t.grant))).setFire i { f with stage := .returned t } := by
  obtain ⟨job, thread, stage, admission, awaited, begun, ended⟩ := f
  obtain rfl : stage = .settled t := h
  exact step_own hi .giveBack

/-! ### A fire -/

/-- The supervisor sees the table and the clock of the lock. -/
structure Synced (s : FireSystem) : Prop where
  leases : s.supervisor.leases = s.lock.table
  clock : s.supervisor.clock = s.lock.clock

/-- The stage that a fire comes to by what the lock answers. -/
inductive Answers : Fire.Answer → FireStage → Prop where
  | overflow : Answers .overflow .overflowed
  | skipped : Answers .skipped .skipped
  | started {t : Tenure} {l : Lease} (h : l = .attached t.grant.name t.grant.token) :
      Answers (.started l) (.granted t)

/-- The steps of a fire until it holds the lease or has counted the skip. -/
def askMoves : List FireMove := [.draw, .enter, .skip]

/-- Undisturbed, a fire asks the lock as a fire does. -/
theorem supervisor_request (hs : s.Synced)
    (hidle : s.lock.attempts (asker s.fires.length) = .idle) (job : Descriptor)
    (lease : Duration) (thread : Thread) :
    let t := s.run (.ask job lease thread :: askMoves.map (.own s.fires.length))
    t.supervisor = (Fire.request .table lease job.name s.supervisor).2 ∧ t.Synced ∧
      ∃ f, t.fires[s.fires.length]? = some f ∧ f.job = job ∧ f.thread = thread ∧
        (∀ u, f.stage.tenure? = some u → u.grant ∈ t.lock.grants) ∧
        Answers (Fire.request .table lease job.name s.supervisor).1 f.stage := by
  obtain ⟨hleases, hclock⟩ := hs
  intro t
  cases hl : s.lock.clock.later? lease with
  | none =>
      simp [t, askMoves, step, advance, draw, withLock, setFire, LockSystem.step,
        LockSystem.setAttempt, LockSystem.drawToken, hidle, hl, Fire.request, LockPolicy.tryAcquire,
        Supervisor.acquireFromTable, LeaseTable.tryAcquire, hleases, hclock,
        FireStage.tenure?]
      exact ⟨⟨rfl, rfl⟩, .overflow⟩
  | some expiresAt =>
      rcases henter : s.lock.table.draw.2.enter job.name s.lock.clock
        ⟨s.lock.table.draw.1, expiresAt⟩ with ⟨_ | _ | _, table⟩ <;>
      simp [t, askMoves, step, advance, draw, enter, enterTable, modify, withLock, setFire,
        LockSystem.step, LockSystem.setAttempt, LockSystem.drawToken, hidle, hl, henter,
        Fire.request, LockPolicy.tryAcquire, Supervisor.acquireFromTable,
        LeaseTable.tryAcquire, hleases, hclock, FireStage.tenure?, Supervisor.emit,
        Supervisor.skipRun]
      · exact ⟨⟨rfl, rfl⟩, .skipped⟩
      · exact ⟨⟨rfl, rfl⟩, .started rfl⟩
      · exact ⟨⟨rfl, rfl⟩, .started rfl⟩

/-- The steps of a fire from the beginning of its run to the end, if its body does one thing. -/
def workerMoves (d : Deed) (e : Ending Unit) : List FireMove :=
  [.begin, .act d, .finish e, .settle, .giveBack]

/-- The steps of a worker do nothing for a fire without a lease. -/
theorem run_workerMoves_of_tenure?_eq_none (hi : s.fires[i]? = some f)
    (h : f.stage.tenure? = none) (d : Deed) (e : Ending Unit) :
    s.run ((workerMoves d e).map (.own i)) = s := by
  cases hstage : f.stage <;>
    simp_all [workerMoves, step, advance, FireStage.tenure?]

/-- On its own thread a worker works on `S`, while the thread in its place there runs. -/
theorem work_eq {α : Type} {S : Supervisor} {w : Thread} (hthread : f.thread = S.thread)
    (hs : s.supervisor = { S.swapThreads with worker := w }) (g : Supervisor → α × Supervisor)
    (next : α → FireTask) :
    s.work i f g next =
      { s with supervisor := { (g S).2.swapThreads with worker := w } }.setFire i
        { next (g S).1 with thread := (g S).2.thread } := by
  simp only [work, hthread, hs]
  rfl

/-- Undisturbed, a worker completes a fire. -/
theorem supervisor_complete {β : Type} (hs : s.Synced) (hi : s.fires[i]? = some f) {t : Tenure}
    (hstage : f.stage = .granted t) (hmem : t.grant ∈ s.lock.grants)
    (hthread : f.thread = s.supervisor.worker) (j : ScheduledJob β) (hjob : f.job = j.descriptor)
    (d : Deed) (e : Ending Unit) :
    (s.run ((workerMoves d e).map (.own i))).supervisor =
      { Fire.complete (fun s => s) (fun s _ => s) j (.attached t.grant.name t.grant.token)
          (fun _ s => (e, d.act s)) s.supervisor with worker := s.supervisor.worker } := by
  obtain ⟨job, thread, stage, admission, awaited, begun, ended⟩ := f
  obtain rfl : job = j.descriptor := hjob
  obtain rfl : stage = .granted t := hstage
  obtain rfl : thread = s.supervisor.worker := hthread
  let S := s.supervisor.swapThreads
  let w := s.supervisor.worker
  let r := (Run.begin j.descriptor S).1
  let S₁ := (Run.begin j.descriptor S).2
  let S₂ := d.act S₁
  let S₃ := (r.settle e S₂).2
  -- The fire and the system after each of the first four steps.
  let f₁ : FireTask :=
    ⟨j.descriptor, S₁.thread, .running t r, admission, awaited, begun + 1, ended⟩
  let f₂ : FireTask := { f₁ with thread := S₂.thread }
  let f₃ : FireTask := { f₂ with stage := .ended t r e, ended := ended + 1 }
  let f₄ : FireTask := { f₃ with stage := .settled t, thread := S₃.thread }
  let s₁ := { s with supervisor := { S₁.swapThreads with worker := w } }.setFire i f₁
  let s₂ := { s₁ with supervisor := { S₂.swapThreads with worker := w } }.setFire i f₂
  let s₃ := s₂.setFire i f₃
  let s₄ := { s₃ with supervisor := { S₃.swapThreads with worker := w } }.setFire i f₄
  have hi₁ : s₁.fires[i]? = some f₁ := getElem?_setFire_self hi f₁
  have hi₂ : s₂.fires[i]? = some f₂ := getElem?_setFire_self hi₁ f₂
  have hi₃ : s₃.fires[i]? = some f₃ := getElem?_setFire_self hi₂ f₃
  have hi₄ : s₄.fires[i]? = some f₄ := getElem?_setFire_self hi₃ f₄
  have hbegin : s.step (.own i .begin) = s₁ :=
    (step_begin hi rfl).trans (work_eq (S := S) (w := w) rfl rfl _ _)
  have hact : s₁.step (.own i (.act d)) = s₂ :=
    (step_act hi₁ rfl d).trans (work_eq (S := S₁) (w := w) rfl rfl _ _)
  have hfinish : s₂.step (.own i (.finish e)) = s₃ := step_finish hi₂ rfl e
  have hsettle : s₃.step (.own i .settle) = s₄ :=
    (step_settle hi₃ rfl).trans (work_eq (S := S₂) (w := w) rfl rfl _ _)
  have hreturn : s₄.step (.own i .giveBack) =
      (s₄.withLock (s.lock.step (.drop t.grant))).setFire i { f₄ with stage := .returned t } :=
    step_giveBack hi₄ rfl
  have hcomplete : Fire.complete (fun s => s) (fun s _ => s) j
      (.attached t.grant.name t.grant.token) (fun _ s => (e, d.act s)) s.supervisor =
        (S₃.giveBack (.attached t.grant.name t.grant.token)).swapThreads := by
    simp only [Fire.complete, Fire.within, supervise, Lease.returnFails]
    rfl
  have hkept : S.Keeps S₃ := (Run.keeps_begin j.descriptor S).trans
    ((d.keeps S₁).trans (Run.keeps_settle r e S₂))
  have hleases : S₃.leases = s.lock.table := hkept.leases.trans hs.leases
  have hclock : S₃.clock = s.lock.clock := hkept.clock.trans hs.clock
  rw [workerMoves, List.map_cons, List.map_cons, List.map_cons, List.map_cons, List.map_cons,
    List.map_nil, run_cons, run_cons, run_cons, run_cons, run_cons, run_nil, hbegin, hact,
    hfinish, hsettle, hreturn, LockSystem.step_drop hmem, hcomplete]
  simp only [setFire, withLock, Supervisor.giveBack, LeaseTable.giveBack, hleases, ← hclock]
  rfl

/-- **Undisturbed, the steps of a fire do to the supervisor what a fire does**, whatever the lock
answers; the thread of the worker belongs to the fire. -/
theorem supervisor_fire {β : Type} (hs : s.Synced)
    (hidle : s.lock.attempts (asker s.fires.length) = .idle) (j : ScheduledJob β)
    (lease : Duration) (d : Deed) (e : Ending Unit) :
    (s.run (.ask j.descriptor lease s.supervisor.worker ::
      (askMoves ++ workerMoves d e).map (.own s.fires.length))).supervisor =
      { (Fire.fire (fun s => s) (fun s _ => s) .table lease j (fun _ s => (e, d.act s))
          s.supervisor).2 with worker := s.supervisor.worker } := by
  have hworker := (Fire.same_request .table lease j.descriptor.name s.supervisor).worker
  obtain ⟨hasked, hsynced, f, hi, hjob, hthread, hmem, hanswer⟩ :=
    supervisor_request hs hidle j.descriptor lease s.supervisor.worker
  rw [List.map_append, ← List.cons_append, run_append]
  simp only [Fire.fire]
  rcases hrequest : Fire.request .table lease j.descriptor.name s.supervisor with ⟨answer, s'⟩
  rw [hrequest] at hasked hanswer hworker
  cases answer with
  | overflow =>
      have hnone : f.stage.tenure? = none := by
        generalize f.stage = stage at hanswer
        cases hanswer
        rfl
      rw [run_workerMoves_of_tenure?_eq_none hi hnone, hasked, ← hworker]
  | skipped =>
      have hnone : f.stage.tenure? = none := by
        generalize f.stage = stage at hanswer
        cases hanswer
        rfl
      rw [run_workerMoves_of_tenure?_eq_none hi hnone, hasked, ← hworker]
  | started l =>
      obtain ⟨t, hstage, rfl⟩ : ∃ t, f.stage = .granted t ∧
          l = .attached t.grant.name t.grant.token := by
        generalize f.stage = stage at hanswer
        cases hanswer with
        | started h => exact ⟨_, rfl, h⟩
      have hheld := hmem t (by rw [hstage]; rfl)
      rw [supervisor_complete hsynced hi hstage hheld
        (hthread.trans (hworker.symm.trans (congrArg Supervisor.worker hasked.symm))) j hjob d e,
        hasked, ← hworker]

end FireSystem

end JobSupervisor
