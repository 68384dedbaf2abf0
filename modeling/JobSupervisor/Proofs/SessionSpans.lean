import JobSupervisor.Proofs.RunScopes
import JobSupervisor.Proofs.RunVerdict

/-!
# What actions do to the open spans

Spans are opened by runs and closed by them.  A run opens one span before its body and closes
the innermost one after it, so a run around a body that leaves the open spans as they were
leaves them as they were.  No other action touches them, and the work of a further thread has
spans of its own; hence every action leaves them as they were.

A body in general may leave spans of its own open, but it does not close the ones in which it
began.

## Main definitions

* `Session.spans_perform`, `Session.spans_performAll` — every action keeps the open spans.
* `Session.SpannedBody` — a body that does not close the spans in which it began.
-/

namespace JobSupervisor

/-! ## Operations that touch no span -/

namespace Supervisor

@[simp] theorem spans_emit (s : Supervisor) (e : Log.Event) :
    (s.emit e).thread.spans = s.thread.spans := rfl

@[simp] theorem spans_withContext (s : Supervisor) (c : Context) :
    (s.withContext c).thread.spans = s.thread.spans := rfl

@[simp] theorem spans_enterScope (s : Supervisor) (supplied : Option String) :
    (s.enterScope supplied).2.thread.spans = s.thread.spans := by
  obtain ⟨context, drawn, h⟩ := s.enterScope_frame supplied
  rw [h]

@[simp] theorem spans_exitScope (s : Supervisor) :
    s.exitScope.2.thread.spans = s.thread.spans := rfl

@[simp] theorem spans_ensureRecord (s : Supervisor) (name : String) :
    (s.ensureRecord name).2.thread.spans = s.thread.spans := by
  rw [thread_ensureRecord]

@[simp] theorem spans_perform (s : Supervisor) (id : Health.RecordId) (op : Health.Operation) :
    (s.perform id op).thread.spans = s.thread.spans := rfl

@[simp] theorem spans_elapse (s : Supervisor) (d : Duration) :
    (s.elapse d).thread.spans = s.thread.spans := rfl

@[simp] theorem spans_onThread {α : Type} (s : Supervisor) (t : Thread)
    (f : Supervisor → α × Supervisor) : (s.onThread t f).2.2.thread.spans = s.thread.spans := rfl

@[simp] theorem spans_giveBack (s : Supervisor) (l : Lease) :
    (s.giveBack l).thread.spans = s.thread.spans := rfl

@[simp] theorem spans_acquireFromTable (s : Supervisor) (name : String) (lease : Duration) :
    (s.acquireFromTable name lease).2.thread.spans = s.thread.spans := by
  simp only [acquireFromTable]
  split <;> rfl

@[simp] theorem spans_tryAcquire (p : LockPolicy) (name : String) (lease : Duration)
    (s : Supervisor) : (p.tryAcquire name lease s).2.thread.spans = s.thread.spans := by
  have h := s.spans_acquireFromTable name lease
  cases p with
  | unlocked => rfl
  | table | faultyReturn =>
      simp only [LockPolicy.tryAcquire]
      split <;> simp_all

@[simp] theorem spans_runOn (start : Command.Starter) (program : String) (args : List String)
    (s : Supervisor) : (Command.runOn start program args s).2.thread.spans = s.thread.spans := by
  simp only [Command.runOn]
  cases start program args <;> rfl

@[simp] theorem spans_command (program : String) (args : List String) (s : Supervisor) :
    (Command.run program args s).2.thread.spans = s.thread.spans :=
  spans_runOn Host.Program.run program args s

@[simp] theorem spans_body (j : Config.JobEntry) (s : Supervisor) :
    (j.body s).2.thread.spans = s.thread.spans := by
  simp only [Config.JobEntry.body]
  split
  · exact spans_command _ _ s
  · rfl

end Supervisor

/-! ## The two ends of a run -/

namespace Run

variable {α : Type}

/-- A run opens a span of its own. -/
theorem spans_begin (job : Descriptor) (s : Supervisor) :
    (Run.begin job s).2.thread.spans =
      .run job.name (Run.begin job s).1.correlation :: s.thread.spans := by
  simp [Run.begin, Supervisor.openSpan]

/-- The settlement closes the innermost span. -/
theorem spans_settle (r : Run) (e : Ending α) (s : Supervisor) :
    (r.settle e s).2.thread.spans = s.thread.spans.tail := by
  simp only [settle]
  split <;> split <;> rfl

end Run

/-! ## Actions -/

namespace Session

/-- The open spans of the running thread, innermost first. -/
def spans (x : Session) : List Log.Span := x.supervisor.thread.spans

/-- A session has the same open spans as another one if it has the same thread. -/
theorem spans_of_thread_eq {x y : Session}
    (h : y.supervisor.thread.spans = x.supervisor.thread.spans) : y.spans = x.spans := h

@[simp] theorem thread_spans_triggerShutdown (i : Nat) (x : Session) :
    (x.triggerShutdown i).supervisor.thread.spans = x.supervisor.thread.spans := by
  simp only [triggerShutdown]
  split <;> rfl

@[simp] theorem thread_spans_keepLease (slot : String) (l : Lease) (x : Session) :
    (x.keepLease slot l).supervisor.thread.spans = x.supervisor.thread.spans := by
  simp only [keepLease]
  split <;> rfl

@[simp] theorem thread_spans_acquire (policy : LockPolicy) (name : String) (lease : Duration)
    (slot : String) (x : Session) :
    (x.acquire policy name lease slot).2.supervisor.thread.spans =
      x.supervisor.thread.spans := by
  simp only [acquire]
  split <;> simp

@[simp] theorem thread_spans_keepScope (slot : String) (id : Option String) (x : Session) :
    (x.keepScope slot id).2.supervisor.thread.spans = x.supervisor.thread.spans := by
  simp only [keepScope]
  split <;> simp

@[simp] theorem thread_spans_keepListener (slot : String) (i : Nat) (x : Session) :
    (x.keepListener slot i).2.supervisor.thread.spans = x.supervisor.thread.spans := by
  simp only [keepListener]
  split <;> simp

@[simp] theorem thread_spans_resolve (r : RecordRef) (x : Session) :
    (x.resolve r).2.supervisor.thread.spans = x.supervisor.thread.spans := by
  cases r with
  | named name => exact x.supervisor.spans_ensureRecord name
  | kept slot => rfl

@[simp] theorem thread_spans_changeRecord (id : Health.RecordId) (op : Health.Operation)
    (x : Session) :
    (x.changeRecord id op).2.supervisor.thread.spans = x.supervisor.thread.spans := by
  cases op <;> rfl

theorem spans_performSimple (a : Action) (x : Session) :
    (x.performSimple a).2.spans = x.spans := by
  apply spans_of_thread_eq
  cases a with
  | view r =>
      have h := x.thread_spans_resolve r
      simp only [performSimple]
      split <;> simp_all
  | change r op =>
      have h := x.thread_spans_resolve r
      simp only [performSimple]
      split <;> simp_all
  | _ =>
      simp only [performSimple]
      repeat' split
      all_goals simp

/-! ## Actions with actions within -/

/-- A further thread has spans of its own. -/
theorem spans_onNewThread {α : Type} (f : Session → α × Session) (x : Session) :
    (x.onNewThread f).2.spans = x.spans := rfl

theorem spans_runJob (job : Descriptor) {body : Session → List Reply × Session}
    (hb : ∀ x : Session, (body x).2.spans = x.spans) (sleep : Duration) (ending : BodyEnd)
    (x : Session) : (runJob job body sleep ending x).2.spans = x.spans := by
  have hentry : (x.withSupervisor (Run.begin job x.supervisor).2).spans =
      .run job.name (Run.begin job x.supervisor).1.correlation :: x.spans :=
    Run.spans_begin job x.supervisor
  have hbody := hb (x.withSupervisor (Run.begin job x.supervisor).2)
  rw [hentry] at hbody
  have hsettle := Run.spans_settle (Run.begin job x.supervisor).1
    (scriptedBody body sleep ending (x.withSupervisor (Run.begin job x.supervisor).2)).1
    (scriptedBody body sleep ending (x.withSupervisor (Run.begin job x.supervisor).2)).2.supervisor
  exact hsettle.trans (congrArg List.tail hbody)

mutual

/-- **An action keeps the open spans.** -/
theorem spans_perform (a : Action) (x : Session) : (perform a x).2.spans = x.spans := by
  cases a with
  | thread steps => exact spans_onNewThread (performAll steps) x
  | run job body sleep ending => exact spans_runJob job (spans_performAll body) sleep ending x
  | _ => exact spans_performSimple _ x

/-- Actions one after the other keep the open spans. -/
theorem spans_performAll (as : List Action) (x : Session) :
    (performAll as x).2.spans = x.spans := by
  cases as with
  | nil => rfl
  | cons a rest => exact (spans_performAll rest _).trans (spans_perform a x)

end

/-! ## Bodies -/

/-- The code of a body that does not close the spans in which it began. -/
structure SpannedBody (α : Type) extends Body α where
  keeps : ∀ x : Session, x.spans <:+ (act x).2.spans

namespace SpannedBody

/-- A body that performs actions, lets time pass and ends as it is told. -/
def ofActions (steps : List Action) (sleep : Duration) (ending : BodyEnd) :
    SpannedBody String where
  toBody := Body.ofActions steps sleep ending
  keeps x := by
    have h : ((Body.ofActions steps sleep ending).act x).2.spans = x.spans :=
      spans_performAll steps x
    exact ⟨[], by rw [List.nil_append, h]⟩

end SpannedBody

end Session

end JobSupervisor
