import JobSupervisor.Proofs.RunOperations
import JobSupervisor.Session.Perform

/-!
# What actions do to the registry

Whatever code on one thread does, it changes the registry only by calls.  An action, and
with it a nested run or the work of a further thread, leads the registry from the state
before to the state after.

## Main definitions

* `Session.Leads` — the registry changes by some calls.
* `Session.leads_perform`, `Session.leads_performAll` — every action does so.
-/

namespace JobSupervisor.Session

/-- The registry of one session becomes that of another by some calls. -/
def Leads (x y : Session) : Prop := x.supervisor.Leads y.supervisor

theorem Leads.trans {x y z : Session} (h : x.Leads y) (h' : y.Leads z) : x.Leads z :=
  Supervisor.Leads.trans h h'

theorem leads_of_registry_eq {x y : Session}
    (h : y.supervisor.registry = x.supervisor.registry) : x.Leads y :=
  Supervisor.leads_of_registry_eq h

/-! ## Small changes of a session -/

@[simp] theorem supervisor_withSupervisor (s : Supervisor) (x : Session) :
    (x.withSupervisor s).supervisor = s := rfl

@[simp] theorem supervisor_modify (f : Supervisor → Supervisor) (x : Session) :
    (x.modify f).supervisor = f x.supervisor := rfl

@[simp] theorem supervisor_ask {α : Type} (f : Supervisor → α × Supervisor) (x : Session) :
    (x.ask f).2.supervisor = (f x.supervisor).2 := rfl

@[simp] theorem supervisor_askShutdown {α : Type} (i : Nat) (f : Shutdown → α × Shutdown)
    (x : Session) : (x.askShutdown i f).2.supervisor = x.supervisor := rfl

@[simp] theorem supervisor_pushBody (replies : List Reply) (x : Session) :
    (x.pushBody replies).supervisor = x.supervisor := rfl

@[simp] theorem supervisor_popBody (x : Session) : x.popBody.2.supervisor = x.supervisor := rfl

@[simp] theorem registry_elapse (d : Duration) (x : Session) :
    (x.elapse d).supervisor.registry = x.supervisor.registry := rfl

@[simp] theorem supervisor_fault (x : Session) : x.fault.2.supervisor = x.supervisor := rfl

@[simp] theorem registry_triggerShutdown (i : Nat) (x : Session) :
    (x.triggerShutdown i).supervisor.registry = x.supervisor.registry := by
  simp only [triggerShutdown]
  split <;> rfl

@[simp] theorem registry_keepLease (slot : String) (l : Lease) (x : Session) :
    (x.keepLease slot l).supervisor.registry = x.supervisor.registry := by
  simp only [keepLease]
  split <;> rfl

@[simp] theorem registry_acquire (policy : LockPolicy) (name : String) (lease : Duration)
    (slot : String) (x : Session) :
    (x.acquire policy name lease slot).2.supervisor.registry = x.supervisor.registry := by
  simp only [acquire]
  split <;> simp

@[simp] theorem registry_keepScope (slot : String) (id : Option String) (x : Session) :
    (x.keepScope slot id).2.supervisor.registry = x.supervisor.registry := by
  simp only [keepScope]
  split <;> simp

@[simp] theorem registry_keepListener (slot : String) (i : Nat) (x : Session) :
    (x.keepListener slot i).2.supervisor.registry = x.supervisor.registry := by
  simp only [keepListener]
  split <;> simp

/-! ## Actions -/

theorem leads_resolve (r : RecordRef) (x : Session) : x.Leads (x.resolve r).2 := by
  cases r with
  | named name => exact x.supervisor.leads_ensureRecord name
  | kept slot => exact leads_of_registry_eq rfl

theorem leads_changeRecord (id : Health.RecordId) (op : Health.Operation) (x : Session) :
    x.Leads (x.changeRecord id op).2 := by
  have h : (x.changeRecord id op).2 = x.modify (·.perform id op) := by
    cases op <;> rfl
  rw [h]
  exact x.supervisor.leads_perform id op

theorem leads_performSimple (a : Action) (x : Session) : x.Leads (x.performSimple a).2 := by
  cases a with
  | getOrCreate name => exact x.supervisor.leads_ensureRecord name
  | keep name slot => exact x.supervisor.leads_ensureRecord name
  | keepNew slot => exact x.supervisor.registry.leads_allocate
  | view r =>
      have h := x.leads_resolve r
      simp only [performSimple]
      split <;> simp_all [Leads]
  | change r op =>
      have h := x.leads_resolve r
      simp only [performSimple]
      split
      · exact Leads.trans (by simp_all) (leads_changeRecord _ _ _)
      · simp_all [Leads]
  | getTogether name threads =>
      simp only [performSimple]
      split
      · exact leads_of_registry_eq rfl
      · exact Supervisor.leads_ensureRecord { x.supervisor with thread := .initial } name
  | _ =>
      refine leads_of_registry_eq ?_
      simp only [performSimple]
      repeat' split
      all_goals simp

/-! ## Actions with actions within -/

theorem leads_onNewThread {α : Type} {f : Session → α × Session}
    (hf : ∀ x : Session, x.Leads (f x).2) (x : Session) : x.Leads (x.onNewThread f).2 :=
  hf { x.modify fun s => { s with thread := .initial } with guards := .empty }

/-- A run around a body that only makes calls only makes calls. -/
theorem leads_supervise {α : Type} (job : Descriptor) {body : Session → Ending α × Session}
    (hb : ∀ x : Session, x.Leads (body x).2) (x : Session) :
    x.Leads (supervise Session.supervisor withSupervisor job body x).2 := by
  have hbegin : x.supervisor.Leads (Run.begin job x.supervisor).2 := Run.leads_begin job _
  have hbody := hb (x.withSupervisor (Run.begin job x.supervisor).2)
  exact (hbegin.trans hbody).trans (Run.leads_settle _ _ _)

theorem leads_scriptedBody {body : Session → List Reply × Session} {x : Session}
    (hb : x.Leads (body x).2) (sleep : Duration) (ending : BodyEnd) :
    x.Leads (scriptedBody body sleep ending x).2 := by
  refine hb.trans (leads_of_registry_eq ?_)
  simp [scriptedBody]

theorem leads_runJob (job : Descriptor) {body : Session → List Reply × Session}
    (hb : ∀ x : Session, x.Leads (body x).2) (sleep : Duration) (ending : BodyEnd)
    (x : Session) : x.Leads (runJob job body sleep ending x).2 := by
  have h := leads_supervise job (fun y => leads_scriptedBody (hb y) sleep ending) x
  refine h.trans (leads_of_registry_eq ?_)
  simp [runJob]

mutual

/-- **An action changes the registry only by calls.** -/
theorem leads_perform (a : Action) (x : Session) : x.Leads (perform a x).2 := by
  cases a with
  | thread steps => exact leads_onNewThread (leads_performAll steps) x
  | run job body sleep ending => exact leads_runJob job (leads_performAll body) sleep ending x
  | _ => exact leads_performSimple _ x

/-- Actions one after the other change the registry only by calls. -/
theorem leads_performAll (as : List Action) (x : Session) : x.Leads (performAll as x).2 := by
  cases as with
  | nil => exact leads_of_registry_eq rfl
  | cons a rest => exact (leads_perform a x).trans (leads_performAll rest _)

end

end JobSupervisor.Session
