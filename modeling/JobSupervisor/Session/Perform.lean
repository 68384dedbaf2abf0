import JobSupervisor.Session.State

/-!
# Performing actions

Each action changes the session and has an answer.  A run and a further thread perform
their own actions in between; a further thread has a context of its own, and its open
scopes go away with it.

## Main definitions

* `Session.perform`, `Session.performAll` — one action, and actions one after the other.
* `Session.work` — the body of a scheduled job.
-/

namespace JobSupervisor.Session

/-- Performs an operation on a record and shows it. -/
def changeRecord (id : Health.RecordId) (op : Health.Operation) (x : Session) :
    Reply × Session :=
  let x' := x.modify (·.perform id op)
  let v := x'.viewOf id
  match op.answer? (x.supervisor.record id) with
  | some answer => (.healed v answer, x')
  | none => (.record v, x')

/-- Keeps a scope in a slot; a scope kept there before is closed after that.  The answer
shows the identifier before, and the context after that scope is closed. -/
def keepScope (slot : String) (id : Option String) (x : Session) : Reply × Session :=
  let (created, x) := x.ask (·.enterScope id)
  let identifier := x.supervisor.correlation
  let old := x.guards.contains slot
  let x := { x with guards := x.guards.insert slot created }
  let x := if old then x.modify fun s => s.exitScope.2 else x
  (.context (.scope created identifier) x.contextView, x)

/-- Keeps a granted lease in a slot; a lease kept there before is given back after that. -/
def keepLease (slot : String) (l : Lease) (x : Session) : Session :=
  let old := x.leases.get? slot
  let x := { x with leases := x.leases.insert slot l }
  match old with
  | some l => x.modify (·.giveBack l)
  | none => x

/-- The text of the panic over a lease that is too long for the clock. -/
def overflowText : String := "overflow when adding duration to instant"

/-- Asks for a lease and keeps it. -/
def acquire (policy : LockPolicy) (name : String) (lease : Duration) (slot : String)
    (x : Session) : Reply × Session :=
  let (answer, x) := x.ask (policy.tryAcquire name lease)
  match answer with
  | .overflow => (.panicked overflowText, x)
  | .denied => (.lease none (x.supervisor.isHeld name), x)
  | .granted l =>
      let x := x.keepLease slot l
      (.lease l (x.supervisor.isHeld name), x)

/-- A listener that is kept in a slot. -/
def keepListener (slot : String) (i : Nat) (x : Session) : Reply × Session :=
  let (id, x) := x.askShutdown i Shutdown.subscribe
  let old := x.listeners.get? slot
  let x := { x with listeners := x.listeners.insert slot (i, id) }
  let x := match old with
    | some (j, id) => (x.askShutdown j fun sd => ((), sd.dropListener id)).2
    | none => x
  (.count (x.shutdownAt i).receivers, x)

/-- What is seen of a shutdown. -/
def shutdownView (i : Nat) (x : Session) : Reply :=
  .shutdown (x.shutdownAt i).triggered (x.shutdownAt i).receivers

/-- The plan of a configured job. -/
def planOf (j : Config.JobEntry) : JobPlan := ⟨j.descriptor, j.interval, j.initialDelay⟩

/-- Performs an action that has no actions within. -/
def performSimple (a : Action) (x : Session) : Reply × Session :=
  match a with
  | .getOrCreate name =>
      let (id, x) := x.ask (·.ensureRecord name)
      (.record (x.viewOf id), x)
  | .get name => (.record (x.viewOfName name), x)
  | .keep name slot =>
      let (id, x) := x.ask (·.ensureRecord name)
      (.record (x.viewOf id), { x with records := x.records.insert slot id })
  | .keepNew slot =>
      let (id, g) := x.supervisor.registry.allocate
      let x := x.modify fun s => { s with registry := g }
      (.record (x.viewOf id), { x with records := x.records.insert slot id })
  | .same a b =>
      match x.records.get? a, x.records.get? b with
      | some m, some n => (.flag (m = n), x)
      | _, _ => x.fault
  | .view r =>
      match x.resolve r with
      | (some id, x) => (.record (x.viewOf id), x)
      | (none, x) => x.fault
  | .change r op =>
      match x.resolve r with
      | (some id, x) => x.changeRecord id op
      | (none, x) => x.fault
  | .aggregate => (.report x.supervisor.report, x)
  | .list =>
      (.listing (x.supervisor.registry.listing.map fun e => (e.1, x.viewOf e.2)), x)
  | .names => (.names x.supervisor.registry.names, x)
  | .size => (.size x.supervisor.registry.size, x)
  | .getTogether name threads =>
      let ask (s : Supervisor) : Unit × Supervisor := ((), (s.ensureRecord name).2)
      let x := if threads = 0 then x
        else x.modify fun s => (s.onThread Thread.initial ask).2.2
      (.together true x.supervisor.registry.size, x)
  | .enter id =>
      let (created, x) := x.ask (·.enterScope id)
      (.context (.flag created) x.contextView, x)
  | .exit =>
      let (cleared, x) := x.ask (·.exitScope)
      (.context (.flag cleared) x.contextView, x)
  | .context => (.context .nothing x.contextView, x)
  | .openScope slot id => x.keepScope slot id
  | .scopeId slot =>
      match x.guards.get? slot with
      | some created => (.context (.scope created x.supervisor.correlation) x.contextView, x)
      | none => x.fault
  | .dropScope slot =>
      let existed := x.guards.contains slot
      let x := { x with guards := x.guards.erase slot }
      let x := if existed then x.modify fun s => s.exitScope.2 else x
      (.context (.flag existed) x.contextView, x)
  | .put key value =>
      let x := x.modify fun s => s.withContext (s.thread.context.put key value)
      (.entries x.supervisor.thread.context.snapshot, x)
  | .lookUp key => (.optionalText (x.supervisor.thread.context.diagnostics.get? key), x)
  | .remove key =>
      let (value, c) := x.supervisor.thread.context.remove key
      (.removed value c.snapshot, x.modify (·.withContext c))
  | .snapshot => (.entries x.supervisor.thread.context.snapshot, x)
  | .command program args =>
      let (r, x) := x.ask (Command.run program args)
      (.command r, x)
  | .configuredBody j =>
      let (r, x) := x.ask j.body
      let same := j.descriptor = Config.JobEntry.default.descriptor
      (.configuredBody (planOf j) same r, x)
  | .acquire policy name lease slot => x.acquire policy name lease slot
  | .release slot =>
      match x.leases.get? slot with
      | some l =>
          (.flag true, { x.modify (·.giveBack l) with leases := x.leases.erase slot })
      | none => (.flag false, x)
  | .isHeld name => (.flag (x.supervisor.isHeld name), x)
  | .sleep d => (.nothing, x.modify (·.elapse d))
  | .newShutdown =>
      let x := match x.coordinator with
        | some i => (x.askShutdown i fun sd => ((), sd.dropCoordinator)).2
        | none => x
      (.nothing, { x with shutdowns := x.shutdowns ++ [.new],
                          coordinator := some x.shutdowns.length })
  | .dropCoordinator =>
      match x.coordinator with
      | some i =>
          let (_, x) := x.askShutdown i fun sd => ((), sd.dropCoordinator)
          (.flag true, { x with coordinator := none })
      | none => (.flag false, x)
  | .subscribe slot =>
      match x.coordinator with
      | some i => x.keepListener slot i
      | none => x.fault
  | .trigger =>
      match x.coordinator with
      | some i =>
          let x := x.triggerShutdown i
          (x.shutdownView i, x)
      | none => x.fault
  | .shutdownState =>
      match x.coordinator with
      | some i => (x.shutdownView i, x)
      | none => x.fault
  | .poll slot =>
      match x.listeners.get? slot with
      | some (i, id) =>
          let (ready, x) := x.askShutdown i (·.poll id)
          (.poll ready (x.shutdownAt i).triggered, x)
      | none => x.fault
  | .dropListener slot =>
      match x.listeners.get? slot with
      | some (i, id) =>
          let (_, x) := x.askShutdown i fun sd => ((), sd.dropListener id)
          (.flag true, { x with listeners := x.listeners.erase slot })
      | none => (.flag false, x)
  | .metrics => (.samples x.supervisor.metrics, x)
  | .installLogging => (.nothing, x.modify (·.emit .subscriberPresent))
  | .calls => (.calls x.calls, x)
  | .thread _ | .run .. | .impossible => x.fault

/-- Performs something on a further thread, with a context and open scopes of its own. -/
def onNewThread {α : Type} (f : Session → α × Session) (x : Session) : α × Session :=
  let thread := x.supervisor.thread
  let guards := x.guards
  let inside := { x.modify fun s => { s with thread := .initial } with guards := .empty }
  let (a, y) := f inside
  (a, { y.modify fun s => { s with thread := thread } with guards := guards })

/-- A body that performs the actions of `body`, lets time pass and ends as it is told. -/
def scriptedBody (body : Session → List Reply × Session) (sleep : Duration)
    (ending : BodyEnd) (x : Session) : Ending String × Session :=
  let (replies, x) := body x
  (ending.ending, (x.elapse sleep).pushBody replies)

/-- A run around a body whose actions `body` performs. -/
def runJob (job : Descriptor) (body : Session → List Reply × Session) (sleep : Duration)
    (ending : BodyEnd) (x : Session) : Reply × Session :=
  let (value, x) :=
    supervise Session.supervisor withSupervisor job (scriptedBody body sleep ending) x
  let (replies, x) := x.popBody
  (.run value replies (x.viewOfName job.name) x.contextView, x)

mutual

/-- Performs an action. -/
def perform (a : Action) (x : Session) : Reply × Session :=
  match a with
  | .thread steps =>
      let (replies, x) := x.onNewThread (performAll steps)
      (.thread replies, x)
  | .run job body sleep ending => x.runJob job (performAll body) sleep ending
  | a => x.performSimple a

/-- Performs actions one after the other. -/
def performAll (as : List Action) (x : Session) : List Reply × Session :=
  match as with
  | [] => ([], x)
  | a :: rest =>
      let (r, x) := perform a x
      let (rs, x) := performAll rest x
      (r :: rs, x)

end

/-- How the call of a script after `n` others ends; without a list it succeeds. -/
def endAfter (n : Nat) (ends : List BodyEnd) : BodyEnd :=
  (ends[n]?.or ends.getLast?).getD (.success "null")

/-- The body of a scheduled job.  Only the calls of scripts are counted and only their
answers are kept. -/
def work (name : String) (w : Work) (x : Session) : Ending Unit × Session :=
  match w with
  | .scripted body sleep ends =>
      let (n, x) := x.countCall name
      let (replies, x) := performAll body x.swapGuards
      let x := x.swapGuards.elapse sleep
      ((endAfter n ends).silentEnding, if replies.isEmpty then x else x.pushBody replies)
  | .configured j =>
      let (r, x) := x.ask j.body
      let ending : Ending Unit := match r with
        | .ok () => .value ()
        | .error e => .error e.message
      (ending, x.elapse ⟨0⟩)

end JobSupervisor.Session
