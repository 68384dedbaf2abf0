import JobSupervisor.Proofs.DaemonFleet
import JobSupervisor.Proofs.StopSystem

/-!
# The order in which the daemon stops

The daemon waits for its loops before it waits for its endpoint, but that is the order in which
it notices the ends, not the order in which they come.  The endpoint listens to the same shutdown
as the loops and refuses connections from its first look after the stop signal on, also while
runs are in flight, whose health can then no longer be asked for.

## Main definitions

* `Daemon.Serves` — a session that has started is the system of its main task, its loops and its
  endpoint.
* `Daemon.stop_order` — which orders of the steps keep the endpoint open until the loops have
  ended.
-/

namespace JobSupervisor.Daemon

open Config Session

variable {c : Configuration}

/-- A session has the loops, the shutdown and the time of a system. -/
structure Serves (y : Session) (s : StopSystem Work) : Prop where
  loops : y.loops.map (·.loop) = s.loops.tasks.map (·.loop)
  shutdown : y.shutdownAt 0 = s.loops.shutdown
  now : y.now = s.loops.clock

/-- The daemon that serves its endpoint has the loops of its scheduler, and the endpoint has
subscribed to their shutdown. -/
theorem serves_serve {x : Session} (h : prepare c = .ok x) (hx : Prepared c x)
    (address : String) :
    Serves (serve address (x.startLoops 0).2) (StopSystem.start x.scheduler x.now) where
  loops := loops_startLoops h hx
  shutdown := by
    have hshutdowns : x.shutdowns = [.new] := (keeps_prepare h).shutdowns
    simp [serve, startLoops, askShutdown, shutdownAt, emit, Session.modify, withSupervisor,
      hshutdowns, StopSystem.start, LoopSystem.step, LoopSystem.initial]
  now := rfl

/-- If the daemon serves an endpoint, it has started only with that. -/
theorem serves_start (henabled : c.health.enabled = true) {x y : Session}
    (h : prepare c = .ok x) (hx : Prepared c x) (hy : start c = .ok y) :
    Serves y (StopSystem.start x.scheduler x.now) := by
  simp only [start, h, henabled, if_true] at hy
  split at hy
  · obtain rfl := Except.ok.inj hy
    exact serves_serve h hx _
  · contradiction

/-- The daemon has no loop exactly if no job is enabled. -/
theorem jobs_eq_nil_iff {x : Session} (hx : Prepared c x) :
    x.scheduler.jobs = [] ↔ ∀ j ∈ c.jobs, j.enabled = false := by
  simp [hx.scheduler, enabledJobs, List.filter_eq_nil_iff]

/-- **The order in which the daemon stops.**  Take a configuration that was accepted and serves
an endpoint, and any order of the steps of main, the loops, their runs and the endpoint.  The
endpoint accepts connections until the stop signal, and the first time that it looks at the
shutdown after that it refuses them from then on, whatever the loops are doing.  So it refuses no
connection before every loop has ended exactly if every loop has ended whenever it looks after
the signal; nothing sees to that, and only a daemon without a loop keeps this order under all
orders of the steps.  Main is done only when every loop has ended and the endpoint has
stopped. -/
theorem stop_order (hc : c.violations = []) (henabled : c.health.enabled = true) :
    ∃ x, prepare c = .ok x ∧
      let s := StopSystem.start x.scheduler x.now
      (∀ y, start c = .ok y → Serves y s) ∧
      (∀ moves,
        ((s.run moves).main = .waiting → (s.run moves).endpoint.accepts = true) ∧
        ((s.run moves).main ≠ .waiting →
          ∀ later, (((s.run moves).step .poll).run later).endpoint.accepts = false) ∧
        ((s.run moves).main = .done →
          (s.run moves).loops.AllEnded ∧ (s.run moves).endpoint = .stopped) ∧
        (s.InOrder moves ↔ s.PollsLast moves)) ∧
      ((∀ moves, s.InOrder moves) ↔ ∀ j ∈ c.jobs, j.enabled = false) := by
  obtain ⟨x, hx, hprepared⟩ := prepare_of_valid ((Configuration.violations_eq_nil_iff c).1 hc)
  have hstart := StopSystem.sound_start x.scheduler x.now
  refine ⟨x, hx, fun y hy => serves_start henabled hx hprepared hy, fun moves => ?_, ?_⟩
  · have hsound := hstart.run moves
    exact ⟨hsound.accepts, hsound.refuses_poll, hsound.ended_of_done,
      hstart.inOrder_iff (StopSystem.orderly_start _ _) moves⟩
  · exact (StopSystem.forall_inOrder_iff _ _).trans (jobs_eq_nil_iff hprepared)

/-- A daemon with one job that runs every minute, and with an endpoint. -/
def everyMinuteServed : Configuration :=
  { everyMinute with health := ⟨true, "127.0.0.1:0"⟩ }

/-- The stop signal comes during a run of the job, and the endpoint looks at the shutdown before
the run is over. -/
def signalMidRun : List StopSystem.Move := [.loop (.select 0 true), .signal, .poll]

/-- The daemon starts, and its endpoint refuses a connection while the run is in flight. -/
theorem refuses_mid_run :
    everyMinuteServed.violations = [] ∧ everyMinuteServed.health.enabled = true ∧
      ∃ x y, prepare everyMinuteServed = .ok x ∧ start everyMinuteServed = .ok y ∧
        let s := StopSystem.start x.scheduler x.now
        Serves y s ∧ ¬ s.InOrder signalMidRun ∧
        (s.run signalMidRun).loops.tasks.map (·.running) = [true] ∧
        ((s.run signalMidRun).step .connect).connections = 0 := by
  have hc : everyMinuteServed.violations = [] := by decide +kernel
  have hstop : (prepare everyMinuteServed).toOption.map (fun x =>
      let s := StopSystem.start x.scheduler x.now
      (decide (s.InOrder signalMidRun), (s.run signalMidRun).loops.tasks.map (·.running),
        ((s.run signalMidRun).step .connect).connections)) = some (false, [true], 0) := by
    decide +kernel
  obtain ⟨x, hx, hprepared⟩ := prepare_of_valid ((Configuration.violations_eq_nil_iff _).1 hc)
  cases hy : start everyMinuteServed with
  | error e =>
      have hstart : (start everyMinuteServed).toOption.isSome = true := by decide +kernel
      simp [hy, Except.toOption] at hstart
  | ok y =>
      rw [hx] at hstop
      obtain ⟨horder, hstop⟩ := Prod.mk.inj (Option.some.inj hstop)
      obtain ⟨hrunning, hconnections⟩ := Prod.mk.inj hstop
      exact ⟨hc, rfl, x, y, hx, rfl, serves_start rfl hx hprepared hy, of_decide_eq_false horder,
        hrunning, hconnections⟩

/-- The run ends and the loop stops before the endpoint looks at the shutdown; a connection that
was accepted meanwhile is served. -/
def patientStop : List StopSystem.Move :=
  [.loop (.select 0 true), .signal, .connect, .loop (.finish 0 .ran), .loop (.select 0 true),
    .join, .join, .poll, .disconnect, .close, .join]

/-- An endpoint that looks late keeps the order, and main is done in the end. -/
theorem stop_order_patient :
    everyMinuteServed.violations = [] ∧ everyMinuteServed.health.enabled = true ∧
      ∃ x, prepare everyMinuteServed = .ok x ∧
        let s := StopSystem.start x.scheduler x.now
        s.PollsLast patientStop ∧ (s.run patientStop).loops.AllEnded ∧
        (s.run patientStop).endpoint = .stopped ∧ ¬ ∀ moves, s.InOrder moves := by
  have hc : everyMinuteServed.violations = [] := by decide +kernel
  have hstop : (prepare everyMinuteServed).toOption.map (fun x =>
      let s := StopSystem.start x.scheduler x.now
      (decide (s.InOrder patientStop), (s.run patientStop).main)) = some (true, .done) := by
    decide +kernel
  obtain ⟨x, hx, -, horders, hall⟩ := stop_order hc rfl
  rw [hx] at hstop
  obtain ⟨horder, hmain⟩ := Prod.mk.inj (Option.some.inj hstop)
  obtain ⟨-, -, hdone, hiff⟩ := horders patientStop
  obtain ⟨hended, hstopped⟩ := hdone hmain
  refine ⟨hc, rfl, x, hx, hiff.1 (of_decide_eq_true horder), hended, hstopped, fun h => ?_⟩
  exact Bool.false_ne_true (hall.1 h _ (List.mem_singleton_self _)).symm

end JobSupervisor.Daemon
