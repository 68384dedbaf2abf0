import JobSupervisor.Job.Run
import JobSupervisor.Proofs.ThreadScopes

/-!
# Runs on a thread, one within another

The body of a run may use scopes, do anything else on its thread, and make further runs.  The
scopes are seen by reading the identifier in effect: at the beginning of a body, after each of
its moves, after every run within it, and while the guards that it left open are dropped at its
end.  A body starts without guards, so that it cannot drop those of its caller.

## Main definitions

* `Activity` — moves of a thread and runs on it, with what their bodies do.
* `WatchedThread` — a thread with the identifiers that were seen on it.
* `WatchedThread.around` — a whole run, as `supervise` makes it.
* `Activity.perform`, `Activity.sights` — performing an activity, and what its outermost runs see.
-/

namespace JobSupervisor

/-- What a thread does: moves and whole runs, one after the other.  Of a run it is given what
its body does and how the body ends. -/
inductive Activity where
  | done
  | move (m : ScopedThread.Move) (next : Activity)
  | run (job : Descriptor) (body : Activity) (ending : Ending String) (next : Activity)

namespace Activity

/-- Scopes are used at most through guards, in bodies as well. -/
def ViaGuards : Activity → Prop
  | .done => True
  | .move m next => m.ViaGuards ∧ next.ViaGuards
  | .run _ body _ next => body.ViaGuards ∧ next.ViaGuards

/-- The bodies of runs use scopes at most through guards; outside of runs there is no such
restriction. -/
def Orderly : Activity → Prop
  | .done => True
  | .move _ next => next.Orderly
  | .run _ body _ next => body.ViaGuards ∧ next.Orderly

end Activity

/-- A thread with the identifiers that were seen in effect on it, in the order of seeing. -/
structure WatchedThread where
  thread : ScopedThread
  seen : List (Option String)

namespace WatchedThread

/-- The supervisor as it is seen from the thread. -/
def supervisor (w : WatchedThread) : Supervisor := w.thread.supervisor

/-- Puts a supervisor in the place of that of the thread. -/
def withSupervisor (v : Supervisor) (w : WatchedThread) : WatchedThread :=
  { w with thread.supervisor := v }

/-- Reads the identifier in effect. -/
def look (w : WatchedThread) : WatchedThread :=
  { w with seen := w.seen ++ [w.thread.current] }

/-- Performs a move and looks. -/
def step (m : ScopedThread.Move) (w : WatchedThread) : WatchedThread :=
  look { w with thread := w.thread.step m }

/-- Drops the first `n` guards, the last one of them first. -/
def dropGuards : Nat → WatchedThread → WatchedThread
  | 0, w => w
  | n + 1, w => (w.step (.dropGuard n)).dropGuards n

/-- What every end of a body does with the guards that are still open. -/
def unwind (w : WatchedThread) : WatchedThread := w.dropGuards w.thread.guards.length

/-- A whole run around a body.  The guards of the caller wait until the run is over. -/
def around (job : Descriptor) (ending : Ending String) (body : WatchedThread → WatchedThread)
    (w : WatchedThread) : WatchedThread :=
  let inner (w : WatchedThread) : Ending String × WatchedThread :=
    (ending, unwind (body (look { w with thread.guards := [] })))
  { (supervise supervisor withSupervisor job inner w).2 with thread.guards := w.thread.guards }

end WatchedThread

namespace Activity

/-- Performs an activity. -/
def perform : Activity → WatchedThread → WatchedThread
  | .done, w => w
  | .move m next, w => next.perform (w.step m)
  | .run job body ending next, w => next.perform (w.around job ending body.perform).look

/-- For every run that an activity begins while no scope is open, the identifiers that are seen
in it. -/
def sights : Activity → WatchedThread → List (List (Option String))
  | .done, _ => []
  | .move m next, w => next.sights (w.step m)
  | .run job body ending next, w =>
      let later := next.sights (w.around job ending body.perform).look
      if w.thread.depth = 0 then
        (WatchedThread.around job ending body.perform ⟨w.thread, []⟩).seen :: later
      else later

end Activity

end JobSupervisor
