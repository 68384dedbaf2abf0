import JobSupervisor.Config.Schema
import JobSupervisor.Host.Program
import JobSupervisor.Text.Prefix

/-!
# Jobs that run commands

A configured job runs a command, or is a heartbeat if it has none.  A command that does
not end well fails with the trimmed text of its error output, cut to a limit, or with its
exit status if nothing is left of that text.

## Main definitions

* `Command.reason` — why a command failed.
* `Command.runOn` — a command as a job body, on a host that starts programs in some way.
* `Command.run` — a command as a job body.
* `Config.JobEntry.body` — the body of a configured job.
-/

namespace JobSupervisor.Command

/-- The most bytes of error output that become a reason. -/
def reasonLimit : Nat := 512

/-- Why a command failed. -/
def reason (program : String) (status : Host.ExitStatus) (errors : List UInt8) : String :=
  let text := Text.trim (Text.Utf8.decodeLossy errors)
  if text.isEmpty then program ++ " exited with " ++ status.text
  else Text.truncate reasonLimit text

/-- The result of a command that ended. -/
def result (program : String) (status : Host.ExitStatus) (errors : List UInt8) :
    Except JobError Unit :=
  if status.succeeded then .ok () else .error (.failed (reason program status errors))

/-- How a host starts a program with its arguments: how it ends and how long it takes, or why
it does not start. -/
abbrev Starter := String → List String → Except Host.IoError (Host.Completion × Duration)

/-- A command as a job body, on a host that starts programs in some way. -/
def runOn (start : Starter) (program : String) (args : List String) (s : Supervisor) :
    Except JobError Unit × Supervisor :=
  let s := s.emit (.commandRunning program args)
  match start program args with
  | .error e => (.error (.io e), s)
  | .ok (c, elapsed) => (result program c.status c.errors, s.elapse elapsed)

/-- A command as a job body. -/
def run (program : String) (args : List String) (s : Supervisor) :
    Except JobError Unit × Supervisor :=
  runOn Host.Program.run program args s

end JobSupervisor.Command

namespace JobSupervisor.Config

/-- The body of a configured job. -/
def JobEntry.body (j : JobEntry) (s : Supervisor) : Except JobError Unit × Supervisor :=
  match j.command with
  | program :: args => Command.run program args s
  | [] => (.ok (), s)

end JobSupervisor.Config
