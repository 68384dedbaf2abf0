import JobSupervisor.Host.Error

/-!
# Job errors

The errors of job bodies and of the scheduler, with their texts.

## Main definitions

* `JobError` — what can go wrong.
* `JobError.message` — the text of each error.
-/

namespace JobSupervisor

/-- What can go wrong in a job body or in the scheduler. -/
inductive JobError where
  /-- The job ran and reported a failure. -/
  | failed (text : String)
  /-- The job could not be started or its output could not be read. -/
  | io (e : Host.IoError)
  /-- No job of this name is registered. -/
  | unknownJob (name : String)
  /-- The schedule of the job cannot be kept. -/
  | invalidSchedule (job reason : String)
  deriving DecidableEq, Repr

/-- The text of a job error. -/
def JobError.message : JobError → String
  | .failed text => text
  | .io e => "I/O error: " ++ e.message
  | .unknownJob name => "unknown job: " ++ name
  | .invalidSchedule job reason => "invalid schedule for job " ++ job ++ ": " ++ reason

end JobSupervisor
