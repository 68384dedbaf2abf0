import JobSupervisor.Health.Registry

/-!
# The health of all jobs

The report lists the degraded jobs with their reasons.  It is made in two stages: the
named records are collected, and then a snapshot of each is taken, one after the other.
All jobs together are healthy exactly when no job is listed.

## Main definitions

* `Report` — the status and the reason of each degraded job.
* `Report.add` — what one snapshot contributes.
* `Registry.report` — the report over a registry at rest.
-/

namespace JobSupervisor.Health

/-- The degraded jobs and their reasons. -/
structure Report where
  details : NameMap String

namespace Report

/-- The report in which no job is degraded. -/
def clear : Report := ⟨.empty⟩

/-- What the snapshot of one job adds to a report. -/
def add (name : String) (s : Snapshot) (r : Report) : Report :=
  match s.status with
  | .healthy => r
  | .degraded => ⟨r.details.insert name (s.reason.getD "")⟩

/-- Healthy exactly when no job is listed. -/
def status (r : Report) : Status :=
  if r.details.toList.isEmpty then .healthy else .degraded

/-- Whether all jobs are healthy. -/
def isHealthy (r : Report) : Bool := r.status = .healthy

end Report

/-- The report over the records collected from a registry, one snapshot after another. -/
def Registry.report (g : Registry) : Report :=
  g.listing.foldl (fun r e => r.add e.1 (g.record e.2).snapshot) Report.clear

end JobSupervisor.Health
