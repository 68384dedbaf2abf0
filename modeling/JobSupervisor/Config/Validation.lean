import JobSupervisor.Config.Schema
import JobSupervisor.Net.SocketAddress

/-!
# The rules for configurations

A configuration may be used if every job has a name of its own, nothing that has to pass
takes no time, and every address that is used is an address.  All violations are reported,
those of the jobs first and in the order of the jobs.  A job without a name is not
examined further.  Disabled jobs are examined like enabled ones, but the addresses of
disabled sections are not.

## Main definitions

* `Violation` — a broken rule, with its text.
* `Configuration.violations` — the broken rules in order.
* `Configuration.Valid` — the rules themselves.
-/

namespace JobSupervisor.Config

/-- The fields that hold addresses. -/
inductive AddressField where
  | health
  | metrics
  deriving DecidableEq, Repr

/-- The path of a field that holds an address. -/
def AddressField.path : AddressField → String
  | .health => "health.bind_address"
  | .metrics => "observability.metrics_address"

/-- A broken rule. -/
inductive Violation where
  | emptyJobName (index : Nat)
  | duplicateJobName (job : String)
  | zeroInterval (job : String)
  | zeroBudget (job : String)
  | zeroLease
  | invalidAddress (field : AddressField) (value : String)
  deriving DecidableEq, Repr

namespace Violation

/-- The text of a violation. -/
def message : Violation → String
  | .emptyJobName index => "job #" ++ toString index ++ " has an empty name"
  | .duplicateJobName job => "job '" ++ job ++ "' is defined more than once"
  | .zeroInterval job => "job '" ++ job ++ "' has a zero interval"
  | .zeroBudget job => "job '" ++ job ++ "' has a zero execution budget"
  | .zeroLease => "lock lease must be greater than zero"
  | .invalidAddress field value =>
      "invalid " ++ field.path ++ " address '" ++ value ++ "'"

/-- The violation with its parts, as the daemon prints it. -/
def detail : Violation → String
  | .emptyJobName index => "EmptyJobName(" ++ toString index ++ ")"
  | .duplicateJobName job => "DuplicateJobName(" ++ Text.quoted job ++ ")"
  | .zeroInterval job => "ZeroInterval(" ++ Text.quoted job ++ ")"
  | .zeroBudget job => "ZeroBudget(" ++ Text.quoted job ++ ")"
  | .zeroLease => "ZeroLease"
  | .invalidAddress field value =>
      "InvalidAddress \x7b field: " ++ Text.quoted field.path ++ ", value: " ++
        Text.quoted value ++ " \x7d"

end Violation

/-- The violations of a job with a name; `earlier` are the names before it. -/
def JobEntry.violations (earlier : List String) (j : JobEntry) : List Violation :=
  (if j.name ∈ earlier then [.duplicateJobName j.name] else []) ++
    (if j.intervalSecs = 0 then [.zeroInterval j.name] else []) ++
    (if j.maxExecutionSecs = 0 then [.zeroBudget j.name] else [])

/-- The violations of jobs from an index on; `earlier` are the names before them. -/
def jobViolations (earlier : List String) : Nat → List JobEntry → List Violation
  | _, [] => []
  | index, j :: rest =>
      if (Text.trim j.name).isEmpty then
        .emptyJobName index :: jobViolations earlier (index + 1) rest
      else j.violations earlier ++ jobViolations (j.name :: earlier) (index + 1) rest

/-- The violation of the lock section. -/
def LockSettings.violations (l : LockSettings) : List Violation :=
  if l.enabled && l.leaseSecs = 0 then [.zeroLease] else []

/-- The violation of an address that is used only if its section is enabled. -/
def addressViolations (field : AddressField) (enabled : Bool) (value : String) :
    List Violation :=
  if enabled && !Net.SocketAddress.isLiteral value then [.invalidAddress field value] else []

end JobSupervisor.Config

namespace JobSupervisor.Configuration

open Config

/-- The broken rules in order. -/
def violations (c : Configuration) : List Violation :=
  jobViolations [] 0 c.jobs ++ c.lock.violations ++
    addressViolations .health c.health.enabled c.health.bindAddress ++
    addressViolations .metrics c.observability.metricsEnabled c.observability.metricsAddress

/-- The rules of a configuration. -/
structure Valid (c : Configuration) : Prop where
  named : ∀ j ∈ c.jobs, ¬Text.IsBlank j.name
  distinct : (c.jobs.map JobEntry.name).Nodup
  interval_pos : ∀ j ∈ c.jobs, 0 < j.intervalSecs
  budget_pos : ∀ j ∈ c.jobs, 0 < j.maxExecutionSecs
  lease_pos : c.lock.enabled = true → 0 < c.lock.leaseSecs
  bind_address : c.health.enabled = true →
    (Net.SocketAddress.parse? c.health.bindAddress).isSome = true
  metrics_address : c.observability.metricsEnabled = true →
    (Net.SocketAddress.parse? c.observability.metricsAddress).isSome = true

end JobSupervisor.Configuration
