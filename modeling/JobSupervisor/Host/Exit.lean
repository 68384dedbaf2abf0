import JobSupervisor.Text.Utf8

/-!
# How a process ended

A process ends with an exit code or is killed by a signal, which may leave a core dump.

## Main definitions

* `ExitStatus` — the two ways to end, with their texts.
* `Completion` — a process that ended, and what it wrote.
-/

namespace JobSupervisor.Host

/-- The signals by number, and their names without the common first part. -/
def signalNames : List (Nat × String) := [
  (1, "HUP"), (2, "INT"), (3, "QUIT"), (4, "ILL"), (5, "TRAP"), (6, "ABRT"), (7, "BUS"),
  (8, "FPE"), (9, "KILL"), (10, "USR1"), (11, "SEGV"), (12, "USR2"), (13, "PIPE"),
  (14, "ALRM"), (15, "TERM"), (16, "STKFLT"), (17, "CHLD"), (18, "CONT"), (19, "STOP"),
  (20, "TSTP"), (21, "TTIN"), (22, "TTOU"), (23, "URG"), (24, "XCPU"), (25, "XFSZ"),
  (26, "VTALRM"), (27, "PROF"), (28, "WINCH"), (29, "IO"), (30, "PWR"), (31, "SYS")]

/-- The signals that do not end a process which has made no arrangements for them. -/
def harmlessSignals : List Nat := [0, 17, 18, 19, 20, 21, 22, 23, 28]

/-- How a process ended. -/
inductive ExitStatus where
  | code (n : Nat)
  /-- A signal ended the process, and the process may have left a core dump. -/
  | signal (n : Nat) (dumped : Bool)
  deriving DecidableEq, Repr

namespace ExitStatus

/-- Whether a process ended well. -/
def succeeded (s : ExitStatus) : Bool := s = .code 0

/-- The text of a status. -/
def text : ExitStatus → String
  | .code n => "exit status: " ++ toString n
  | .signal n dumped =>
      let name := match signalNames.find? (·.1 = n) with
        | some (_, name) => " (SIG" ++ name ++ ")"
        | none => ""
      "signal: " ++ toString n ++ name ++ if dumped then " (core dumped)" else ""

/-- The status as a shell counts it. -/
def number : ExitStatus → Nat
  | .code n => n
  | .signal n _ => 128 + n

end ExitStatus

/-- A process that ended, and what it wrote. -/
structure Completion where
  status : ExitStatus
  output : List UInt8
  errors : List UInt8
  deriving DecidableEq, Repr

end JobSupervisor.Host
