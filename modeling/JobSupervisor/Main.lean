import JobSupervisor.Daemon.Run

/-!
# The command line

Runs the daemon on the real arguments, the real environment and the real file of its
configuration, from its start to its orderly stop, and writes its log.
-/

namespace JobSupervisor.CommandLine

/-- Why a file could not be read. -/
def reasonOf : IO.Error → Host.IoError
  | .noFileOrDirectory .. => .notFound
  | .permissionDenied .. => .permissionDenied
  | .inappropriateType .. => .isADirectory
  | .otherError code _ => .numbered code.toNat
  | e => .described (toString e)

/-- The bytes of a file, or why they could not be read. -/
def readFile (path : String) : IO (Except Host.IoError (List UInt8)) := do
  try
    let bytes ← IO.FS.readBinFile path
    return .ok bytes.toList
  catch e => return .error (reasonOf e)

/-- What the daemon finds around it. -/
def surroundings (args : List String) : IO Daemon.Surroundings := do
  let path ← IO.getEnv "JOB_SENTINEL_CONFIG"
  let filter ← IO.getEnv "RUST_LOG"
  let s : Daemon.Surroundings := ⟨args, path, filter, fun _ => .error .notFound⟩
  match s.order? with
  | some (.run (some file)) =>
      let content ← readFile file
      return { s with read := fun _ => content }
  | _ => return s

/-- Writes what came of a run and gives the exit code. -/
def report (e : Daemon.Ending) : IO UInt32 := do
  for line in e.errors do
    IO.eprintln line
  for entry in e.entries do
    IO.println (entry.line (e.format.getD .pretty))
  return e.exit.toUInt32

end JobSupervisor.CommandLine

open JobSupervisor in
/-- Runs the daemon. -/
def main (args : List String) : IO UInt32 := do
  let s ← CommandLine.surroundings args
  match Daemon.run? s ⟨[], [], .terminate⟩ with
  | some e => CommandLine.report e
  | none => return 1
