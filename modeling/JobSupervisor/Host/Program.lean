import JobSupervisor.Host.Error
import JobSupervisor.Host.Shell.Run

/-!
# Programs of the host

A program is found by its name in the directories that are searched, or by its path.  A
file that is no program may not be run, and a zero byte ends every attempt before it
begins.

## Main definitions

* `Program.run` — how a program ends, or why it does not start.
-/

namespace JobSupervisor.Host.Program

/-- Whether a text has a zero byte. -/
def hasZero (s : String) : Bool := s.toList.any fun c => c.toNat = 0

/-- Whether a path lies under another one. -/
def under (file path : String) : Bool := (file ++ "/").toList.isPrefixOf path.toList

/-- The most bytes of a name within a path. -/
def nameLimit : Nat := 255

/-- The files that exist and are no programs. -/
def plainFiles : List String := ["/etc/passwd", "/etc/group", "/etc/hosts", "/etc/hostname",
  "/etc/resolv.conf", "/dev/null", "/dev/zero"]

/-- Whether the name of a program in the searched directories stands for a directory. -/
def isSearchedDirectory (program : String) : Bool := program = "." || program = ".."

/-- Whether a path has a directory part that exists, so that its last name counts. -/
def isPlaced (program : String) : Bool :=
  Shell.directoryOf program = "." || Shell.Builtin.directories.contains (Shell.directoryOf program)

/-- Whether a name is longer than any that a file can have. -/
def isOverlong (program : String) : Bool :=
  4095 < program.utf8ByteSize ||
    (isPlaced program && nameLimit < ((program.splitOn "/").getLast?.getD "").utf8ByteSize)

/-- Why a name that is no program does not start. -/
def missing (program : String) : IoError :=
  if isOverlong program then .nameTooLong
  else if isSearchedDirectory program || plainFiles.contains program ||
    Shell.Builtin.directories.contains program then .permissionDenied
  else if plainFiles.any fun file => under file program then .notADirectory
  else .notFound

/-- How a program ends and how long it takes, or why it does not start. -/
def run (program : String) (args : List String) : Except IoError (Completion × Duration) :=
  if (program :: args).any hasZero then .error .zeroByte
  else
    match Shell.process? program args with
    | some ended => .ok ended
    | none => .error (missing program)

end JobSupervisor.Host.Program
