import JobSupervisor.Host.Program

/-!
# Files of the host

The host has a few directories, an empty device and one regular file; there is nothing
else that could be read.

## Main definitions

* `File.read` — the bytes of a file, or why they cannot be read.
-/

namespace JobSupervisor.Host.File

/-- The directories of the host. -/
def directories : List String :=
  Shell.Builtin.directories ++ [".", "..", "/boot", "/home", "/lib", "/media", "/mnt", "/opt",
    "/proc", "/root", "/run", "/sbin", "/srv", "/sys", "/usr/lib", "/usr/local", "/usr/sbin",
    "/usr/share", "/var", "/var/log", "/var/tmp"]

/-- A path without slashes at its end, unless it is the root. -/
def withoutEndingSlashes (path : String) : String :=
  let kept := (path.toList.reverse.dropWhile (· = '/')).reverse
  if kept.isEmpty then "/" else String.ofList kept

/-- The regular file of the host. -/
def accounts : String := "/etc/passwd"

/-- The first line of the regular file. -/
def accountsText : String := "root:x:0:0:root:/root:/bin/bash\n"

/-- The bytes of a file. -/
def read (path : String) : Except IoError (List UInt8) :=
  if directories.contains (withoutEndingSlashes path) then .error .isADirectory
  else if path = "/dev/null" then .ok []
  else if path = accounts then .ok (Text.Utf8.encode accountsText)
  else if Program.under accounts path || Program.under "/dev/null" path then
    .error .notADirectory
  else .error .notFound

end JobSupervisor.Host.File
