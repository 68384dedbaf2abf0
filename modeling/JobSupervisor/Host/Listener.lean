import JobSupervisor.Host.Error
import JobSupervisor.Net.SocketAddress

/-!
# Listening on the host

The host lets a program listen at its own addresses, on a port that the host chooses.  No
program may choose a port.

## Main definitions

* `Listener.bind` — whether a program may listen at an address.
-/

namespace JobSupervisor.Host.Listener

open Net

/-- Whether an address is one of the host's own. -/
def isOwn : Literal → Bool
  | .v4 a b c d => a = 127 || (a = 0 && b = 0 && c = 0 && d = 0)
  | .v6 groups _ => groups.take 7 = List.replicate 7 0 && groups.drop 7 ∈ [[0], [1]]

/-- Whether a program may listen at an address. -/
def bind (a : SocketAddress) : Except IoError Unit :=
  if a.port ≠ 0 then .error .permissionDenied
  else if isOwn a.host then .ok ()
  else .error .addressNotAvailable

end JobSupervisor.Host.Listener
