import JobSupervisor.Http.Status
import JobSupervisor.Json.Reader

/-!
# What the client makes of a response

A response with a JSON body is shown with indentation whatever its status, and a status
that does not stand for success is shown as an error after it.  A body that is no JSON is
shown as an error.

## Main definitions

* `Transcript` — what the client writes, and its exit code.
* `present` — what the client makes of a response.
-/

namespace JobSupervisor.Client

/-- The lines that are written to the output and as errors, and the exit code. -/
structure Transcript where
  exit : Nat
  output : List String
  errors : List String
  deriving DecidableEq, Repr

/-- What the client makes of a response. -/
def present (status : Nat) (body : String) : Transcript :=
  match Json.parse? body with
  | some j =>
      if Http.isSuccess status then ⟨0, [j.indented], []⟩
      else ⟨1, [j.indented], ["Status: " ++ Http.statusText status]⟩
  | none =>
      ⟨0, [], ["Error: health endpoint returned status " ++ Http.statusText status,
        "Response: " ++ body]⟩

end JobSupervisor.Client
