import JobSupervisor.Client.Answer
import JobSupervisor.Client.Order
import JobSupervisor.Http.Endpoint
import JobSupervisor.Net.Url

/-!
# The client and a supervisor

The client turns a query into a request for a web address, which is the base address with
the path of the query behind it.  There is no request for an address that is too long.  Over
a network on which a supervisor serves its health endpoint the request is answered; without
a network no request is.

## Main definitions

* `Network` — what can be reached.
* `url?` — the address that is asked for.
* `requestFor?` — the request for an address.
* `run` — a whole run of the client.
-/

namespace JobSupervisor.Client

/-- What a client can reach: nothing, or a supervisor under a host and a port. -/
inductive Network where
  | isolated
  | serving (host : String) (port : Nat)
  deriving DecidableEq, Repr

/-- How a run of the client ends. -/
inductive Outcome where
  /-- The arguments cannot be understood. -/
  | misuse
  | help
  /-- There was no response. -/
  | unanswered
  | finished (t : Transcript)
  deriving DecidableEq, Repr

/-- The address of a query. -/
def url? (base : String) (q : Query) : Option Net.Url := Net.Url.parse? (base ++ q.path)

/-- The greatest length of an address that can be asked for. -/
def addressLimit : Nat := 65534

/-- The request for an address, unless the address is too long. -/
def requestFor? (u : Net.Url) : Option Http.Request :=
  if u.text.utf8ByteSize ≤ addressLimit then some ⟨"GET", u.target, [("accept", "*/*")]⟩
  else none

/-- The response from an address. -/
def fetch (n : Network) (u : Net.Url) (s : Supervisor) : Option Http.Response × Supervisor :=
  match n, requestFor? u with
  | .serving host port, some request =>
      if u.scheme = "http" && u.host = host && u.port = port then
        let (response, s) := s.respond request
        (some response, s)
      else (none, s)
  | _, _ => (none, s)

/-- Carries out an order. -/
def carryOut (n : Network) (o : Order) (s : Supervisor) : Outcome × Supervisor :=
  match o with
  | .help => (.help, s)
  | .ask base q =>
      match url? base q with
      | none => (.unanswered, s)
      | some u =>
          match fetch n u s with
          | (some response, s) => (.finished (present response.status response.body), s)
          | (none, s) => (.unanswered, s)

/-- A whole run of the client. -/
def run (n : Network) (args : List String) (s : Supervisor) : Outcome × Supervisor :=
  match Order.parse? args with
  | some o => carryOut n o s
  | none => (.misuse, s)

/-- The exit code of a run. -/
def Outcome.exit : Outcome → Nat
  | .misuse => 2
  | .help => 0
  | .unanswered => 1
  | .finished t => t.exit

end JobSupervisor.Client
