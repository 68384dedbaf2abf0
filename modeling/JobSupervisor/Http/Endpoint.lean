import JobSupervisor.Http.Message
import JobSupervisor.Json.Value
import JobSupervisor.Supervisor

/-!
# The health endpoint

The endpoint answers three kinds of requests: for the health of all jobs, for the health
of one job, and for the list of jobs.  It reads the registry and never changes it.  Every
request has an identifier, drawn if the caller supplied none, which is echoed in the
response and names the request in the log.  The first two kinds are answered within a
correlation scope.

## Main definitions

* `Supervisor.healthResponse`, `Supervisor.jobResponse`, `Supervisor.listResponse` — the
  answers to the three kinds.
* `Supervisor.respond` — the answer to a request.
-/

namespace JobSupervisor.Http

open Health

/-- The status of a response about health. -/
def statusCode : Status → Nat
  | .healthy => 200
  | .degraded => 503

/-- The type of JSON bodies. -/
def jsonType : String := "application/json"

/-- The type of plain bodies. -/
def plainType : String := "text/plain; charset=utf-8"

namespace Response

/-- A response with a body. -/
def withBody (status : Nat) (type body : String) : Response :=
  ⟨status, none, some type, some body.utf8ByteSize, none, body⟩

/-- A response with a JSON body. -/
def ofJson (status : Nat) (j : Json) : Response := withBody status jsonType j.compact

/-- The response where nothing is served. -/
def notFound : Response := ⟨404, none, none, none, none, ""⟩

/-- The response to a method that is not served. -/
def notAllowed : Response := ⟨405, some "GET,HEAD", none, some 0, none, ""⟩

/-- The response to a segment that stands for no text. -/
def undecodable : Response :=
  withBody 400 plainType "Invalid URL: Invalid UTF-8 in `name`"

/-- A response with the identifier of its request. -/
def identified (r : Response) (id : String) : Response := { r with requestId := some id }

/-- A response without its body, of which the length stays. -/
def withoutBody (r : Response) : Response := { r with body := "" }

end Response

/-- A reason, if there is one. -/
def reasonJson : Option String → Json
  | some reason => .string reason
  | none => .null

/-- The health of one job as JSON. -/
def jobJson (name : String) (s : Snapshot) : Json :=
  .object [("name", .string name), ("status", .string s.status.endpointWord),
    ("reason", reasonJson s.reason)]

/-- The health of all jobs as JSON. -/
def reportJson (r : Report) : Json :=
  .object [("status", .string r.status.endpointWord),
    ("details", .object (r.details.toList.map fun e => (e.1, .string e.2)))]

/-- The answer about a job that is not known. -/
def unknownJobJson (name : String) : Json :=
  .object [("error", .string ("unknown job: " ++ name))]

end JobSupervisor.Http

namespace JobSupervisor.Supervisor

open Http

/-- The answer about all jobs; restricted health is logged. -/
def healthResponse (s : Supervisor) : Response × Supervisor :=
  let report := s.report
  let s := if report.isHealthy then s
    else s.emit (.healthRestricted report.details.size s.thread.context.snapshot)
  (.ofJson (statusCode report.status) (reportJson report), s)

/-- The answer about one job; an unknown one is logged. -/
def jobResponse (name : String) (s : Supervisor) : Response × Supervisor :=
  match s.registry.lookup name with
  | some id =>
      let snapshot := (s.record id).snapshot
      (.ofJson (statusCode snapshot.status) (jobJson name snapshot), s)
  | none =>
      (.ofJson 404 (unknownJobJson name),
        s.emit (.unknownJobRequested name s.thread.context.snapshot))

/-- The answer that lists the jobs. -/
def listResponse (s : Supervisor) : Response :=
  .ofJson 200 (.array (s.registry.listing.map fun e => jobJson e.1 (s.record e.2).snapshot))

/-- Answers within a scope. -/
def withinScope (supplied : Option String) (answer : Supervisor → Response × Supervisor)
    (s : Supervisor) : Response × Supervisor :=
  let (_, s) := s.enterScope supplied
  let (r, s) := answer s
  (r, s.exitScope.2)

/-- The answer to a request for a resource, under an identifier that may be readable. -/
def serve (readable : Option String) (s : Supervisor) : Route → Response × Supervisor
  | .health => s.withinScope readable healthResponse
  | .job segment =>
      match decodeSegment? segment with
      | some name => s.withinScope readable (jobResponse name)
      | none => (.undecodable, s)
  | .jobs => (s.listResponse, s)

/-- The answer of a resource to a method. -/
def serveMethod (method : String) (readable : Option String) (r : Route) (s : Supervisor) :
    Response × Supervisor :=
  if method = "GET" then s.serve readable r
  else if method = "HEAD" then
    let (response, s) := s.serve readable r
    (response.withoutBody, s)
  else (.notAllowed, s)

/-- The identifier of a request: the supplied one or a fresh one. -/
def requestId (r : Request) (s : Supervisor) : String × Supervisor :=
  match r.header? requestIdHeader with
  | some id => (id, s)
  | none => s.freshIdentifier

/-- The answer to a request. -/
def respond (r : Request) (s : Supervisor) : Response × Supervisor :=
  let (id, s) := s.requestId r
  let readable := if isReadable id then some id else none
  let s := s.openSpan (.request r.method r.path (readable.getD "unknown"))
  let (response, s) := match Route.ofPath? r.path with
    | some route => s.serveMethod r.method readable route
    | none => (.notFound, s)
  (response.identified id, s.closeSpan)

end JobSupervisor.Supervisor
