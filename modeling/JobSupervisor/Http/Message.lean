import JobSupervisor.Net.Percent
import JobSupervisor.Text.Utf8

/-!
# Requests and responses

A request names a method, a target and some headers; a response has a status, the headers
that this program sets, and a body.  Header values consist of characters below U+0100,
one for each byte, and header names are compared without regard to case.

## Main definitions

* `Request`, `Request.isWellFormed`, `Request.path` — requests.
* `Response` — responses.
* `Route`, `Route.ofPath?` — the resources that are served.
-/

namespace JobSupervisor.Http

/-- A request. -/
structure Request where
  method : String
  target : String
  headers : List (String × String)
  deriving DecidableEq, Repr

/-- A response, with the headers that this program sets. -/
structure Response where
  status : Nat
  allow : Option String
  contentType : Option String
  contentLength : Option Nat
  requestId : Option String
  body : String
  deriving DecidableEq, Repr

/-- The name of the header that carries the identifier of a request. -/
def requestIdHeader : String := "x-request-id"

/-- Whether a character may stand in a method or in the name of a header. -/
def isTokenChar (c : Char) : Bool :=
  c.isAlphanum || ['!', '#', '$', '%', '&', '\'', '*', '+', '-', '.', '^', '_', '\x60', '|',
    '~'].contains c

/-- Whether a character may stand in the value of a header. -/
def isValueChar (c : Char) : Bool :=
  c = '\t' || (0x20 ≤ c.toNat && c.toNat ≤ 0xFF && c.toNat ≠ 0x7F)

/-- Whether a character may stand in a path. -/
def isPathChar (c : Char) : Bool :=
  0x21 ≤ c.toNat && c ∉ ['<', '>', '\x60', '?', '#']

/-- Whether a character may stand in a query. -/
def isQueryChar (c : Char) : Bool := 0x21 ≤ c.toNat && c ∉ ['<', '>', '#']

/-- A target without a fragment. -/
def withoutFragment (cs : List Char) : List Char := cs.takeWhile (· ≠ '#')

/-- The path and the query of a target, of which the path begins with a slash. -/
def splitQuery (cs : List Char) : List Char × List Char :=
  (cs.takeWhile (· ≠ '?'), (cs.dropWhile (· ≠ '?')).drop 1)

/-- The path with the query of a target: all of it if it begins with a slash, and what
follows the authority if it begins with a scheme. -/
def afterAuthority (cs : List Char) : List Char :=
  let scheme := cs.takeWhile fun c => c.isAlphanum || c = '+' || c = '-' || c = '.'
  match cs.drop scheme.length with
  | ':' :: '/' :: '/' :: rest => rest.dropWhile fun c => c ≠ '/' && c ≠ '?'
  | _ => cs

namespace Request

/-- The path of a request, without its query. -/
def path (r : Request) : String :=
  match (splitQuery (afterAuthority (withoutFragment r.target.toList))).1 with
  | [] => "/"
  | cs => String.ofList cs

/-- Whether a target is a path or an absolute address of one. -/
def hasTarget (r : Request) : Bool :=
  let rest := afterAuthority (withoutFragment r.target.toList)
  let (path, query) := splitQuery rest
  let absolute := rest.length < (withoutFragment r.target.toList).length
  (absolute || rest.head? = some '/') && path.all isPathChar && query.all isQueryChar

/-- Whether a request can be sent at all. -/
def isWellFormed (r : Request) : Bool :=
  !r.method.isEmpty && r.method.toList.all isTokenChar && r.hasTarget &&
    r.headers.all fun (name, value) =>
      !name.isEmpty && name.toList.all isTokenChar && value.toList.all isValueChar

/-- The first value of a header. -/
def header? (r : Request) (name : String) : Option String :=
  (r.headers.find? fun h => h.1.toLower = name).map Prod.snd

end Request

/-- Whether a header value can be read as text. -/
def isReadable (value : String) : Bool :=
  value.toList.all fun c => c = '\t' || (0x20 ≤ c.toNat && c.toNat < 0x7F)

/-- The resources that are served. -/
inductive Route where
  | health
  /-- The health of one job, by a segment that is still to be decoded. -/
  | job (segment : String)
  | jobs
  deriving DecidableEq, Repr

namespace Route

/-- The part of the path before the name of a job. -/
def jobRoot : List Char := "/health/jobs/".toList

/-- The resource at a path.  Paths are compared as they are written. -/
def ofPath? (path : String) : Option Route :=
  if path = "/health" then some .health
  else if path = "/jobs" then some .jobs
  else
    let cs := path.toList
    let segment := cs.drop jobRoot.length
    if jobRoot.isPrefixOf cs && !segment.isEmpty && !segment.contains '/' then
      some (.job (String.ofList segment))
    else none

end Route

/-- The name that a segment of a path stands for, if its bytes are UTF-8. -/
def decodeSegment? (segment : String) : Option String :=
  Text.Utf8.decode? (Net.Percent.decode (Text.Utf8.encode segment))

end JobSupervisor.Http
