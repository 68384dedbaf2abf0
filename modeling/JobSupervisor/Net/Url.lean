import JobSupervisor.Net.Percent
import JobSupervisor.Net.SocketAddress
import JobSupervisor.Text.Utf8

/-!
# Web addresses

A web address names a scheme, a host, a port, a path, a query and a fragment.  Reading one is
lenient: blanks around it and line breaks within it are dropped, a backslash counts as a
slash, and characters that may not stand where they stand are percent-coded.  A segment of
the path that is a dot, or that is two dots, plain or percent-coded, is resolved.  The
fragment belongs to the address, but no request asks for it.

Only the schemes of the web are read, and only hosts in ASCII.

## Main definitions

* `Url` — a web address.
* `Url.parse?` — reads a web address.
* `Url.resolve` — resolves the dots in a path.
* `Url.text` — the address as it is written.
* `Url.target` — what a request for the address asks for.
-/

namespace JobSupervisor.Net

/-- A web address.  Path, query and fragment are percent-coded; the path begins with a
slash. -/
structure Url where
  scheme : String
  host : String
  port : Nat
  path : String
  query : Option String
  fragment : Option String
  deriving DecidableEq, Repr

namespace Url

/-- The schemes of the web with the ports that they stand for. -/
def knownSchemes : List (String × Nat) := [("http", 80), ("https", 443)]

/-- Whether a character is dropped at both ends. -/
def isOuterBlank (c : Char) : Bool := c.toNat ≤ 0x20

/-- Whether a character is dropped everywhere. -/
def isLineBreak (c : Char) : Bool := c = '\t' || c = '\n' || c = '\r'

/-- The characters of an address that count. -/
def significant (s : String) : List Char :=
  let fromStart := s.toList.dropWhile isOuterBlank
  let trimmed := (fromStart.reverse.dropWhile isOuterBlank).reverse
  trimmed.filter fun c => !isLineBreak c

/-- Whether a character separates the segments of a path. -/
def isSlash (c : Char) : Bool := c = '/' || c = '\\'

/-- Whether a character ends the part with the host. -/
def endsAuthority (c : Char) : Bool := isSlash c || c = '?' || c = '#'

/-- Whether a byte is percent-coded in a path. -/
def isCodedInPath (b : UInt8) : Bool :=
  b ≤ 0x20 || 0x7E < b ||
    ['"', '#', '<', '>', '?', '^', '\x60', '\x7b', '\x7d'].any fun c => c.toNat = b.toNat

/-- Whether a byte is percent-coded in a query. -/
def isCodedInQuery (b : UInt8) : Bool :=
  b ≤ 0x20 || 0x7E < b || ['"', '#', '<', '>', '\''].any fun c => c.toNat = b.toNat

/-- Whether a byte is percent-coded in a fragment. -/
def isCodedInFragment (b : UInt8) : Bool :=
  b ≤ 0x20 || 0x7E < b || ['"', '<', '>', '\x60'].any fun c => c.toNat = b.toNat

/-- A text of which the bytes of a class are percent-coded. -/
def coded (special : UInt8 → Bool) (cs : List Char) : String :=
  let bytes := Percent.encode special (Text.Utf8.encode (String.ofList cs))
  String.ofList (bytes.map fun b => Char.ofNat b.toNat)

/-- The parts between the separators. -/
def splitAt (isSeparator : Char → Bool) : List Char → List (List Char)
  | [] => [[]]
  | c :: rest =>
      match splitAt isSeparator rest with
      | [] => [[c]]
      | part :: parts => if isSeparator c then [] :: part :: parts else (c :: part) :: parts

/-- A segment with its coded dots written plainly. -/
def plainDots : List Char → List Char
  | '%' :: '2' :: 'e' :: rest | '%' :: '2' :: 'E' :: rest => '.' :: plainDots rest
  | c :: rest => c :: plainDots rest
  | [] => []

/-- Whether a segment stands for the place where it is. -/
def isSingleDot (segment : List Char) : Bool := plainDots segment = ['.']

/-- Whether a segment stands for the place above. -/
def isDoubleDot (segment : List Char) : Bool := plainDots segment = ['.', '.']

/-- The segments of a path after its dots are resolved; `above` holds the segments before,
the last one first.  A path that ends in dots ends in an empty segment. -/
def resolve (above : List (List Char)) : List (List Char) → List (List Char)
  | [] => above.reverse
  | [last] =>
      if isDoubleDot last then (([] : List Char) :: above.tail).reverse
      else if isSingleDot last then (([] : List Char) :: above).reverse
      else (last :: above).reverse
  | segment :: rest =>
      if isDoubleDot segment then resolve above.tail rest
      else if isSingleDot segment then resolve above rest
      else resolve (segment :: above) rest

/-- The path that some segments make up. -/
def pathOf (segments : List (List Char)) : String :=
  String.join (segments.map fun segment => "/" ++ coded isCodedInPath segment)

/-- Whether a character may stand in a host. -/
def isHostChar (c : Char) : Bool :=
  0x20 < c.toNat && c.toNat < 0x7F &&
    c ∉ ['#', '%', '/', ':', '<', '>', '?', '@', '[', '\\', ']', '^', '|']

/-- The host and what stands after it. -/
def host? (cs : List Char) : Option (String × List Char) :=
  match cs with
  | '[' :: _ =>
      let bracketed := cs.takeWhile (· ≠ ']') ++ [']']
      let text := String.ofList bracketed
      if SocketAddress.isLiteral (text ++ ":0") then
        some (text.toLower, cs.drop bracketed.length)
      else none
  | _ =>
      let name := cs.takeWhile (· ≠ ':')
      if name.isEmpty || !name.all isHostChar then none
      else some ((String.ofList name).toLower, cs.drop name.length)

/-- The port that stands after a host. -/
def port? (default : Nat) : List Char → Option Nat
  | [] | [':'] => some default
  | ':' :: digits =>
      if digits.all Char.isDigit && SocketAddress.numeral 10 digits < 65536 then
        some (SocketAddress.numeral 10 digits)
      else none
  | _ => none

/-- The part with the host, without the name of a user. -/
def withoutUser (authority : List Char) : List Char :=
  (authority.reverse.takeWhile (· ≠ '@')).reverse

/-- The query that begins with a question mark. -/
def query? : List Char → Option String
  | '?' :: rest => some (coded isCodedInQuery rest)
  | _ => none

/-- The fragment that begins with a hash sign. -/
def fragment? : List Char → Option String
  | '#' :: rest => some (coded isCodedInFragment rest)
  | _ => none

/-- Reads a web address. -/
def parse? (s : String) : Option Url := do
  let cs := significant s
  let scheme := (String.ofList (cs.takeWhile (· ≠ ':'))).toLower
  let defaultPort ← knownSchemes.lookup scheme
  let rest := (cs.drop (scheme.length + 1)).dropWhile isSlash
  let (host, afterHost) ← host? (withoutUser (rest.takeWhile fun c => !endsAuthority c))
  let port ← port? defaultPort afterHost
  let tail := rest.dropWhile fun c => !endsAuthority c
  let located := tail.takeWhile (· ≠ '#')
  let path := located.takeWhile (· ≠ '?')
  let segments := splitAt isSlash (path.drop 1)
  some ⟨scheme, host, port, pathOf (resolve [] segments), query? (located.drop path.length),
    fragment? (tail.drop located.length)⟩

/-- What a request for the address asks for. -/
def target (u : Url) : String :=
  match u.query with
  | some query => u.path ++ "?" ++ query
  | none => u.path

/-- The scheme, the host and the port as they are written; the port that the scheme stands
for is left out. -/
def origin (u : Url) : String :=
  let port := if knownSchemes.lookup u.scheme = some u.port then "" else ":" ++ toString u.port
  u.scheme ++ "://" ++ u.host ++ port

/-- The address as it is written. -/
def text (u : Url) : String :=
  match u.fragment with
  | some fragment => u.origin ++ u.target ++ "#" ++ fragment
  | none => u.origin ++ u.target

end Url

end JobSupervisor.Net
