import JobSupervisor.Text.Quoted

/-!
# Socket addresses

A socket address is an address literal and a port: four decimal octets for version 4, or
eight hexadecimal groups in square brackets for version 6.  A version 6 literal may
shorten one run of zero groups to two colons, may end in a version 4 literal, and may
have a decimal scope after a percent sign.  Octets have no leading zeros; a port may have
any number of them.  Host names are no address literals.

## Main definitions

* `SocketAddress` — a literal and a port.
* `SocketAddress.parse?` — the address of a text.
* `SocketAddress.text` — the text of an address, with the first longest run of zero groups
  shortened.
-/

namespace JobSupervisor.Net

/-- An address literal. -/
inductive Literal where
  | v4 (a b c d : UInt8)
  /-- Eight groups and a scope, which is zero if there is none. -/
  | v6 (groups : List UInt16) (scope : UInt32)
  deriving DecidableEq, Repr

/-- A literal and a port. -/
structure SocketAddress where
  host : Literal
  port : UInt16
  deriving DecidableEq, Repr

namespace SocketAddress

/-- The value of a digit in a base. -/
def digit? (base : Nat) (c : Char) : Option Nat :=
  let n := c.toNat
  let v :=
    if '0'.toNat ≤ n ∧ n ≤ '9'.toNat then n - '0'.toNat
    else if 'a'.toNat ≤ n ∧ n ≤ 'f'.toNat then n - 'a'.toNat + 10
    else if 'A'.toNat ≤ n ∧ n ≤ 'F'.toNat then n - 'A'.toNat + 10
    else base
  if v < base then some v else none

/-- The value of a numeral. -/
def numeral (base : Nat) (ds : List Char) : Nat :=
  ds.foldl (fun n c => n * base + (digit? base c).getD 0) 0

/-- The digits at the front and what follows them; there is at least one digit. -/
def digits? (base : Nat) (cs : List Char) : Option (List Char × List Char) :=
  match cs.takeWhile fun c => (digit? base c).isSome with
  | [] => none
  | ds => some (ds, cs.dropWhile fun c => (digit? base c).isSome)

/-- A decimal numeral below a bound, with any number of leading zeros. -/
def decimalBelow? (bound : Nat) (cs : List Char) : Option (Nat × List Char) := do
  let (ds, rest) ← digits? 10 cs
  if numeral 10 ds < bound then return (numeral 10 ds, rest) else none

/-- An octet: at most three decimal digits, without leading zeros. -/
def octet? (cs : List Char) : Option (UInt8 × List Char) := do
  let (ds, rest) ← digits? 10 cs
  if ds.length ≤ 3 && (ds.length = 1 || ds.head? ≠ some '0') && numeral 10 ds < 256 then
    return ((numeral 10 ds).toUInt8, rest)
  else none

/-- What follows a character at the front. -/
def after? (c : Char) : List Char → Option (List Char)
  | x :: rest => if x = c then some rest else none
  | [] => none

/-- Four octets with points in between. -/
def fourOctets? (cs : List Char) : Option ((UInt8 × UInt8 × UInt8 × UInt8) × List Char) := do
  let (a, cs) ← octet? cs
  let (b, cs) ← octet? (← after? '.' cs)
  let (c, cs) ← octet? (← after? '.' cs)
  let (d, cs) ← octet? (← after? '.' cs)
  return ((a, b, c, d), cs)

/-- A group: at most four hexadecimal digits. -/
def group? (cs : List Char) : Option (UInt16 × List Char) := do
  let (ds, rest) ← digits? 16 cs
  if ds.length ≤ 4 then return ((numeral 16 ds).toUInt16, rest) else none

/-- Two octets as one group. -/
def pair (a b : UInt8) : UInt16 := (a.toNat * 256 + b.toNat).toUInt16

/-- The groups at the front, at most `limit` more of them, with colons in between; four
octets count as two groups and end the sequence, as the flag tells.  `first` says that no
colon is needed before the next group. -/
def groups : Nat → Bool → List Char → List UInt16 × Bool × List Char
  | 0, _, cs => ([], false, cs)
  | limit + 1, first, cs =>
      match if first then some cs else after? ':' cs with
      | none => ([], false, cs)
      | some body =>
          match if limit = 0 then none else fourOctets? body with
          | some ((a, b, c, d), rest) => ([pair a b, pair c d], true, rest)
          | none =>
              match group? body with
              | some (g, rest) =>
                  let (gs, octets, rest) := groups limit false rest
                  (g :: gs, octets, rest)
              | none => ([], false, cs)

/-- Eight groups, or fewer with two colons in the place of at least one zero group. -/
def eightGroups? (cs : List Char) : Option (List UInt16 × List Char) :=
  let (front, octets, rest) := groups 8 true cs
  if front.length = 8 then some (front, rest)
  else if octets then none
  else
    match rest with
    | ':' :: ':' :: rest =>
        let (back, _, rest) := groups (7 - front.length) true rest
        let zeros := List.replicate (8 - front.length - back.length) 0
        some (front ++ zeros ++ back, rest)
    | _ => none

/-- A scope after a percent sign, zero if there is none. -/
def scope (cs : List Char) : UInt32 × List Char :=
  match cs with
  | '%' :: rest =>
      match decimalBelow? UInt32.size rest with
      | some (n, rest) => (n.toUInt32, rest)
      | none => (0, cs)
  | cs => (0, cs)

/-- A port after a colon, up to the end. -/
def port? (cs : List Char) : Option UInt16 := do
  let (n, rest) ← decimalBelow? UInt16.size (← after? ':' cs)
  if rest.isEmpty then return n.toUInt16 else none

/-- The address of a text. -/
def parse? (s : String) : Option SocketAddress :=
  let cs := s.toList
  match fourOctets? cs with
  | some ((a, b, c, d), rest) => (port? rest).map fun p => ⟨.v4 a b c d, p⟩
  | none => do
      let (gs, rest) ← eightGroups? (← after? '[' cs)
      let (z, rest) := scope rest
      let p ← port? (← after? ']' rest)
      return ⟨.v6 gs z, p⟩

/-! ## The text of an address -/

/-- Four octets with points in between. -/
def octetsText (a b c d : UInt8) : String :=
  String.intercalate "." ([a, b, c, d].map toString)

/-- The length of the run of zero groups at the front. -/
def zerosAtFront (gs : List UInt16) : Nat := (gs.takeWhile (· = 0)).length

/-- Start and length of the first longest run of zero groups. -/
def longestZeros : Nat → List UInt16 → Nat × Nat
  | _, [] => (0, 0)
  | i, g :: rest =>
      let here := zerosAtFront (g :: rest)
      let (start, length) := longestZeros (i + 1) rest
      if length ≤ here then (i, here) else (start, length)

/-- Groups with colons in between. -/
def groupsText (gs : List UInt16) : String :=
  String.intercalate ":" (gs.map fun g => Text.hexadecimal g.toNat)

/-- The text of eight groups.  Addresses that embed one of version 4 end in its text. -/
def eightGroupsText (gs : List UInt16) : String :=
  match gs with
  | [0, 0, 0, 0, 0, 0xFFFF, x, y] =>
      "::ffff:" ++ octetsText (x.toNat / 256).toUInt8 x.toNat.toUInt8
        (y.toNat / 256).toUInt8 y.toNat.toUInt8
  | gs =>
      let (start, length) := longestZeros 0 gs
      if 1 < length then
        groupsText (gs.take start) ++ "::" ++ groupsText (gs.drop (start + length))
      else groupsText gs

/-- The text of an address. -/
def text (a : SocketAddress) : String :=
  match a.host with
  | .v4 a' b c d => octetsText a' b c d ++ ":" ++ toString a.port
  | .v6 gs z =>
      "[" ++ eightGroupsText gs ++ (if z = 0 then "" else "%" ++ toString z) ++ "]:" ++
        toString a.port

/-- Whether a text is an address. -/
def isLiteral (s : String) : Bool := (parse? s).isSome

end SocketAddress

end JobSupervisor.Net
