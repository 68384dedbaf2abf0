import JobSupervisor.Json.Value

/-!
# Reading JSON texts

A text is JSON if it is one value between optional white space.  Numbers have no leading
zeros and are finite, strings have no raw control characters, escapes of surrogates come
in pairs, and arrays and objects nest fewer than 128 levels deep.

## Main definitions

* `Json.parse?` — the value of a text.
-/

namespace JobSupervisor.Json

/-- The deepest nesting that is read. -/
def maxDepth : Nat := 127

/-- The white space of JSON. -/
def isSpace (c : Char) : Bool := c = ' ' || c = '\t' || c = '\n' || c = '\r'

/-- What follows the white space at the front. -/
def skipSpace (cs : List Char) : List Char := cs.dropWhile isSpace

/-- The value of a hexadecimal digit. -/
def hexDigit? (c : Char) : Option Nat :=
  if c.isDigit then some (c.toNat - '0'.toNat)
  else if 'a' ≤ c ∧ c ≤ 'f' then some (c.toNat - 'a'.toNat + 10)
  else if 'A' ≤ c ∧ c ≤ 'F' then some (c.toNat - 'A'.toNat + 10)
  else none

/-- Four hexadecimal digits. -/
def fourDigits? : List Char → Option (Nat × List Char)
  | a :: b :: c :: d :: rest => do
      let a ← hexDigit? a
      let b ← hexDigit? b
      let c ← hexDigit? c
      let d ← hexDigit? d
      return (((a * 16 + b) * 16 + c) * 16 + d, rest)
  | _ => none

/-- The characters of a string up to its closing quote, in reverse; `fuel` bounds their
number. -/
def stringBody? : Nat → List Char → List Char → Option (List Char × List Char)
  | 0, _, _ => none
  | fuel + 1, acc, cs =>
      match cs with
      | [] => none
      | '"' :: rest => some (acc, rest)
      | '\\' :: 'u' :: rest => do
          let (n, rest) ← fourDigits? rest
          if 0xD800 ≤ n ∧ n ≤ 0xDBFF then
            match rest with
            | '\\' :: 'u' :: rest => do
                let (low, rest) ← fourDigits? rest
                if 0xDC00 ≤ low ∧ low ≤ 0xDFFF then
                  let c := Char.ofNat (0x10000 + (n - 0xD800) * 0x400 + (low - 0xDC00))
                  stringBody? fuel (c :: acc) rest
                else none
            | _ => none
          else if 0xDC00 ≤ n ∧ n ≤ 0xDFFF then none
          else stringBody? fuel (Char.ofNat n :: acc) rest
      | '\\' :: e :: rest =>
          let c? : Option Char :=
            if e = '"' || e = '\\' || e = '/' then some e
            else if e = 'b' then some (Char.ofNat 8)
            else if e = 'f' then some (Char.ofNat 12)
            else if e = 'n' then some '\n'
            else if e = 'r' then some '\r'
            else if e = 't' then some '\t'
            else none
          match c? with
          | some c => stringBody? fuel (c :: acc) rest
          | none => none
      | c :: rest => if c.toNat < 0x20 then none else stringBody? fuel (c :: acc) rest

/-- A string after its opening quote. -/
def string? (cs : List Char) : Option (String × List Char) :=
  (stringBody? (cs.length + 1) [] cs).map fun (acc, rest) => (String.ofList acc.reverse, rest)

/-- One digit or more. -/
def digits? (cs : List Char) : Option (List Char × List Char) :=
  match cs.takeWhile Char.isDigit with
  | [] => none
  | ds => some (ds, cs.dropWhile Char.isDigit)

/-- The fraction of a number, empty if there is none. -/
def fraction? : List Char → Option (List Char × List Char)
  | '.' :: rest => (digits? rest).map fun (ds, rest) => ('.' :: ds, rest)
  | cs => some ([], cs)

/-- The exponent of a number, empty if there is none. -/
def exponent? : List Char → Option (List Char × List Char)
  | c :: rest =>
      if c = 'e' || c = 'E' then
        match rest with
        | s :: rest' =>
            if s = '+' || s = '-' then (digits? rest').map fun (ds, r) => (c :: s :: ds, r)
            else (digits? rest).map fun (ds, r) => (c :: ds, r)
        | [] => none
      else some ([], c :: rest)
  | [] => some ([], [])

/-- A number without its sign. -/
def unsigned? (cs : List Char) : Option (List Char × List Char) := do
  let (whole, rest) ← match cs with
    | '0' :: rest => some (['0'], rest)
    | cs => digits? cs
  let (f, rest) ← fraction? rest
  let (e, rest) ← exponent? rest
  return (whole ++ f ++ e, rest)

/-- Items that are separated by commas up to a closing bracket; `fuel` bounds their
number. -/
def separated? {α : Type} (item : List Char → Option (α × List Char)) (closing : Char) :
    Nat → List Char → Option (List α × List Char)
  | 0, _ => none
  | fuel + 1, cs => do
      let (a, rest) ← item cs
      match skipSpace rest with
      | c :: rest =>
          if c = closing then return ([a], rest)
          else if c = ',' then
            let (as, rest) ← separated? item closing fuel rest
            return (a :: as, rest)
          else none
      | [] => none

/-- Items up to a closing bracket, or none at all. -/
def bracketed? {α : Type} (item : List Char → Option (α × List Char)) (closing : Char)
    (cs : List Char) : Option (List α × List Char) :=
  match skipSpace cs with
  | c :: rest => if c = closing then some ([], rest) else separated? item closing cs.length cs
  | [] => none

/-- A value at the front; `depth` is the nesting that is still allowed. -/
def value? : Nat → List Char → Option (Json × List Char)
  | depth, cs =>
      match skipSpace cs with
      | 'n' :: 'u' :: 'l' :: 'l' :: rest => some (.null, rest)
      | 't' :: 'r' :: 'u' :: 'e' :: rest => some (.bool true, rest)
      | 'f' :: 'a' :: 'l' :: 's' :: 'e' :: rest => some (.bool false, rest)
      | '"' :: rest => (string? rest).map fun (s, rest) => (.string s, rest)
      | '-' :: rest =>
          (unsigned? rest).map fun (ds, rest) => (.number (String.ofList ('-' :: ds)), rest)
      | '[' :: rest =>
          match depth with
          | 0 => none
          | depth + 1 =>
              (bracketed? (value? depth) ']' rest).map fun (xs, rest) => (.array xs, rest)
      | c :: rest =>
          if c = '\x7b' then
            match depth with
            | 0 => none
            | depth + 1 =>
                let member (cs : List Char) : Option ((String × Json) × List Char) :=
                  match skipSpace cs with
                  | '"' :: rest => do
                      let (name, rest) ← string? rest
                      match skipSpace rest with
                      | ':' :: rest => do
                          let (v, rest) ← value? depth rest
                          return ((name, v), rest)
                      | _ => none
                  | _ => none
                (bracketed? member '\x7d' rest).map fun (ms, rest) => (.object ms, rest)
          else
            (unsigned? (c :: rest)).map fun (ds, rest) => (.number (String.ofList ds), rest)
      | [] => none

/-- The value of a text. -/
def parse? (s : String) : Option Json :=
  match value? maxDepth s.toList with
  | some (j, rest) => if (skipSpace rest).isEmpty then some j else none
  | none => none

end JobSupervisor.Json
