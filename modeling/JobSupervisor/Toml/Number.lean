import JobSupervisor.Toml.Document

/-!
# Numbers, dates and times in TOML

A value that begins with a sign or a digit is tried as a date or time, then as a
floating-point number, then as an integer.  Once a form is recognized by its beginning,
an error in the rest of it is final.

## Main definitions

* `scalar?` — the value at the front of a text that begins with a sign or a digit.
* `Scan` — the result of trying one form: no such form, a broken one, or a value.
-/

namespace JobSupervisor.Toml

/-- The result of trying one form of value at the front of a text. -/
inductive Scan (α : Type) where
  | absent
  | broken
  | found (a : α) (rest : List Char)

/-- A found value only. -/
def Scan.toOption {α : Type} : Scan α → Option (α × List Char)
  | .found a rest => some (a, rest)
  | .absent | .broken => none

/-- The next form is tried if the first one is absent. -/
def Scan.orElse {α : Type} (a b : Scan α) : Scan α :=
  match a with
  | .absent => b
  | .broken => .broken
  | .found x rest => .found x rest

/-- Digits that may be separated by single underscores between two of them.  `none` means
that an underscore is not followed by a digit. -/
def moreDigits (digit : Char → Bool) : List Char → Option (List Char × List Char)
  | [] => some ([], [])
  | '_' :: c :: rest =>
      if digit c then (moreDigits digit rest).map fun (ds, r) => (c :: ds, r) else none
  | '_' :: [] => none
  | c :: rest =>
      if digit c then (moreDigits digit rest).map fun (ds, r) => (c :: ds, r)
      else some ([], c :: rest)

/-- One digit or more, with underscores. -/
def someDigits (digit : Char → Bool) : List Char → Option (List Char × List Char)
  | c :: rest => if digit c then (moreDigits digit rest).map fun (ds, r) => (c :: ds, r) else none
  | [] => none

/-- An optional sign; `true` for a minus. -/
def sign : List Char → Bool × List Char
  | '+' :: rest => (false, rest)
  | '-' :: rest => (true, rest)
  | cs => (false, cs)

/-- A decimal integer without its sign: zero alone, or digits that begin with none. -/
def wholePart : List Char → Scan (List Char)
  | '0' :: rest => .found ['0'] rest
  | c :: rest =>
      if c.isDigit then
        match moreDigits Char.isDigit rest with
        | some (ds, rest) => .found (c :: ds) rest
        | none => .broken
      else .absent
  | [] => .absent

/-- The value of a digit, where letters of both cases count from ten. -/
def digitValue (c : Char) : Nat :=
  if c.isDigit then c.toNat - 48 else if 'a' ≤ c then c.toNat - 87 else c.toNat - 55

/-- The number that digits of a base stand for. -/
def numeral (base : Nat) (ds : List Char) : Nat :=
  ds.foldl (fun n c => base * n + digitValue c) 0

/-- The magnitude of the least signed 64-bit word. -/
def wordBound : Nat := 0x8000000000000000

/-- An integer if it fits into a signed 64-bit word. -/
def int64? (negative : Bool) (n : Nat) : Option Int :=
  if negative then (if n ≤ wordBound then some (-(n : Int)) else none)
  else (if n < wordBound then some n else none)

/-- Whether a character is a digit of base 16, 8 or 2. -/
def isHexDigit (c : Char) : Bool :=
  c.isDigit || ('a' ≤ c && c ≤ 'f') || ('A' ≤ c && c ≤ 'F')

@[inherit_doc isHexDigit]
def isOctDigit (c : Char) : Bool := '0' ≤ c && c ≤ '7'

@[inherit_doc isHexDigit]
def isBinDigit (c : Char) : Bool := c = '0' || c = '1'

/-- An integer of a power-of-two base after its marker. -/
def markedInteger (base : Nat) (digit : Char → Bool) (cs : List Char) : Scan Value :=
  match someDigits digit cs with
  | some (ds, rest) =>
      match int64? false (numeral base ds) with
      | some n => .found (.integer n) rest
      | none => .broken
  | none => .broken

/-- An integer. -/
def integer (cs : List Char) : Scan Value :=
  match cs with
  | '0' :: 'x' :: rest => markedInteger 16 isHexDigit rest
  | '0' :: 'o' :: rest => markedInteger 8 isOctDigit rest
  | '0' :: 'b' :: rest => markedInteger 2 isBinDigit rest
  | cs =>
      let (negative, rest) := sign cs
      match wholePart rest with
      | .absent => .absent
      | .broken => .broken
      | .found ds rest =>
          match int64? negative (numeral 10 ds) with
          | some n => .found (.integer n) rest
          | none => .broken

/-- The exponent of a floating-point number after `e`. -/
def exponentPart (cs : List Char) : Scan Int :=
  let (negative, rest) := sign cs
  match someDigits Char.isDigit rest with
  | some (ds, rest) =>
      let n := numeral 10 ds
      .found (if negative then -(n : Int) else n) rest
  | none => .broken

/-- The exponent, if the text goes on with one. -/
def exponent : List Char → Scan Int
  | c :: rest => if c = 'e' || c = 'E' then exponentPart rest else .absent
  | [] => .absent

/-- The floating-point number of a sign, digits, fraction digits and an exponent.  A
positive number beyond the format is refused. -/
def floatValue (negative : Bool) (whole fraction : List Char) (e : Int) (rest : List Char) :
    Scan Value :=
  match Decimal.Binary64.ofDecimal negative (numeral 10 (whole ++ fraction))
    (e - fraction.length) with
  | .infinite false => .broken
  | x => .found (.float x) rest

/-- A floating-point number: digits with a fraction, an exponent or both. -/
def finiteFloat (cs : List Char) : Scan Value :=
  let (negative, rest) := sign cs
  match wholePart rest with
  | .absent => .absent
  | .broken => .broken
  | .found whole ('.' :: rest) =>
      match someDigits Char.isDigit rest with
      | none => .broken
      | some (fraction, rest) =>
          match exponent rest with
          | .broken => .broken
          | .absent => floatValue negative whole fraction 0 rest
          | .found e rest => floatValue negative whole fraction e rest
  | .found whole rest =>
      match exponent rest with
      | .broken => .broken
      | .absent => .absent
      | .found e rest => floatValue negative whole [] e rest

/-- Infinity and not-a-number, with an optional sign. -/
def specialFloat (cs : List Char) : Scan Value :=
  let (negative, rest) := sign cs
  match rest with
  | 'i' :: 'n' :: 'f' :: rest => .found (.float (.infinite negative)) rest
  | 'n' :: 'a' :: 'n' :: rest => .found (.float .nan) rest
  | _ => .absent

/-! ## Dates and times -/

/-- A number of exactly `n` digits. -/
def fixedDigits (n : Nat) (cs : List Char) : Option (Nat × List Char) :=
  let ds := cs.take n
  if ds.length = n ∧ ds.all Char.isDigit then some (numeral 10 ds, cs.drop n) else none

/-- A number of two digits within bounds. -/
def twoDigitsIn (low high : Nat) (cs : List Char) : Option (Nat × List Char) :=
  match fixedDigits 2 cs with
  | some (n, rest) => if low ≤ n ∧ n ≤ high then some (n, rest) else none
  | none => none

/-- The number of days of a month. -/
def daysOfMonth (year month : Nat) : Nat :=
  let leap := year % 4 = 0 ∧ (year % 100 ≠ 0 ∨ year % 400 = 0)
  if month = 2 then (if leap then 29 else 28)
  else if month = 4 ∨ month = 6 ∨ month = 9 ∨ month = 11 then 30 else 31

/-- Month and day after a year and a hyphen. -/
def monthAndDay (year : Nat) (cs : List Char) : Option (List Char) := do
  let (month, rest) ← twoDigitsIn 1 12 cs
  match rest with
  | '-' :: rest => do
      let (day, rest) ← twoDigitsIn 1 31 rest
      if day ≤ daysOfMonth year month then some rest else none
  | _ => none

/-- A date. -/
def date (cs : List Char) : Scan Unit :=
  match fixedDigits 4 cs with
  | some (year, '-' :: rest) =>
      match monthAndDay year rest with
      | some rest => .found () rest
      | none => .broken
  | _ => .absent

/-- The fraction of a second, if the text goes on with a point. -/
def secondFraction : List Char → List Char
  | '.' :: rest =>
      if (rest.takeWhile Char.isDigit).isEmpty then '.' :: rest else rest.dropWhile Char.isDigit
  | cs => cs

/-- A time of day. -/
def time (cs : List Char) : Scan Unit :=
  match twoDigitsIn 0 23 cs with
  | some (_, ':' :: rest) =>
      match twoDigitsIn 0 59 rest with
      | some (_, ':' :: rest) =>
          match twoDigitsIn 0 60 rest with
          | some (_, rest) => .found () (secondFraction rest)
          | none => .broken
      | _ => .broken
  | _ => .absent

/-- An offset from universal time, if there is one. -/
def offset : List Char → Scan Unit
  | c :: rest =>
      if c = 'Z' || c = 'z' then .found () rest
      else if c = '+' || c = '-' then
        match twoDigitsIn 0 23 rest with
        | some (_, ':' :: rest) =>
            match twoDigitsIn 0 59 rest with
            | some (_, rest) => .found () rest
            | none => .broken
        | _ => .broken
      else .absent
  | [] => .absent

/-- A date, a time of day, or a date with a time of day and perhaps an offset. -/
def datetime (cs : List Char) : Scan Value :=
  match date cs with
  | .broken => .broken
  | .found _ rest =>
      match rest with
      | c :: after =>
          if c = 'T' || c = 't' || c = ' ' then
            match time after with
            | .absent => .found .datetime rest
            | .broken => .broken
            | .found _ after =>
                match offset after with
                | .absent => .found .datetime after
                | .broken => .broken
                | .found _ after => .found .datetime after
          else .found .datetime rest
      | [] => .found .datetime []
  | .absent =>
      match time cs with
      | .absent => .absent
      | .broken => .broken
      | .found _ rest => .found .datetime rest

/-- The value at the front of a text that begins with a sign or a digit. -/
def scalar? (cs : List Char) : Option (Value × List Char) :=
  (((datetime cs).orElse (finiteFloat cs)).orElse (specialFloat cs)).orElse (integer cs)
    |>.toOption

end JobSupervisor.Toml
