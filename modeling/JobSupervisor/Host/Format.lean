import JobSupervisor.Text.Utf8

/-!
# Formatted output

The format language of the `printf` program: backslash escapes and conversions after a
percent sign.  The format is used again as long as arguments are left over, and missing
arguments count as empty or as zero.

## Main definitions

* `Format.escape?` — a backslash escape.
* `Format.render` — the bytes of a format and its arguments, and what is wrong with them.
-/

namespace JobSupervisor.Host.Format

/-- The value of an octal digit. -/
def octal? (c : Char) : Option Nat :=
  if '0' ≤ c ∧ c ≤ '7' then some (c.toNat - '0'.toNat) else none

/-- The value of at most `n` octal digits at the front, and what follows them. -/
def octalPrefix : Nat → Nat → List Char → Nat × List Char
  | 0, v, cs => (v, cs)
  | _ + 1, v, [] => (v, [])
  | n + 1, v, c :: rest =>
      match octal? c with
      | some d => octalPrefix n (v * 8 + d) rest
      | none => (v, c :: rest)

/-- The byte of a single-letter escape. -/
def letterEscape? (c : Char) : Option UInt8 :=
  match c with
  | 'a' => some 7
  | 'b' => some 8
  | 'e' => some 27
  | 'f' => some 12
  | 'n' => some 10
  | 'r' => some 13
  | 't' => some 9
  | 'v' => some 11
  | '\\' => some 92
  | _ => none

/-- An escape after its backslash: its bytes and what follows; `digits` is the number of
octal digits that a numeric escape may have. -/
def escape? (digits : Nat) : List Char → Option (List UInt8 × List Char)
  | [] => none
  | c :: rest =>
      match letterEscape? c with
      | some b => some ([b], rest)
      | none =>
          if (octal? c).isSome then
            let (v, rest) := octalPrefix digits 0 (c :: rest)
            some ([v.toUInt8], rest)
          else none

/-- The bytes of a character. -/
def charBytes (c : Char) : List UInt8 := Text.Utf8.encode (String.singleton c)

/-- The bytes of a text with escapes, up to a `\c`, and whether there was one. -/
def escaped (digits : Nat) : Nat → List Char → List UInt8 × Bool
  | 0, _ => ([], false)
  | _ + 1, [] => ([], false)
  | _ + 1, '\\' :: 'c' :: _ => ([], true)
  | fuel + 1, '\\' :: rest =>
      match escape? digits rest with
      | some (bytes, rest) =>
          let (more, stop) := escaped digits fuel rest
          (bytes ++ more, stop)
      | none =>
          let (more, stop) := escaped digits fuel rest
          (92 :: more, stop)
  | fuel + 1, c :: rest =>
      let (more, stop) := escaped digits fuel rest
      (charBytes c ++ more, stop)

/-- A conversion: its flags, its least width, its precision and its letter. -/
structure Conversion where
  flags : List Char
  width : Nat
  precision : Option Nat
  letter : Char

/-- The number of the digits at the front. -/
def decimalPrefix (cs : List Char) : Nat × List Char :=
  ((cs.takeWhile Char.isDigit).foldl (fun n c => n * 10 + (c.toNat - '0'.toNat)) 0,
    cs.dropWhile Char.isDigit)

/-- A conversion after its percent sign. -/
def conversion? (cs : List Char) : Option (Conversion × List Char) :=
  let isFlag (c : Char) : Bool := ['-', '+', ' ', '#', '0'].contains c
  let flags := cs.takeWhile isFlag
  let (width, rest) := decimalPrefix (cs.dropWhile isFlag)
  let (precision, rest) : Option Nat × List Char := match rest with
    | '.' :: rest => let (p, rest) := decimalPrefix rest; (some p, rest)
    | rest => (none, rest)
  match rest with
  | letter :: rest => some (⟨flags, width, precision, letter⟩, rest)
  | [] => none

/-- The value of a digit of any base. -/
def digitValue (c : Char) : Nat :=
  if c.isDigit then c.toNat - 48 else if c.isAlpha then c.toLower.toNat - 87 else 99

/-- The number of the digits of a base at the front, and what follows. -/
def numeral (base : Nat) (cs : List Char) : Nat × List Char :=
  let ds := cs.takeWhile fun c => digitValue c < base
  (ds.foldl (fun n c => n * base + digitValue c) 0, cs.drop ds.length)

/-- The number at the front in decimal, octal or hexadecimal, and what follows. -/
def unsigned : List Char → Nat × List Char
  | '0' :: 'x' :: ds => numeral 16 ds
  | '0' :: ds => numeral 8 ('0' :: ds)
  | ds => numeral 10 ds

/-- The number at the front with its sign, and what follows. -/
def signed : List Char → Int × List Char
  | '-' :: ds => let (n, rest) := unsigned ds; (-(n : Int), rest)
  | '+' :: ds => let (n, rest) := unsigned ds; (n, rest)
  | ds => let (n, rest) := unsigned ds; (n, rest)

/-- The number that a text denotes, and what is wrong with the text; a quotation mark stands
for the number of the character after it. -/
def integer (s : String) : Int × Option String :=
  match s.toList with
  | ['\'', c] | ['"', c] => (c.toNat, none)
  | cs =>
      let cs := cs.dropWhile Char.isWhitespace
      let (n, rest) := signed cs
      if rest.isEmpty then (n, none)
      else if rest.length = cs.length then (0, some "expected numeric value")
      else (n, some "not completely converted")

/-- Bytes filled up to a width, on the right if the flags say so. -/
def pad (c : Conversion) (bytes : List UInt8) : List UInt8 :=
  let blanks := List.replicate (c.width - bytes.length) 32
  if c.flags.contains '-' then bytes ++ blanks else blanks ++ bytes

/-- The digits of an integer.  Only decimal numerals have a sign; in other bases a negative
number stands for its word. -/
def integerDigits (c : Conversion) (base : Nat) (n : Int) : List Char :=
  let magnitude := if n < 0 && base ≠ 10 then ((UInt64.size : Int) + n).toNat else n.natAbs
  let ds := Nat.toDigits base magnitude
  if c.letter = 'X' then ds.map Char.toUpper else ds

/-- What stands in front of the digits of another base if the flags say so. -/
def baseMark (c : Conversion) (base : Nat) (n : Int) : List Char :=
  if !c.flags.contains '#' || n = 0 then []
  else if base = 16 then ['0', c.letter] else if base = 8 then ['0'] else []

/-- The bytes of an integer: zeros fill it up to the precision, or up to the width if the
flags say so. -/
def integerBytes (c : Conversion) (base : Nat) (n : Int) : List UInt8 :=
  let ds := integerDigits c base n
  let sign := if base ≠ 10 then baseMark c base n else if n < 0 then ['-']
    else if c.flags.contains '+' then ['+'] else if c.flags.contains ' ' then [' '] else []
  let least := match c.precision with
    | some p => p
    | none =>
        if c.flags.contains '0' && !c.flags.contains '-' then c.width - sign.length else 0
  let all := sign ++ List.replicate (least - ds.length) '0' ++ ds
  pad c (all.flatMap charBytes)

/-- What one use of a format produced: bytes, the arguments that are left, whether it used
any, complaints, and whether an argument ended the output. -/
structure Pass where
  bytes : List UInt8
  left : List String
  used : Bool
  complaints : List String
  stop : Bool

/-- The bytes of one conversion. -/
def convert (c : Conversion) (args : List String) : Pass :=
  let arg := args.head?.getD ""
  let cut (bytes : List UInt8) : List UInt8 := match c.precision with
    | some p => bytes.take p
    | none => bytes
  let number (base : Nat) : Pass :=
    let (n, wrong) := integer arg
    let n := if c.letter = 'u' then n % UInt64.size else n
    let complaint := wrong.map fun w => arg ++ ": " ++ w
    ⟨integerBytes c base n, args.tail, true, complaint.toList, false⟩
  match c.letter with
  | 's' => ⟨pad c (cut (Text.Utf8.encode arg)), args.tail, true, [], false⟩
  | 'c' => ⟨pad c ((Text.Utf8.encode arg).take 1), args.tail, true, [], false⟩
  | 'b' =>
      let (bytes, stop) := escaped 4 (arg.length + 1) arg.toList
      ⟨pad c (cut bytes), args.tail, true, [], stop⟩
  | 'd' | 'i' | 'u' => number 10
  | 'x' | 'X' => number 16
  | 'o' => number 8
  | '%' => ⟨[37], args, false, [], false⟩
  | l => ⟨[], args, false, ["%" ++ String.singleton l ++ ": invalid directive"], true⟩

/-- One use of a format. -/
def pass : Nat → List Char → List String → Pass
  | 0, _, args => ⟨[], args, false, [], false⟩
  | _ + 1, [], args => ⟨[], args, false, [], false⟩
  | fuel + 1, '%' :: rest, args =>
      match conversion? rest with
      | none => ⟨[], args, false, ["missing format character"], true⟩
      | some (c, rest) =>
          let p := convert c args
          if p.stop then p
          else
            let q := pass fuel rest p.left
            ⟨p.bytes ++ q.bytes, q.left, p.used || q.used, p.complaints ++ q.complaints, q.stop⟩
  | fuel + 1, '\\' :: rest, args =>
      let (bytes, rest) := (escape? 3 rest).getD ([92], rest)
      let q := pass fuel rest args
      { q with bytes := bytes ++ q.bytes }
  | fuel + 1, c :: rest, args =>
      let q := pass fuel rest args
      { q with bytes := charBytes c ++ q.bytes }

/-- Uses a format until no arguments are left. -/
def passes (format : List Char) : Nat → List String → List UInt8 × List String
  | 0, _ => ([], [])
  | fuel + 1, args =>
      let p := pass (format.length + 1) format args
      if p.stop || p.left.isEmpty || !p.used then (p.bytes, p.complaints)
      else
        let (bytes, complaints) := passes format fuel p.left
        (p.bytes ++ bytes, p.complaints ++ complaints)

/-- The bytes of a format and its arguments, and what is wrong with them. -/
def render (format : String) (args : List String) : List UInt8 × List String :=
  passes format.toList (args.length + 1) args

end JobSupervisor.Host.Format
