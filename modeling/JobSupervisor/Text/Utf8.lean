/-!
# Decoding UTF-8

A byte sequence is read by a scanner that holds at most one unfinished character.  The
scanner cuts its input into *pieces*, each either a decoded character or a maximal
ill-formed prefix: the longest sequence of bytes that could still have become a
character.  Strict decoding accepts an input without ill-formed pieces; lenient
decoding puts U+FFFD in the place of each of them, so it can make a text longer than
its bytes.

## Main definitions

* `pieces bytes` — the pieces of a byte sequence, in order.
* `decode? bytes` — the text, if every piece is a character.
* `decodeLossy bytes` — the text with U+FFFD for every ill-formed piece.
-/

namespace JobSupervisor.Text.Utf8

/-- What the scanner cuts off: a character, or a maximal ill-formed prefix. -/
inductive Piece where
  | char (c : Char)
  | illFormed
  deriving DecidableEq

/-- An unfinished character: how many continuation bytes are still needed, the value of
the bytes read so far, and the range in which the next byte has to lie. -/
structure Pending where
  needed : Nat
  value : Nat
  low : Nat
  high : Nat

/-- How a byte can begin a character. -/
inductive Lead where
  | single (c : Char)
  | opening (p : Pending)
  | never

/-- The role of a byte at the beginning of a character.  The narrower ranges after
`E0`, `ED`, `F0` and `F4` exclude overlong forms, surrogates and values above
U+10FFFF. -/
def lead (b : UInt8) : Lead :=
  let n := b.toNat
  if n < 0x80 then .single (Char.ofNat n)
  else if 0xC2 ≤ n ∧ n ≤ 0xDF then .opening ⟨1, n - 0xC0, 0x80, 0xBF⟩
  else if n = 0xE0 then .opening ⟨2, 0, 0xA0, 0xBF⟩
  else if n = 0xED then .opening ⟨2, 0xD, 0x80, 0x9F⟩
  else if 0xE1 ≤ n ∧ n ≤ 0xEF then .opening ⟨2, n - 0xE0, 0x80, 0xBF⟩
  else if n = 0xF0 then .opening ⟨3, 0, 0x90, 0xBF⟩
  else if 0xF1 ≤ n ∧ n ≤ 0xF3 then .opening ⟨3, n - 0xF0, 0x80, 0xBF⟩
  else if n = 0xF4 then .opening ⟨3, 4, 0x80, 0x8F⟩
  else .never

/-- Scans with an optional unfinished character.  A byte outside the expected range ends
the unfinished character as an ill-formed piece and is then read as a beginning. -/
def scan : Option Pending → List UInt8 → List Piece
  | none, [] => []
  | some _, [] => [.illFormed]
  | none, b :: rest =>
      match lead b with
      | .single c => .char c :: scan none rest
      | .opening p => scan (some p) rest
      | .never => .illFormed :: scan none rest
  | some p, b :: rest =>
      if p.low ≤ b.toNat ∧ b.toNat ≤ p.high then
        let value := p.value * 64 + (b.toNat - 0x80)
        if p.needed ≤ 1 then .char (Char.ofNat value) :: scan none rest
        else scan (some ⟨p.needed - 1, value, 0x80, 0xBF⟩) rest
      else
        .illFormed ::
          (match lead b with
          | .single c => .char c :: scan none rest
          | .opening q => scan (some q) rest
          | .never => .illFormed :: scan none rest)

/-- The pieces of a byte sequence, in order. -/
def pieces (bytes : List UInt8) : List Piece :=
  scan none bytes

/-- The character that stands for a piece in lenient decoding. -/
def Piece.shown : Piece → Char
  | .char c => c
  | .illFormed => '\uFFFD'

/-- The character of a piece, if it is one. -/
def Piece.char? : Piece → Option Char
  | .char c => some c
  | .illFormed => none

/-- Strict decoding: fails when any piece is ill-formed. -/
def decode? (bytes : List UInt8) : Option String :=
  ((pieces bytes).mapM Piece.char?).map String.ofList

/-- Lenient decoding: U+FFFD stands for each ill-formed piece. -/
def decodeLossy (bytes : List UInt8) : String :=
  String.ofList ((pieces bytes).map Piece.shown)

/-- The bytes of a text. -/
def encode (s : String) : List UInt8 :=
  s.toUTF8.data.toList

end JobSupervisor.Text.Utf8
