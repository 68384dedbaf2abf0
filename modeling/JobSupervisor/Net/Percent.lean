/-!
# Percent coding

A byte may be written as a percent sign and two hexadecimal digits.  Decoding keeps
everything that is no such triple, so a lone percent sign stands for itself, and it keeps
plus signs.  Encoding writes the bytes of a given class in this way, with capital digits.

## Main definitions

* `Percent.decode` — the bytes that a sequence with percent signs stands for.
* `Percent.encode` — the sequence for some bytes.
-/

namespace JobSupervisor.Net.Percent

/-- The percent sign. -/
def sign : UInt8 := 0x25

/-- The value of a hexadecimal digit. -/
def digit? (b : UInt8) : Option UInt8 :=
  if 0x30 ≤ b ∧ b ≤ 0x39 then some (b - 0x30)
  else if 0x41 ≤ b ∧ b ≤ 0x46 then some (b - 0x41 + 10)
  else if 0x61 ≤ b ∧ b ≤ 0x66 then some (b - 0x61 + 10)
  else none

/-- The capital hexadecimal digit of a number below sixteen. -/
def digit (n : UInt8) : UInt8 := if n < 10 then 0x30 + n else 0x41 + (n - 10)

/-- The bytes that a sequence with percent signs stands for. -/
def decode : List UInt8 → List UInt8
  | [] => []
  | [b] => [b]
  | [b, c] => [b, c]
  | b :: high :: low :: rest =>
      if b = sign then
        match digit? high, digit? low with
        | some h, some l => (h * 16 + l) :: decode rest
        | _, _ => b :: decode (high :: low :: rest)
      else b :: decode (high :: low :: rest)

/-- A byte as a triple. -/
def triple (b : UInt8) : List UInt8 := [sign, digit (b / 16), digit (b % 16)]

/-- The sequence for some bytes; those of the class are written as triples. -/
def encode (special : UInt8 → Bool) (bytes : List UInt8) : List UInt8 :=
  bytes.flatMap fun b => if special b then triple b else [b]

end JobSupervisor.Net.Percent
