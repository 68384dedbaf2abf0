/-!
# Binary floating point of 64 bits

The finite numbers of the format are `m · 2 ^ q` with `m < 2 ^ 53` and
`-1074 ≤ q ≤ 971`.  Every quotient of natural numbers is rounded to the nearest of them,
a tie to the one with the even `m`; a quotient beyond the largest finite number becomes
infinite.  All arithmetic is exact, on natural numbers.

## Main definitions

* `Binary64` — a number of the format, an infinity, or no number at all.
* `roundQuotient num den` — the nearest `m · 2 ^ q`, if there is a finite one.
-/

namespace JobSupervisor.Decimal

/-- A value of the 64-bit binary format; a finite one is `± mantissa · 2 ^ exponent`. -/
inductive Binary64 where
  | nan
  | infinite (negative : Bool)
  | finite (negative : Bool) (mantissa : Nat) (exponent : Int)
  deriving DecidableEq, Repr

/-- A quotient of natural numbers times a power of two, as a quotient. -/
def scaleByPowerOfTwo (num den : Nat) (q : Int) : Nat × Nat :=
  if 0 ≤ q then (num * Nat.pow 2 q.toNat, den) else (num, den * Nat.pow 2 (-q).toNat)

/-- The largest `e` with `2 ^ e ≤ num / den`, for positive arguments. -/
def floorLog2 (num den : Nat) : Int :=
  let e : Int := (num.log2 : Int) - (den.log2 : Int)
  let (n, d) := scaleByPowerOfTwo num den (-e)
  if d ≤ n then e else e - 1

/-- The quotient rounded to the nearest natural number, a tie to the even one. -/
def divNearestEven (num den : Nat) : Nat :=
  let quotient := num / den
  let twice := 2 * (num % den)
  if twice < den then quotient
  else if den < twice then quotient + 1
  else if quotient % 2 = 0 then quotient else quotient + 1

/-- The least mantissa of a number that is not subnormal, `2 ^ 52`. -/
def leastNormal : Nat := 0x10000000000000

/-- The nearest finite number to a quotient, or `none` if the quotient lies beyond the
largest one.  A zero numerator gives zero. -/
def roundQuotient (num den : Nat) : Option (Nat × Int) :=
  if num = 0 then some (0, 0)
  else
    let q := max (floorLog2 num den - 52) (-1074)
    let (n, d) := scaleByPowerOfTwo num den (-q)
    let m := divNearestEven n d
    let (m, q) := if m = 2 * leastNormal then (leastNormal, q + 1) else (m, q)
    if 971 < q then none else some (m, q)

/-- The number nearest to a signed quotient. -/
def Binary64.ofQuotient (negative : Bool) (num den : Nat) : Binary64 :=
  match roundQuotient num den with
  | some (m, q) => .finite negative m q
  | none => .infinite negative

/-- The exact value of `m · 2 ^ q` as a quotient of natural numbers. -/
def exactQuotient (m : Nat) (q : Int) : Nat × Nat :=
  scaleByPowerOfTwo m 1 q

/-- The sum of two non-negative numbers, rounded once. -/
def Binary64.addMagnitudes : Binary64 → Binary64 → Binary64
  | .finite _ m q, .finite _ m' q' =>
      let (n, d) := exactQuotient m q
      let (n', d') := exactQuotient m' q'
      .ofQuotient false (n * d' + n' * d) (d * d')
  | .nan, _ | _, .nan => .nan
  | _, _ => .infinite false

/-- The number nearest to `digits · 10 ^ exponent`.  A power of ten far outside the
format decides the answer without being computed. -/
def Binary64.ofDecimal (negative : Bool) (digits : Nat) (exponent : Int) : Binary64 :=
  let magnitude : Int := (Nat.toDigits 10 digits).length + exponent
  if digits = 0 then .finite negative 0 0
  else if 320 < magnitude then .infinite negative
  else if magnitude < -340 then .finite negative 0 0
  else if 0 ≤ exponent then .ofQuotient negative (digits * Nat.pow 10 exponent.toNat) 1
  else .ofQuotient negative digits (Nat.pow 10 (-exponent).toNat)

end JobSupervisor.Decimal
