import JobSupervisor.Decimal.Binary64

/-!
# The shortest decimal that reads back

A finite number is written with the fewest decimal digits that round to it again, and
among those with the digits nearest to it.  For one digit, two digits and so on up to
seventeen, the two neighbours of the number on the grid of decimals of that length are
compared with the interval of values that round to the number; the first grid with a hit
wins.

## Main definitions

* `shortest m q` — digits and decimal exponent of the shortest decimal for `m · 2 ^ q`.
* `Layout` — where positional notation is used and whether a point is always written.
* `Layout.render` — a number in a layout.
-/

namespace JobSupervisor.Decimal

/-- The comparison of decimals with a binary number at one decimal exponent: a decimal
`d` stands at `d * step`, the number and the two ends of its interval at the other
three places. -/
structure Grid where
  step : Nat
  value : Nat
  low : Nat
  high : Nat
  closed : Bool

/-- The grid of decimals `d · 10 ^ p` around `m · 2 ^ q`. -/
def Grid.around (m : Nat) (q p : Int) : Grid :=
  let (unitNum, unitDen) := scaleByPowerOfTwo 1 1 (q - 2)
  let (tenNum, tenDen) : Nat × Nat :=
    if 0 ≤ p then (Nat.pow 10 p.toNat, 1) else (1, Nat.pow 10 (-p).toNat)
  let unit := unitNum * tenDen
  let below := if m = leastNormal ∧ -1074 < q then 1 else 2
  ⟨tenNum * unitDen, 4 * m * unit, (4 * m - below) * unit, (4 * m + 2) * unit, m % 2 = 0⟩

/-- Whether a decimal rounds to the number. -/
def Grid.hits (g : Grid) (d : Nat) : Bool :=
  let x := d * g.step
  d ≠ 0 && (if g.closed then g.low ≤ x && x ≤ g.high else g.low < x && x < g.high)

/-- The neighbour of the number on the grid that rounds to it: the nearer of two, and the
upper one if both are equally near. -/
def Grid.nearest? (g : Grid) : Option Nat :=
  let d := g.value / g.step
  match g.hits d, g.hits (d + 1) with
  | true, true =>
      if g.value - d * g.step < (d + 1) * g.step - g.value then some d else some (d + 1)
  | true, false => some d
  | false, true => some (d + 1)
  | false, false => none

/-- Whether `10 ^ k` is at most `m · 2 ^ q`. -/
def powerOfTenLe (k : Int) (m : Nat) (q : Int) : Bool :=
  let (n, d) := exactQuotient m q
  if 0 ≤ k then d * Nat.pow 10 k.toNat ≤ n else d ≤ n * Nat.pow 10 (-k).toNat

/-- The largest `k` with `10 ^ k ≤ m · 2 ^ q`, for a positive `m`. -/
def floorLog10 (m : Nat) (q : Int) : Int :=
  let k := ((m.log2 : Int) + q) * 30103 / 100000
  if powerOfTenLe (k + 1) m q then k + 1 else if powerOfTenLe k m q then k else k - 1

/-- Removes the zeros at the end of the digits into the exponent. -/
def stripZeros : Nat → Nat → Int → Nat × Int
  | 0, d, p => (d, p)
  | fuel + 1, d, p => if d ≠ 0 ∧ d % 10 = 0 then stripZeros fuel (d / 10) (p + 1) else (d, p)

/-- Tries the grids from `n` digits on; `fuel` is the number of grids left. -/
def shortestFrom (m : Nat) (q top : Int) : Nat → Nat → Nat × Int
  | 0, _ => (0, 0)
  | fuel + 1, n =>
      let p := top - n + 1
      match (Grid.around m q p).nearest? with
      | some d => stripZeros 18 d p
      | none => shortestFrom m q top fuel (n + 1)

/-- Digits and decimal exponent of the shortest decimal for `m · 2 ^ q`. -/
def shortest (m : Nat) (q : Int) : Nat × Int :=
  if m = 0 then (0, 0) else shortestFrom m q (floorLog10 m q) 17 1

/-- How numbers are laid out: the decimal exponents of the leading digit that are written
positionally (all of them if there is no range), and whether a point is always written. -/
structure Layout where
  positional : Option (Int × Int)
  point : Bool

/-- Digits with the point placed by the exponent. -/
def placed (point : Bool) (digits : Nat) (exponent : Int) : String :=
  let ds := Nat.toDigits 10 digits
  if 0 ≤ exponent then
    String.ofList (ds ++ List.replicate exponent.toNat '0') ++ (if point then ".0" else "")
  else
    let places := (-exponent).toNat
    let padded := List.replicate (places + 1 - ds.length) '0' ++ ds
    String.ofList (padded.take (padded.length - places)) ++ "." ++
      String.ofList (padded.drop (padded.length - places))

/-- One digit before the point and a decimal exponent after `e`. -/
def scientific (digits : Nat) (exponent : Int) : String :=
  match Nat.toDigits 10 digits with
  | [] => "0e0"
  | d :: rest =>
      let fraction := if rest.isEmpty then "" else "." ++ String.ofList rest
      String.singleton d ++ fraction ++ "e" ++ toString (exponent + rest.length)

/-- A number in a layout. -/
def Layout.render (l : Layout) : Binary64 → String
  | .nan => "NaN"
  | .infinite negative => (if negative then "-" else "") ++ "inf"
  | .finite negative m q =>
      let (digits, exponent) := shortest m q
      let leading := exponent + ((Nat.toDigits 10 digits).length - 1 : Nat)
      let inside := match l.positional with
        | none => true
        | some (low, high) => digits = 0 || (low ≤ leading && leading < high)
      (if negative then "-" else "") ++
        (if inside then placed l.point digits exponent else scientific digits exponent)

end JobSupervisor.Decimal
