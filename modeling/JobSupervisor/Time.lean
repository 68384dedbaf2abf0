import JobSupervisor.Decimal.Shortest

/-!
# Durations and instants

Durations and instants count nanoseconds.  An instant is a reading of a clock that never
goes back; the clock holds signed 64-bit seconds, so adding a long duration to an instant
can leave its range.

## Main definitions

* `Duration`, `Instant` — counts of nanoseconds.
* `Instant.later?` — an instant plus a duration, if the clock can hold it.
* `Duration.inSeconds` — a duration as a floating-point number of seconds, as log events
  show it.
-/

namespace JobSupervisor

/-- A length of time in nanoseconds. -/
structure Duration where
  nanos : Nat
  deriving DecidableEq, Repr

namespace Duration

/-- A whole number of seconds. -/
def ofSecs (n : Nat) : Duration := ⟨n * 1000000000⟩

/-- A whole number of milliseconds. -/
def ofMillis (n : Nat) : Duration := ⟨n * 1000000⟩

/-- The whole seconds of a duration. -/
def secs (d : Duration) : Nat := d.nanos / 1000000000

/-- The nanoseconds beyond the whole seconds. -/
def subsecNanos (d : Duration) : Nat := d.nanos % 1000000000

/-- The whole milliseconds of a duration, as a 64-bit word. -/
def millisWord (d : Duration) : Nat := d.nanos / 1000000 % UInt64.size

/-- Whether a duration has no length. -/
def isZero (d : Duration) : Bool := d.nanos = 0

instance : LT Duration := ⟨fun a b => a.nanos < b.nanos⟩

instance (a b : Duration) : Decidable (a < b) :=
  inferInstanceAs (Decidable (a.nanos < b.nanos))

/-- A number of seconds in log events: positional from `10 ^ -4` to below `10 ^ 16`, and
always with a point when positional. -/
def secondsLayout : Decimal.Layout := ⟨some (-4, 16), true⟩

/-- The seconds and the fraction are rounded separately, and so is their sum. -/
def inSeconds (d : Duration) : Decimal.Binary64 :=
  (Decimal.Binary64.ofQuotient false d.secs 1).addMagnitudes
    (Decimal.Binary64.ofQuotient false d.subsecNanos 1000000000)

/-- The text of a duration in seconds. -/
def secondsText (d : Duration) : String := secondsLayout.render d.inSeconds

/-- A whole part and a fraction of a unit, without the zeros at the end of the fraction;
`digits` is the number of decimal places of the unit. -/
def inUnit (whole fraction digits : Nat) (unit : String) : String :=
  let ds := Nat.toDigits 10 fraction
  let padded := List.replicate (digits - ds.length) '0' ++ ds
  let kept := (padded.reverse.dropWhile (· = '0')).reverse
  toString whole ++ (if kept.isEmpty then "" else "." ++ String.ofList kept) ++ unit

/-- The text of a duration in the largest unit of which it holds at least one. -/
def text (d : Duration) : String :=
  if 0 < d.secs then inUnit d.secs d.subsecNanos 9 "s"
  else if 1000000 ≤ d.nanos then inUnit (d.nanos / 1000000) (d.nanos % 1000000) 6 "ms"
  else if 1000 ≤ d.nanos then inUnit (d.nanos / 1000) (d.nanos % 1000) 3 "µs"
  else toString d.nanos ++ "ns"

end Duration

/-- A reading of the clock, in nanoseconds. -/
structure Instant where
  nanos : Nat
  deriving DecidableEq, Repr

namespace Instant

/-- The first second that the clock cannot hold. -/
def horizon : Nat := 0x8000000000000000

instance : LT Instant := ⟨fun a b => a.nanos < b.nanos⟩

instance (a b : Instant) : Decidable (a < b) :=
  inferInstanceAs (Decidable (a.nanos < b.nanos))

/-- The instant after a duration, whether or not the clock can hold it. -/
def after (i : Instant) (d : Duration) : Instant := ⟨i.nanos + d.nanos⟩

/-- The instant after a duration, if the clock can hold it. -/
def later? (i : Instant) (d : Duration) : Option Instant :=
  if (i.after d).nanos < horizon * 1000000000 then some (i.after d) else none

/-- The clock holds exactly the instants before its horizon. -/
theorem later?_eq_some_iff {i j : Instant} {d : Duration} :
    i.later? d = some j ↔ j = i.after d ∧ j.nanos < horizon * 1000000000 := by
  unfold later?
  constructor
  · intro h
    split at h
    · rename_i hlt
      obtain rfl := Option.some.inj h
      exact ⟨rfl, hlt⟩
    · contradiction
  · rintro ⟨rfl, hlt⟩
    simp [hlt]

/-- The time from an earlier reading to a later one. -/
def since (later earlier : Instant) : Duration := ⟨later.nanos - earlier.nanos⟩

end Instant

end JobSupervisor
