import JobSupervisor.Text.Quoted

/-!
# Fresh identifiers

A fresh identifier is drawn from an endless supply.  Its text is a version 4 UUID in
lower case with hyphens, whose last group counts the identifiers drawn; the supply never
repeats because the count never does.

## Main definitions

* `Identifier.nth n` — the text of the `n`-th identifier of the supply.
-/

namespace JobSupervisor.Context.Identifier

/-- The part that all identifiers of the supply share. -/
def shared : String := "6b1f0c3e-92d4-4f7a-8c5b-"

/-- The digits of the count, filled up with zeros to the length of a last group. -/
def group (n : Nat) : String :=
  let digits := Nat.toDigits 16 n
  String.ofList (List.replicate (12 - digits.length) '0' ++ digits)

/-- The text of the `n`-th identifier. -/
def nth (n : Nat) : String := shared ++ group n

end JobSupervisor.Context.Identifier
