/-!
# Cutting a text to a byte limit

A text that is longer than a byte limit is cut at the last character boundary that the
limit allows.  The boundary is found by stepping back from the limit one byte at a time;
zero is always a boundary, so the search ends there at the latest.

## Main definitions

* `byteLength cs` — the bytes that characters take in UTF-8.
* `isBoundary cs n` — some prefix of `cs` takes exactly `n` bytes.
* `lastBoundary cs n` — the last boundary at or before `n`.
* `truncate limit s` — the longest prefix of `s` that fits into `limit` bytes.
-/

namespace JobSupervisor.Text

/-- The number of bytes that a list of characters takes in UTF-8. -/
def byteLength : List Char → Nat
  | [] => 0
  | c :: rest => c.utf8Size + byteLength rest

/-- Whether some prefix takes exactly this many bytes. -/
def isBoundary : List Char → Nat → Bool
  | _, 0 => true
  | [], _ + 1 => false
  | c :: rest, n + 1 => c.utf8Size ≤ n + 1 && isBoundary rest (n + 1 - c.utf8Size)

/-- Steps back from a byte position to the last boundary at or before it. -/
def lastBoundary (cs : List Char) : Nat → Nat
  | 0 => 0
  | n + 1 => if isBoundary cs (n + 1) then n + 1 else lastBoundary cs n

/-- The characters that lie before a byte position. -/
def takeBytes : Nat → List Char → List Char
  | _, [] => []
  | n, c :: rest => if c.utf8Size ≤ n then c :: takeBytes (n - c.utf8Size) rest else []

/-- The text itself if it fits into `limit` bytes, and otherwise what lies before the
last boundary that fits. -/
def truncate (limit : Nat) (s : String) : String :=
  let cs := s.toList
  if byteLength cs ≤ limit then s
  else String.ofList (takeBytes (lastBoundary cs limit) cs)

@[simp] theorem byteLength_nil : byteLength [] = 0 := rfl

@[simp] theorem byteLength_cons (c : Char) (cs : List Char) :
    byteLength (c :: cs) = c.utf8Size + byteLength cs := rfl

@[simp] theorem isBoundary_zero (cs : List Char) : isBoundary cs 0 = true := by
  cases cs <;> rfl

/-- The search never passes its starting point. -/
theorem lastBoundary_le (cs : List Char) (n : Nat) : lastBoundary cs n ≤ n := by
  induction n with
  | zero => simp [lastBoundary]
  | succ n ih =>
      rw [lastBoundary]
      split
      · exact Nat.le_refl _
      · exact Nat.le_succ_of_le ih

/-- The search ends at a boundary. -/
theorem isBoundary_lastBoundary (cs : List Char) (n : Nat) :
    isBoundary cs (lastBoundary cs n) = true := by
  induction n with
  | zero => simp [lastBoundary]
  | succ n ih =>
      rw [lastBoundary]
      split
      · assumption
      · exact ih

end JobSupervisor.Text
