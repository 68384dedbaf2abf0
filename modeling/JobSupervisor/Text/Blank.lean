/-!
# White space

The characters with the Unicode property `White_Space`, and the trimming that health
reasons, supplied identifiers and job names are subject to.  A text is *blank* when
nothing is left of it after trimming.  Zero-width space (U+200B) and the byte order
mark (U+FEFF) do not have the property, and neither do the separators U+001C to
U+001F.

## Main definitions

* `isWhite c` — `c` has the property `White_Space`.
* `trim s` — `s` without the white space at its two ends.
* `IsBlank s` — every character of `s` is white space.
-/

namespace JobSupervisor.Text

/-- The characters with the Unicode property `White_Space`. -/
def isWhite (c : Char) : Bool :=
  let n := c.toNat
  (0x09 ≤ n && n ≤ 0x0D) || n == 0x20 || n == 0x85 || n == 0xA0 || n == 0x1680 ||
    (0x2000 ≤ n && n ≤ 0x200A) || n == 0x2028 || n == 0x2029 || n == 0x202F ||
    n == 0x205F || n == 0x3000

/-- The characters of a list that remain after white space is dropped at both ends. -/
def trimChars (cs : List Char) : List Char :=
  ((cs.dropWhile isWhite).reverse.dropWhile isWhite).reverse

/-- A text without the white space at its two ends. -/
def trim (s : String) : String :=
  String.ofList (trimChars s.toList)

/-- Every character is white space; the empty text is blank. -/
def IsBlank (s : String) : Prop :=
  ∀ c ∈ s.toList, isWhite c = true

instance (s : String) : Decidable (IsBlank s) :=
  List.decidableBAll (fun c => isWhite c = true) s.toList

theorem dropWhile_eq_nil_iff {α : Type} (p : α → Bool) (l : List α) :
    l.dropWhile p = [] ↔ ∀ x ∈ l, p x = true := by
  induction l with
  | nil => simp
  | cons x l ih =>
      by_cases hx : p x = true
      · simp [hx, ih]
      · simp [hx]

theorem head_dropWhile {α : Type} (p : α → Bool) (l : List α) {x : α} {r : List α}
    (h : l.dropWhile p = x :: r) : p x = false := by
  induction l with
  | nil => simp at h
  | cons y l ih =>
      by_cases hy : p y = true
      · rw [List.dropWhile_cons, if_pos hy] at h
        exact ih h
      · rw [List.dropWhile_cons, if_neg hy] at h
        obtain ⟨rfl, -⟩ := List.cons.inj h
        simpa using hy

/-- Trimming leaves nothing exactly when everything was white space. -/
theorem trimChars_eq_nil_iff (cs : List Char) :
    trimChars cs = [] ↔ ∀ c ∈ cs, isWhite c = true := by
  constructor
  · intro h
    have h' : (cs.dropWhile isWhite).reverse.dropWhile isWhite = [] := by
      simpa [trimChars] using h
    rw [dropWhile_eq_nil_iff] at h'
    cases hd : cs.dropWhile isWhite with
    | nil => exact (dropWhile_eq_nil_iff _ _).1 hd
    | cons x r =>
        have hx := head_dropWhile isWhite cs hd
        have := h' x (by simp [hd])
        simp [this] at hx
  · intro h
    simp [trimChars, (dropWhile_eq_nil_iff _ _).2 h]

/-- A text is blank exactly when its trimmed form is empty. -/
theorem trim_eq_empty_iff (s : String) : trim s = "" ↔ IsBlank s := by
  rw [IsBlank, ← trimChars_eq_nil_iff, trim]
  constructor
  · intro h
    simpa using congrArg String.toList h
  · intro h
    rw [h]

theorem isEmpty_trim_iff (s : String) : (trim s).isEmpty = true ↔ IsBlank s := by
  rw [String.isEmpty_iff, trim_eq_empty_iff]

end JobSupervisor.Text
