import JobSupervisor.Text.Prefix
import Mathlib.Data.List.Infix
import Mathlib.Data.String.Basic

/-!
# Prefixes that fit into a byte limit

The prefixes of a text are ordered by their lengths, and the boundaries of a text are the byte
lengths of its prefixes.  Stepping back from the limit therefore finds the byte length of the
longest prefix that fits, and cutting there gives that prefix: a text that was cut to a limit is
a prefix, it fits, and every other prefix that fits is a prefix of it.

A character takes at most four bytes, so a limit of four is enough for something to be left of
a text, and the first character is among it.

## Main definitions

* `IsCut limit s m` — `m` is the longest prefix of `s` that fits into `limit` bytes.
* `isCut_truncate` — truncation finds it.
-/

namespace JobSupervisor.Text

/-! ## Byte lengths -/

theorem byteLength_eq_utf8Len (cs : List Char) : byteLength cs = String.utf8Len cs := by
  induction cs with
  | nil => rfl
  | cons c cs ih => rw [byteLength_cons, String.utf8Len_cons, ih, Nat.add_comm]

/-- The byte length of a text is that of its characters. -/
theorem byteLength_toList (s : String) : byteLength s.toList = s.utf8ByteSize := by
  rw [byteLength_eq_utf8Len, String.utf8Len_toList]

variable {cs front : List Char}

/-! ## Boundaries -/

/-- The boundaries are the byte lengths of the prefixes. -/
theorem isBoundary_iff (cs : List Char) (n : Nat) :
    isBoundary cs n = true ↔ ∃ front, front <+: cs ∧ byteLength front = n := by
  induction cs generalizing n with
  | nil =>
      cases n with
      | zero => simp
      | succ n => simp [isBoundary]
  | cons c cs ih =>
      cases n with
      | zero =>
          simp only [isBoundary_zero, true_iff]
          exact ⟨[], List.nil_prefix, rfl⟩
      | succ n =>
          simp only [isBoundary, Bool.and_eq_true, decide_eq_true_eq, ih]
          constructor
          · rintro ⟨hc, front, hfront, hlen⟩
            refine ⟨c :: front, by simpa using hfront, ?_⟩
            simp only [byteLength_cons]
            omega
          · rintro ⟨front, hfront, hlen⟩
            cases front with
            | nil => simp at hlen
            | cons d front =>
                obtain ⟨rfl, hrest⟩ := List.cons_prefix_cons.mp hfront
                simp only [byteLength_cons] at hlen
                exact ⟨by omega, front, hrest, by omega⟩

/-- The search ends at the greatest boundary: no boundary up to its starting point lies after
it. -/
theorem le_lastBoundary {m n : Nat} (hm : m ≤ n) (h : isBoundary cs m = true) :
    m ≤ lastBoundary cs n := by
  induction n with
  | zero => exact hm
  | succ n ih =>
      rw [lastBoundary]
      split
      · exact hm
      · have hne : m ≠ n + 1 := by
          rintro rfl
          contradiction
        exact ih (by omega)

/-! ## What lies before a byte position -/

theorem takeBytes_isPrefix (n : Nat) (cs : List Char) : takeBytes n cs <+: cs := by
  induction cs generalizing n with
  | nil => simp [takeBytes]
  | cons c cs ih =>
      rw [takeBytes]
      split
      · simpa using ih _
      · exact List.nil_prefix

theorem byteLength_takeBytes_le (n : Nat) (cs : List Char) : byteLength (takeBytes n cs) ≤ n := by
  induction cs generalizing n with
  | nil => simp [takeBytes]
  | cons c cs ih =>
      rw [takeBytes]
      split
      · have := ih (n - c.utf8Size)
        simp only [byteLength_cons]
        omega
      · simp

/-- Every prefix that fits is a prefix of what lies before the position. -/
theorem isPrefix_takeBytes {n : Nat} (h : front <+: cs) (hn : byteLength front ≤ n) :
    front <+: takeBytes n cs := by
  induction cs generalizing front n with
  | nil => simpa [takeBytes] using h
  | cons c cs ih =>
      cases front with
      | nil => exact List.nil_prefix
      | cons d front =>
          obtain ⟨rfl, hrest⟩ := List.cons_prefix_cons.mp h
          simp only [byteLength_cons] at hn
          rw [takeBytes, if_pos (by omega)]
          simpa using ih hrest (by omega)

/-- The last boundary before a position has the same characters before it as the position. -/
theorem takeBytes_lastBoundary (n : Nat) (cs : List Char) :
    takeBytes (lastBoundary cs n) cs = takeBytes n cs := by
  have hle := byteLength_takeBytes_le n cs
  have hfits : byteLength (takeBytes n cs) ≤ lastBoundary cs n :=
    le_lastBoundary hle ((isBoundary_iff cs _).mpr ⟨_, takeBytes_isPrefix n cs, rfl⟩)
  have hback : byteLength (takeBytes (lastBoundary cs n) cs) ≤ n :=
    (byteLength_takeBytes_le _ cs).trans (lastBoundary_le cs n)
  have h₁ := isPrefix_takeBytes (takeBytes_isPrefix (lastBoundary cs n) cs) hback
  have h₂ := isPrefix_takeBytes (takeBytes_isPrefix n cs) hfits
  exact h₁.eq_of_length (le_antisymm h₁.length_le h₂.length_le)

/-! ## Cutting to a limit -/

/-- The longest prefix of a text that fits into a number of bytes.  A prefix is a text, so it
ends at a boundary. -/
structure IsCut (limit : Nat) (s m : String) : Prop where
  isPrefix : m.toList <+: s.toList
  fits : m.utf8ByteSize ≤ limit
  longest : ∀ front : String, front.toList <+: s.toList → front.utf8ByteSize ≤ limit →
    front.toList <+: m.toList

variable {limit : Nat} {s m : String}

/-- **Truncation finds the longest prefix that fits.** -/
theorem isCut_truncate (limit : Nat) (s : String) : IsCut limit s (truncate limit s) := by
  simp only [truncate]
  split
  case isTrue h =>
    rw [byteLength_toList] at h
    exact ⟨List.prefix_rfl, h, fun front hfront _ => hfront⟩
  case isFalse h =>
    rw [takeBytes_lastBoundary]
    refine ⟨?_, ?_, ?_⟩
    · simpa using takeBytes_isPrefix limit s.toList
    · simpa [← byteLength_toList] using byteLength_takeBytes_le limit s.toList
    · intro front hfront hfits
      rw [← byteLength_toList] at hfits
      simpa using isPrefix_takeBytes hfront hfits

/-- A cut at two bytes would split the second character. -/
example : truncate 2 "aé" = "a" := by decide +kernel

namespace IsCut

/-- A text and a limit have one longest prefix that fits. -/
theorem unique {m' : String} (h : IsCut limit s m) (h' : IsCut limit s m') : m = m' := by
  have h₁ := h'.longest m h.isPrefix h.fits
  have h₂ := h.longest m' h'.isPrefix h'.fits
  exact String.toList_inj.mp (h₁.eq_of_length (le_antisymm h₁.length_le h₂.length_le))

/-- With four bytes or more, the first character is left. -/
theorem head_mem (h : IsCut limit s m) (hlimit : 4 ≤ limit) {c : Char} {rest : List Char}
    (hs : s.toList = c :: rest) : c ∈ m.toList := by
  have hfits : (String.singleton c).utf8ByteSize ≤ limit := by
    rw [String.utf8ByteSize_singleton]
    exact c.utf8Size_le_four.trans hlimit
  have hone := h.longest (String.singleton c) (by simp [hs]) hfits
  exact hone.subset (by simp)

end IsCut

end JobSupervisor.Text
