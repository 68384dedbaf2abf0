import JobSupervisor.Proofs.TextPrefixes

/-!
# The search for a boundary

Cutting a text steps back from the limit until it comes to a boundary.  The boundaries are the
positions at which the bytes of a character begin, and the end of the text.  Zero is one of them,
so the search never has to step back from zero; and since a character takes at most four bytes, a
search that begins within the text ends after three steps at the latest.

A text that was cut is the longest prefix that fits, and the longest prefixes for two limits are
prefixes of each other.  Cutting twice is therefore cutting to the smaller limit.

## Main definitions

* `searchBack?` — the search, which fails if it has to step back from zero.
* `truncate_spec` — what the search finds, and what is left of a text.
-/

namespace JobSupervisor.Text

variable {cs : List Char} {s m : String} {limit n : Nat}

/-! ## The search -/

/-- Steps back from a position to a boundary.  There is no position before zero. -/
def searchBack? (cs : List Char) : Nat → Option Nat
  | 0 => if isBoundary cs 0 then some 0 else none
  | n + 1 => if isBoundary cs (n + 1) then some (n + 1) else searchBack? cs n

/-- **The search never steps back from zero**, and it ends at the last boundary. -/
theorem searchBack?_eq (cs : List Char) (n : Nat) :
    searchBack? cs n = some (lastBoundary cs n) := by
  induction n with
  | zero => simp [searchBack?, lastBoundary]
  | succ n ih =>
      rw [searchBack?, lastBoundary]
      split
      · rfl
      · exact ih

/-! ## Positions in texts -/

/-- The boundaries of a text are its valid positions: those at which the bytes of a character
begin, and the end. -/
theorem isBoundary_iff_isValid (s : String) (n : Nat) :
    isBoundary s.toList n = true ↔ (String.Pos.Raw.mk n).IsValid s := by
  rw [isBoundary_iff, String.Pos.Raw.isValid_iff_exists_append]
  constructor
  · rintro ⟨front, ⟨rest, hrest⟩, rfl⟩
    refine ⟨String.ofList front, String.ofList rest, ?_, ?_⟩
    · rw [← String.toList_inj]
      simp [hrest]
    · rw [String.Pos.Raw.ext_iff, String.byteIdx_rawEndPos, ← byteLength_toList,
        String.toList_ofList]
  · rintro ⟨front, rest, rfl, hpos⟩
    rw [String.Pos.Raw.ext_iff, String.byteIdx_rawEndPos] at hpos
    exact ⟨front.toList, by simp, (byteLength_toList front).trans hpos.symm⟩

/-- A prefix takes no more bytes than the text. -/
theorem utf8ByteSize_le_of_isPrefix (h : m.toList <+: s.toList) :
    m.utf8ByteSize ≤ s.utf8ByteSize := by
  simpa using String.utf8Len_le_of_prefix h

/-- The end of a prefix is a position of the text. -/
theorem isBoundary_of_isPrefix (h : m.toList <+: s.toList) :
    isBoundary s.toList m.utf8ByteSize = true :=
  (isBoundary_iff _ _).mpr ⟨m.toList, h, byteLength_toList m⟩

/-! ## The longest prefix that fits -/

namespace IsCut

/-- The longest prefix that fits ends at the last boundary that fits. -/
theorem utf8ByteSize_eq (h : IsCut limit s m) : m.utf8ByteSize = lastBoundary s.toList limit := by
  apply le_antisymm
  · exact le_lastBoundary h.fits (isBoundary_of_isPrefix h.isPrefix)
  · obtain ⟨front, hfront, hlength⟩ :=
      (isBoundary_iff _ _).mp (isBoundary_lastBoundary s.toList limit)
    have hsize : (String.ofList front).utf8ByteSize = lastBoundary s.toList limit := by
      rw [← byteLength_toList, String.toList_ofList, hlength]
    have hfits : (String.ofList front).utf8ByteSize ≤ limit := by
      rw [hsize]
      exact lastBoundary_le _ _
    rw [← hsize]
    exact utf8ByteSize_le_of_isPrefix (h.longest _ (by simpa using hfront) hfits)

/-- A text that fits is its own longest prefix. -/
theorem of_fits (h : s.utf8ByteSize ≤ limit) : IsCut limit s s :=
  ⟨List.prefix_rfl, h, fun _ hfront _ => hfront⟩

/-- What is left of a text that does not fit could not take the next character, and no character
takes more than four bytes. -/
theorem limit_le (h : IsCut limit s m) (hs : limit < s.utf8ByteSize) :
    limit ≤ m.utf8ByteSize + 3 := by
  obtain ⟨rest, hrest⟩ := h.isPrefix
  cases rest with
  | nil =>
      have hwhole : m = s := String.toList_inj.mp (by simpa using hrest)
      have := h.fits
      subst hwhole
      omega
  | cons c rest =>
      by_contra hfar
      have hsize : (m ++ String.singleton c).utf8ByteSize ≤ limit := by
        rw [String.utf8ByteSize_append, String.utf8ByteSize_singleton]
        have := c.utf8Size_le_four
        omega
      have hnext := h.longest (m ++ String.singleton c) (by simp [← hrest]) hsize
      have := hnext.length_le
      simp at this

/-- The longest prefix for one limit, of the longest prefix for another, is the longest prefix for
the smaller limit. -/
theorem trans {again : Nat} {m' : String} (h : IsCut limit s m) (h' : IsCut again m m') :
    IsCut (min limit again) s m' := by
  have hle : m'.utf8ByteSize ≤ m.utf8ByteSize := utf8ByteSize_le_of_isPrefix h'.isPrefix
  refine ⟨h'.isPrefix.trans h.isPrefix, ?_, ?_⟩
  · exact le_min (hle.trans h.fits) h'.fits
  · intro front hfront hfits
    exact h'.longest front (h.longest front hfront (hfits.trans (min_le_left _ _)))
      (hfits.trans (min_le_right _ _))

end IsCut

/-- **Cutting a text to a limit.**  The search for a boundary never steps back from zero, and steps
back at most three times in a text that does not fit.  What is left is the longest prefix that
fits; it ends at a position of the text, and no position that the limit allows lies after it.  So
a text that fits is left as it is, one that does not fit loses at most three bytes of the limit,
and cutting twice is cutting to the smaller limit. -/
theorem truncate_spec (limit : Nat) (s : String) :
    (∃ n, searchBack? s.toList limit = some n ∧
      (limit < s.utf8ByteSize → n = (truncate limit s).utf8ByteSize ∧ limit ≤ n + 3)) ∧
    IsCut limit s (truncate limit s) ∧
    (truncate limit s).rawEndPos.IsValid s ∧
    (∀ n ≤ limit, (String.Pos.Raw.mk n).IsValid s → n ≤ (truncate limit s).utf8ByteSize) ∧
    (s.utf8ByteSize ≤ limit → truncate limit s = s) ∧
    (limit < s.utf8ByteSize →
      (truncate limit s).utf8ByteSize ≤ limit ∧ limit ≤ (truncate limit s).utf8ByteSize + 3) ∧
    ∀ again, truncate again (truncate limit s) = truncate (min limit again) s := by
  have hcut := isCut_truncate limit s
  have hsize := hcut.utf8ByteSize_eq
  refine ⟨⟨_, searchBack?_eq s.toList limit, ?_⟩, hcut, ?_, ?_, ?_, ?_, ?_⟩
  · intro hs
    rw [← hsize]
    exact ⟨rfl, hcut.limit_le hs⟩
  · exact (isBoundary_iff_isValid s _).mp (isBoundary_of_isPrefix hcut.isPrefix)
  · intro n hn hvalid
    rw [hsize]
    exact le_lastBoundary hn ((isBoundary_iff_isValid s n).mpr hvalid)
  · intro hs
    exact hcut.unique (.of_fits hs)
  · intro hs
    exact ⟨hcut.fits, hcut.limit_le hs⟩
  · intro again
    exact (hcut.trans (isCut_truncate again _)).unique (isCut_truncate _ s)

-- The limit lies within the last of three characters of four bytes each.
example : (truncate 11 "😀😀😀").utf8ByteSize = 8 := by decide +kernel

end JobSupervisor.Text
