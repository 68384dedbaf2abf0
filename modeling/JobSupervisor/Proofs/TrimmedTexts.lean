import JobSupervisor.Text.Blank
import Mathlib.Data.List.DropRight

/-!
# Trimmed and blank texts

Trimming a text that is not blank leaves a text that begins with a character that is no white
space, and a text without white space stays as it is.

## Main definitions

* `exists_head_trim`, `not_isBlank_trim` — what trimming leaves of a text that is not blank.
* `trim_eq_self` — what trimming leaves as it is.
-/

namespace JobSupervisor.Text

/-- A text that is not empty after trimming begins with a character that is no white space. -/
theorem exists_head_trim {s : String} (h : trim s ≠ "") :
    ∃ c rest, (trim s).toList = c :: rest ∧ isWhite c = false := by
  have hlist : (trim s).toList = trimChars s.toList := by
    simp [trim]
  have hprefix : trimChars s.toList <+: s.toList.dropWhile isWhite := by
    exact List.rdropWhile_prefix isWhite (s.toList.dropWhile isWhite)
  cases htrim : trimChars s.toList with
  | nil =>
      rw [trim, htrim] at h
      exact absurd rfl h
  | cons c rest =>
      rw [htrim] at hprefix
      obtain ⟨more, hmore⟩ := hprefix
      refine ⟨c, rest, by rw [hlist, htrim], ?_⟩
      exact head_dropWhile isWhite s.toList hmore.symm

/-- A text with a part that is not blank is not blank. -/
theorem not_isBlank_append_left {s : String} (h : ¬ IsBlank s) (t : String) :
    ¬ IsBlank (s ++ t) := by
  intro hblank
  apply h
  intro c hc
  apply hblank
  simp [hc]

theorem not_isBlank_append_right (s : String) {t : String} (h : ¬ IsBlank t) :
    ¬ IsBlank (s ++ t) := by
  intro hblank
  apply h
  intro c hc
  apply hblank
  simp [hc]

/-- Trimming leaves something of a text that is not blank, and that is not blank. -/
theorem not_isBlank_trim {s : String} (h : ¬ IsBlank s) : ¬ IsBlank (trim s) := by
  obtain ⟨c, rest, hlist, hwhite⟩ := exists_head_trim (mt (trim_eq_empty_iff s).mp h)
  intro hblank
  have := hblank c (by simp [hlist])
  simp [this] at hwhite

/-- A text without white space is trimmed. -/
theorem trim_eq_self {s : String} (h : ∀ c ∈ s.toList, isWhite c = false) : trim s = s := by
  have hdrop {cs : List Char} (hcs : ∀ c ∈ cs, isWhite c = false) : cs.dropWhile isWhite = cs := by
    cases cs with
    | nil => rfl
    | cons c cs => rw [List.dropWhile_cons, hcs c List.mem_cons_self, if_neg Bool.false_ne_true]
  rw [trim, trimChars, hdrop h, hdrop (fun c hc => h c (List.mem_reverse.mp hc)),
    List.reverse_reverse, String.ofList_toList]

end JobSupervisor.Text
