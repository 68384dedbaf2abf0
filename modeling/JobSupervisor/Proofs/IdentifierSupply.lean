import JobSupervisor.Context.Identifier

/-!
# The supply of identifiers never repeats

The last group of an identifier counts the identifiers that were drawn.  Its digits can be read
back, also with the zeros in front of them, so different counts have different texts.

## Main definitions

* `Identifier.count` — the number that hexadecimal digits stand for.
* `Identifier.nth_injective` — no identifier is drawn twice.
-/

namespace JobSupervisor.Context.Identifier

/-- The value of a hexadecimal digit in lower case. -/
def digit (c : Char) : Nat := if c ≤ '9' then c.toNat - '0'.toNat else c.toNat - 'a'.toNat + 10

/-- The number that hexadecimal digits stand for, the most significant one first.
`Nat.ofDigitChars` does this up to the base ten. -/
def count (cs : List Char) : Nat := cs.foldl (fun n c => 16 * n + digit c) 0

theorem digit_digitChar : ∀ d < 16, digit (Nat.digitChar d) = d := by decide

theorem count_concat (cs : List Char) (c : Char) : count (cs ++ [c]) = 16 * count cs + digit c := by
  simp [count]

theorem count_toDigits (n : Nat) : count (Nat.toDigits 16 n) = n := by
  induction n using Nat.strongRecOn with
  | ind n ih =>
      by_cases hn : n < 16
      · rw [Nat.toDigits_of_lt_base hn]
        simpa [count] using digit_digitChar n hn
      · have hdiv : n / 16 < n := by omega
        rw [Nat.toDigits_of_base_le (by omega) (by omega), count_concat, ih _ hdiv,
          digit_digitChar _ (by omega)]
        omega

/-- Zeros in front do not change a number. -/
theorem count_replicate_append (k : Nat) (cs : List Char) :
    count (List.replicate k '0' ++ cs) = count cs := by
  induction k with
  | zero => rfl
  | succ k ih =>
      have hzero : digit '0' = 0 := by decide
      simpa [List.replicate_succ, count, hzero] using ih

theorem count_group (n : Nat) : count (group n).toList = n := by
  simp only [group, String.toList_ofList]
  rw [count_replicate_append, count_toDigits]

/-- **No identifier is drawn twice.** -/
theorem nth_injective {m n : Nat} (h : nth m = nth n) : m = n := by
  have hlists := congrArg String.toList h
  simp only [nth, String.toList_append] at hlists
  have hgroups := List.append_cancel_left hlists
  rw [← count_group m, ← count_group n, hgroups]

end JobSupervisor.Context.Identifier
