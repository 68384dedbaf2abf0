import JobSupervisor.Health.Record

/-!
# Records under sequences of operations

Which records can occur, and what a sequence of operations leaves of one.  A record that is
not degraded is pristine and a degraded one has a reason that is not blank; every operation
keeps this.  The outstanding error is what the last operation that sets or clears it says,
because a healing leaves it as it was.

## Main definitions

* `Record.Sound` — the records that can occur.
* `Record.after` — operations one after the other.
* `Operation.flag?` — what an operation makes of the outstanding error.
-/

namespace JobSupervisor.Health

/-! ## The reason that a failure text leaves -/

theorem usableReason_of_isBlank {text : String} (h : Text.IsBlank text) :
    usableReason (some text) = unknownReason := by
  simp [usableReason, (Text.isEmpty_trim_iff text).2 h]

/-- A text that is not blank is recorded verbatim. -/
theorem usableReason_of_not_isBlank {text : String} (h : ¬ Text.IsBlank text) :
    usableReason (some text) = text := by
  have hne : ¬ (Text.trim text).isEmpty = true := mt (Text.isEmpty_trim_iff text).1 h
  simp [usableReason, hne]

theorem usableReason_some (text : String) :
    usableReason (some text) = if Text.IsBlank text then "Unknown" else text := by
  by_cases h : Text.IsBlank text
  · rw [if_pos h, usableReason_of_isBlank h]
    rfl
  · rw [if_neg h, usableReason_of_not_isBlank h]

theorem not_isBlank_unknownReason : ¬ Text.IsBlank unknownReason := by decide

/-- A recorded reason is never blank. -/
theorem not_isBlank_usableReason (reason : Option String) :
    ¬ Text.IsBlank (usableReason reason) := by
  cases reason with
  | none => exact not_isBlank_unknownReason
  | some text =>
      by_cases h : Text.IsBlank text
      · rw [usableReason_of_isBlank h]
        exact not_isBlank_unknownReason
      · rwa [usableReason_of_not_isBlank h]

namespace Record

/-! ## The records that can occur -/

/-- A record that can occur: pristine unless degraded, and with a usable reason if so. -/
structure Sound (r : Record) : Prop where
  healthy : r.unhealthy = false → r = pristine
  degraded : r.unhealthy = true → ∃ text, ¬ Text.IsBlank text ∧ r.reason = some text

theorem sound_pristine : pristine.Sound :=
  ⟨fun _ => rfl, fun h => by simp [pristine] at h⟩

theorem sound_failed (reason : Option String) : (failed reason).Sound :=
  ⟨fun h => by simp [failed] at h,
    fun _ => ⟨usableReason reason, not_isBlank_usableReason reason, rfl⟩⟩

theorem Sound.reset {r : Record} (h : r.Sound) : r.reset.Sound := by
  refine ⟨fun hu => ?_, fun hu => h.degraded hu⟩
  rw [h.healthy hu]
  rfl

theorem Sound.healed {r : Record} (h : r.Sound) : r.healed.Sound := by
  by_cases ho : r.outstanding = true
  · rwa [healed_of_outstanding ho]
  · rw [healed_of_not_outstanding (by simpa using ho)]
    exact sound_pristine

/-- Every operation leaves a record that can occur. -/
theorem Sound.apply {r : Record} (h : r.Sound) (op : Operation) : (op.apply r).Sound := by
  cases op with
  | markHealthy => exact sound_pristine
  | markUnhealthy reason => exact sound_failed reason
  | resetOutstanding => exact h.reset
  | healUnlessOutstanding => exact h.healed

/-- Only a degraded record has an outstanding error. -/
theorem Sound.unhealthy_of_outstanding {r : Record} (h : r.Sound)
    (ho : r.outstanding = true) : r.unhealthy = true := by
  cases hu : r.unhealthy with
  | true => rfl
  | false =>
      rw [h.healthy hu] at ho
      simp [pristine] at ho

theorem Sound.eq_of_outstanding {r : Record} (h : r.Sound) (ho : r.outstanding = true) :
    r = ⟨true, true, r.reason⟩ := by
  have hu := h.unhealthy_of_outstanding ho
  cases r
  simp_all

/-! ## Sequences of operations -/

/-- The record after operations one after the other. -/
def after (ops : List Operation) (r : Record) : Record :=
  ops.foldl (fun r op => op.apply r) r

@[simp] theorem after_nil (r : Record) : r.after [] = r := rfl

@[simp] theorem after_cons (op : Operation) (ops : List Operation) (r : Record) :
    r.after (op :: ops) = (op.apply r).after ops := rfl

@[simp] theorem after_append (ops ops' : List Operation) (r : Record) :
    r.after (ops ++ ops') = (r.after ops).after ops' :=
  List.foldl_append

/-- Sequences of operations leave records that can occur. -/
theorem Sound.after {r : Record} (h : r.Sound) (ops : List Operation) : (r.after ops).Sound := by
  induction ops generalizing r with
  | nil => exact h
  | cons op ops ih => exact ih (h.apply op)

end Record

/-! ## The outstanding error -/

/-- What an operation makes of the outstanding error; a healing leaves it as it is. -/
def Operation.flag? : Operation → Option Bool
  | .markHealthy => some false
  | .markUnhealthy _ => some true
  | .resetOutstanding => some false
  | .healUnlessOutstanding => none

namespace Record

theorem outstanding_healed (r : Record) : r.healed.outstanding = r.outstanding := by
  by_cases ho : r.outstanding = true
  · rw [healed_of_outstanding ho]
  · rw [healed_of_not_outstanding (by simpa using ho)]
    simpa [pristine] using ho

theorem outstanding_apply (op : Operation) (r : Record) :
    (op.apply r).outstanding = op.flag?.getD r.outstanding := by
  cases op with
  | markHealthy => rfl
  | markUnhealthy reason => rfl
  | resetOutstanding => rfl
  | healUnlessOutstanding => exact outstanding_healed r

/-- **The last operation that sets or clears the outstanding error decides it.** -/
theorem outstanding_after (ops : List Operation) (r : Record) :
    (r.after ops).outstanding = (ops.reverse.findSome? Operation.flag?).getD r.outstanding := by
  induction ops generalizing r with
  | nil => rfl
  | cons op ops ih =>
      rw [after_cons, ih, outstanding_apply, List.reverse_cons, List.findSome?_append]
      cases ops.reverse.findSome? Operation.flag? with
      | none => cases h : op.flag? <;> simp [h]
      | some b => rfl

end Record

end JobSupervisor.Health
