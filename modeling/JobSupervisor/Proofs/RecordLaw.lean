import JobSupervisor.Proofs.RecordHistory
import Mathlib.Data.List.Induction

/-!
# The law of a record's history

What a new record is after operations one after the other, read off the operations alone.  Of
every failure it matters only what comes after it.  A failure is over once the record is marked
healthy, or once an error is reset and the record healed after that; a healing before the reset
does nothing.  The record is unhealthy exactly if some failure is not over, and its reason is
that of the last failure.

## Main definitions

* `FailureThen` — some failure is followed by operations of which something holds.
* `Spares` — the operations after a failure that do not end it.
* `Record.outstanding_after_iff` — which operation an outstanding error comes from.
* `Record.history_law` — the state, the reason and the answers after any operations.
-/

namespace JobSupervisor.Health

/-! ## Failures and what comes after them -/

/-- Some failure among operations is followed by operations of which something holds. -/
def FailureThen (Q : Option String → List Operation → Prop) (ops : List Operation) : Prop :=
  ∃ before reason later, ops = before ++ .markUnhealthy reason :: later ∧ Q reason later

/-- Operations that do not end a failure before them: none marks the record healthy, and none
heals it after a reset. -/
structure Spares (later : List Operation) : Prop where
  unmarked : .markHealthy ∉ later
  unhealed : ∀ mid late, later = mid ++ .resetOutstanding :: late →
    .healUnlessOutstanding ∉ late

theorem not_failureThen_nil (Q : Option String → List Operation → Prop) :
    ¬ FailureThen Q [] := by
  rintro ⟨before, reason, later, h, -⟩
  simp at h

/-- A failure in a longer history is the last operation, or it was there before and the last
operation comes after it. -/
theorem failureThen_concat_iff {Q : Option String → List Operation → Prop}
    {ops : List Operation} {op : Operation} :
    FailureThen Q (ops ++ [op]) ↔
      (∃ reason, op = .markUnhealthy reason ∧ Q reason []) ∨
        FailureThen (fun reason later => Q reason (later ++ [op])) ops := by
  constructor
  · rintro ⟨before, reason, later, h, hQ⟩
    rcases List.eq_nil_or_concat later with rfl | ⟨later, last, rfl⟩
    · obtain ⟨-, hop⟩ := List.append_inj' h rfl
      exact .inl ⟨reason, List.head_eq_of_cons_eq hop, hQ⟩
    · rw [List.concat_eq_append, ← List.cons_append, ← List.append_assoc] at h
      obtain ⟨hops, hlast⟩ := List.append_inj' h rfl
      obtain rfl := List.head_eq_of_cons_eq hlast
      exact .inr ⟨before, reason, later, hops, by simpa using hQ⟩
  · rintro (⟨reason, rfl, hQ⟩ | ⟨before, reason, later, rfl, hQ⟩)
    · exact ⟨ops, reason, [], rfl, hQ⟩
    · exact ⟨before, reason, later ++ [op], by simp, hQ⟩

theorem failureThen_congr {Q Q' : Option String → List Operation → Prop}
    (h : ∀ reason later, Q reason later ↔ Q' reason later) (ops : List Operation) :
    FailureThen Q ops ↔ FailureThen Q' ops := by
  simp only [FailureThen, h]

theorem not_failureThen {Q : Option String → List Operation → Prop}
    (h : ∀ reason later, ¬ Q reason later) (ops : List Operation) : ¬ FailureThen Q ops := by
  rintro ⟨before, reason, later, -, hQ⟩
  exact h reason later hQ

theorem spares_nil : Spares [] := ⟨by simp, by simp⟩

theorem spares_concat_reset_iff (later : List Operation) :
    Spares (later ++ [.resetOutstanding]) ↔ Spares later := by
  constructor
  · intro h
    refine ⟨fun hmem => h.unmarked (by simp [hmem]), fun mid late hsplit hheal => ?_⟩
    exact h.unhealed mid (late ++ [.resetOutstanding]) (by simp [hsplit]) (by simp [hheal])
  · intro h
    refine ⟨by simpa using h.unmarked, fun mid late hsplit => ?_⟩
    rcases List.eq_nil_or_concat late with rfl | ⟨late, last, rfl⟩
    · simp
    · rw [List.concat_eq_append, ← List.cons_append, ← List.append_assoc] at hsplit
      obtain ⟨hlater, hlast⟩ := List.append_inj' hsplit rfl
      obtain rfl := List.head_eq_of_cons_eq hlast
      simpa using h.unhealed mid late hlater

/-- A healing at the end spares a failure only if no reset came before it. -/
theorem spares_concat_heal_iff (later : List Operation) :
    Spares (later ++ [.healUnlessOutstanding]) ↔
      .markHealthy ∉ later ∧ .resetOutstanding ∉ later := by
  constructor
  · intro h
    refine ⟨fun hmem => h.unmarked (by simp [hmem]), fun hmem => ?_⟩
    obtain ⟨mid, late, rfl⟩ := List.append_of_mem hmem
    exact h.unhealed mid (late ++ [.healUnlessOutstanding]) (by simp) (by simp)
  · rintro ⟨hmark, hreset⟩
    refine ⟨by simpa using hmark, fun mid late hsplit => ?_⟩
    have hmem : Operation.resetOutstanding ∈ later ++ [.healUnlessOutstanding] := by
      simp [hsplit]
    simp [hreset] at hmem

namespace Record

/-! ## The three fields -/

/-- Where no error was outstanding, one is exactly if some failure is followed by nothing that
clears it, in whichever way that is said. -/
theorem outstanding_iff_failureThen {Q : Option String → List Operation → Prop}
    (hnil : ∀ reason, Q reason [])
    (hheal : ∀ reason later, Q reason (later ++ [.healUnlessOutstanding]) ↔ Q reason later)
    (hmark : ∀ reason later, ¬ Q reason (later ++ [.markHealthy]))
    (hreset : ∀ reason later, ¬ Q reason (later ++ [.resetOutstanding]))
    {r : Record} (hr : r.outstanding = false) (ops : List Operation) :
    (r.after ops).outstanding = true ↔ FailureThen Q ops := by
  induction ops using List.reverseRecOn with
  | nil => simpa [hr] using not_failureThen_nil Q
  | append_singleton ops op ih =>
      rw [after_append, after_cons, after_nil, outstanding_apply, failureThen_concat_iff]
      cases op with
      | markHealthy => simpa [Operation.flag?] using not_failureThen hmark ops
      | markUnhealthy reason => simp [Operation.flag?, hnil]
      | resetOutstanding => simpa [Operation.flag?] using not_failureThen hreset ops
      | healUnlessOutstanding =>
          simpa [Operation.flag?, failureThen_congr hheal] using ih

/-- Healings leave an outstanding error as it is. -/
theorem after_of_forall_heal {r : Record} (hr : r.outstanding = true) {ops : List Operation}
    (h : ∀ op ∈ ops, op = .healUnlessOutstanding) : r.after ops = r := by
  induction ops with
  | nil => rfl
  | cons op ops ih =>
      obtain ⟨rfl, hrest⟩ := List.forall_mem_cons.1 h
      rw [after_cons, Operation.apply, healed_of_outstanding hr, ih hrest]

/-- **Where no error was outstanding, one was recorded by an operation** after which there are
only healings, and the record is what that operation left. -/
theorem outstanding_after_iff {r : Record} (hr : r.outstanding = false) (ops : List Operation) :
    (r.after ops).outstanding = true ↔
      ∃ before reason later, ops = before ++ .markUnhealthy reason :: later ∧
        (∀ op ∈ later, op = .healUnlessOutstanding) ∧ r.after ops = failed reason := by
  rw [outstanding_iff_failureThen (Q := fun _ later => ∀ op ∈ later, op = .healUnlessOutstanding)
    (by simp) (by simp [or_imp]) (by simp) (by simp) hr]
  constructor
  · rintro ⟨before, reason, later, rfl, hlater⟩
    refine ⟨before, reason, later, rfl, hlater, ?_⟩
    rw [after_append, after_cons]
    exact after_of_forall_heal rfl hlater
  · rintro ⟨before, reason, later, hops, hlater, -⟩
    exact ⟨before, reason, later, hops, hlater⟩

/-- A record that can occur is unhealthy after a healing exactly if an error is outstanding. -/
theorem Sound.unhealthy_healed {r : Record} (h : r.Sound) :
    r.healed.unhealthy = r.outstanding := by
  cases ho : r.outstanding with
  | false => simp [healed_of_not_outstanding ho, pristine]
  | true => rw [healed_of_outstanding ho, h.unhealthy_of_outstanding ho]

/-- **A record is unhealthy exactly if some failure is not over.** -/
theorem unhealthy_iff_failureThen (ops : List Operation) :
    (pristine.after ops).unhealthy = true ↔ FailureThen (fun _ later => Spares later) ops := by
  induction ops using List.reverseRecOn with
  | nil => simpa [pristine] using not_failureThen_nil _
  | append_singleton ops op ih =>
      rw [after_append, after_cons, after_nil, failureThen_concat_iff]
      cases op with
      | markHealthy =>
          have hover : ∀ (_ : Option String) later, ¬ Spares (later ++ [.markHealthy]) :=
            fun _ later h => h.unmarked (by simp)
          simpa [Operation.apply, pristine] using not_failureThen hover ops
      | markUnhealthy reason => simp [Operation.apply, failed, spares_nil]
      | resetOutstanding =>
          simpa [Operation.apply, reset, spares_concat_reset_iff] using ih
      | healUnlessOutstanding =>
          have hout := outstanding_iff_failureThen
            (Q := fun _ later => .markHealthy ∉ later ∧ .resetOutstanding ∉ later)
            (by simp) (by simp) (by simp) (by simp) (r := pristine) rfl ops
          rw [Operation.apply, (sound_pristine.after ops).unhealthy_healed, hout]
          simp [spares_concat_heal_iff]

/-- An unhealthy record has the reason of the last failure. -/
theorem reason_of_unhealthy {ops : List Operation}
    (h : (pristine.after ops).unhealthy = true) :
    FailureThen (fun reason later => (∀ other, .markUnhealthy other ∉ later) ∧
      (pristine.after ops).reason = some (usableReason reason)) ops := by
  induction ops using List.reverseRecOn with
  | nil => simp [pristine] at h
  | append_singleton ops op ih =>
      rw [after_append, after_cons, after_nil] at h ⊢
      rw [failureThen_concat_iff]
      cases op with
      | markHealthy => simp [Operation.apply, pristine] at h
      | markUnhealthy reason => exact .inl ⟨reason, rfl, by simp, rfl⟩
      | resetOutstanding => exact .inr (by simpa [Operation.apply, reset] using ih h)
      | healUnlessOutstanding =>
          rw [Operation.apply, (sound_pristine.after ops).unhealthy_healed] at h
          have hu := (sound_pristine.after ops).unhealthy_of_outstanding h
          rw [Operation.apply, healed_of_outstanding h]
          exact .inr (by simpa using ih hu)

/-! ## What a reader sees and what a healing answers -/

/-- A healing answers whether it left the record healthy. -/
theorem Sound.answer?_heal {r : Record} (h : r.Sound) :
    Operation.healUnlessOutstanding.answer? r = some r.healed.isHealthy := by
  rw [isHealthy, h.unhealthy_healed]
  rfl

theorem snapshot_of_healthy {r : Record} (h : r.isHealthy = true) :
    r.snapshot = ⟨.healthy, none⟩ := by
  simp_all [snapshot, isHealthy]

theorem snapshot_of_unhealthy {r : Record} (h : r.unhealthy = true) :
    r.snapshot = ⟨.degraded, r.reason⟩ := by
  simp [snapshot, h]

/-- **The law of a record's history.**  After any operations on a new record it is unhealthy
exactly if some failure has no mark as healthy after it, and no reset with a healing after that;
an error is outstanding exactly if of the operations that set or clear it the last one is a
failure.  A healthy record shows no reason, and an unhealthy one the text of the last failure,
or `Unknown` if that is missing or blank.  So an outstanding error makes the record unhealthy,
a degraded record always shows a reason that is not blank, and every healing answers whether
the record is healthy after it. -/
theorem history_law (ops : List Operation) :
    ((pristine.after ops).unhealthy = true ↔
      ∃ before reason later, ops = before ++ .markUnhealthy reason :: later ∧
        .markHealthy ∉ later ∧
        ∀ mid late, later = mid ++ .resetOutstanding :: late →
          .healUnlessOutstanding ∉ late) ∧
    ((pristine.after ops).outstanding = true ↔
      ∃ before reason later, ops = before ++ .markUnhealthy reason :: later ∧
        ∀ op ∈ later, op = .healUnlessOutstanding) ∧
    ((pristine.after ops).isHealthy = true → (pristine.after ops).snapshot = ⟨.healthy, none⟩) ∧
    ((pristine.after ops).unhealthy = true →
      ∃ before reason later, ops = before ++ .markUnhealthy reason :: later ∧
        (∀ other, .markUnhealthy other ∉ later) ∧
        (pristine.after ops).snapshot = ⟨.degraded, some (match reason with
          | some text => if Text.IsBlank text then "Unknown" else text
          | none => "Unknown")⟩) ∧
    ((pristine.after ops).outstanding = true → (pristine.after ops).unhealthy = true) ∧
    ((pristine.after ops).snapshot.status = .degraded →
      ∃ text, (pristine.after ops).snapshot.reason = some text ∧ ¬ Text.IsBlank text) ∧
    Operation.healUnlessOutstanding.answer? (pristine.after ops) =
      some (pristine.after (ops ++ [.healUnlessOutstanding])).isHealthy := by
  have hsound := sound_pristine.after ops
  refine ⟨?_, ?_, snapshot_of_healthy, fun hu => ?_, hsound.unhealthy_of_outstanding,
    fun hd => ?_, ?_⟩
  · rw [unhealthy_iff_failureThen]
    exact failureThen_congr (fun _ later => ⟨fun h => ⟨h.1, h.2⟩, fun h => ⟨h.1, h.2⟩⟩) ops
  · exact outstanding_iff_failureThen
      (Q := fun _ later => ∀ op ∈ later, op = .healUnlessOutstanding)
      (by simp) (by simp [or_imp]) (by simp) (by simp) rfl ops
  · obtain ⟨before, reason, later, hops, hlast, hreason⟩ := reason_of_unhealthy hu
    refine ⟨before, reason, later, hops, hlast, ?_⟩
    rw [snapshot_of_unhealthy hu, hreason]
    cases reason with
    | none => rfl
    | some text => rw [usableReason_some]
  · have hu : (pristine.after ops).unhealthy = true := by
      by_contra hu
      simp [snapshot, hu] at hd
    obtain ⟨text, hblank, hreason⟩ := hsound.degraded hu
    exact ⟨text, by rw [snapshot_of_unhealthy hu, hreason], hblank⟩
  · rw [hsound.answer?_heal, after_append]
    rfl

end Record

end JobSupervisor.Health
