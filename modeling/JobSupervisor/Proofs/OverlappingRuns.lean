import JobSupervisor.Proofs.RunVerdict

/-!
# Overlapping runs of one job

Runs of one job can overlap, when nothing locks the job or a lease expires during a run.
What each run does to the record is known from its course, and the operations of the runs reach
the record in any order that keeps the order of each run.

All runs share one outstanding error.  A run that failed or exceeded its budget marks the
record and so keeps its own healing from doing anything; but when another run begins after
the last mark and before the healing, the reset of that run clears the error, and the healing
of the failed run makes the record healthy.  This is the only way in which that happens.

## Main definitions

* `Course.Bad` — a run failed or exceeded its budget.
* `Interleaves` — the operations of runs in any order that keeps the order of each.
* `Interleaves.isHealthy_heal_iff` — when the healing of a failed run makes the record healthy.
-/

namespace JobSupervisor

open Health

namespace Course

/-- The run failed or exceeded its budget. -/
def Bad (c : Course) : Prop := c.failure.isSome ∨ c.overran = true

instance (c : Course) : Decidable c.Bad :=
  inferInstanceAs (Decidable (_ ∨ _))

theorem flag?_of_mem_marks {failure : Option String} {overran : Bool} {op : Operation}
    (h : op ∈ Run.marks failure overran) : op.flag? = some true := by
  simp only [Run.marks, List.mem_append, Option.mem_toList, Option.map_eq_some_iff] at h
  rcases h with ⟨text, -, rfl⟩ | h
  · rfl
  · split at h
    · obtain rfl := List.mem_singleton.1 h
      rfl
    · simp at h

theorem Bad.marks_ne_nil {c : Course} (h : c.Bad) : Run.marks c.failure c.overran ≠ [] := by
  rcases h with h | h
  · obtain ⟨text, htext⟩ := Option.isSome_iff_exists.1 h
    simp [Run.marks, htext]
  · simp [Run.marks, h]

/-- The only operation of a run that clears the outstanding error is its reset. -/
theorem eq_reset_of_mem {c : Course} {op : Operation} (h : op ∈ c.operations)
    (hflag : op.flag? = some false) : op = .resetOutstanding := by
  rcases List.mem_cons.1 h with h | h
  · exact h
  · rcases List.mem_append.1 h with h | h
    · simp [flag?_of_mem_marks h] at hflag
    · obtain rfl := List.mem_singleton.1 h
      simp [Operation.flag?] at hflag

end Course

/-! ## Histories -/

/-- The operations of all runs in the order in which they reach the record, each with its
run. -/
abbrev History := List (Nat × Operation)

namespace History

/-- The operations of one run. -/
def own (i : Nat) (h : History) : List Operation :=
  (h.filter fun e => e.1 = i).map Prod.snd

/-- The record after all operations. -/
def record (h : History) (r : Record) : Record := r.after (h.map Prod.snd)

theorem sound_record (h : History) {r : Record} (hr : r.Sound) : (h.record r).Sound :=
  hr.after _

theorem mem_own {i : Nat} {h : History} {op : Operation} : op ∈ own i h ↔ (i, op) ∈ h := by
  simp [own]

theorem own_append (i : Nat) (a b : History) : own i (a ++ b) = own i a ++ own i b := by
  simp [own]

theorem own_cons_self (i : Nat) (op : Operation) (h : History) :
    own i ((i, op) :: h) = op :: own i h := by
  simp [own]

/-- No error is outstanding after a history with a mark in it exactly if an operation clears
it and no mark comes after that. -/
theorem outstanding_record_eq_false_iff {h : History} {r : Record}
    (hmark : ∃ e ∈ h, e.2.flag? = some true) :
    (h.record r).outstanding = false ↔
      ∃ a e b, h = a ++ e :: b ∧ e.2.flag? = some false ∧ ∀ x ∈ b, x.2.flag? ≠ some true := by
  have hlast : (h.record r).outstanding =
      ((h.reverse.findSome? fun e => e.2.flag?)).getD r.outstanding := by
    rw [record, Record.outstanding_after, ← List.map_reverse, List.findSome?_map]
    rfl
  rw [hlast]
  constructor
  · intro hout
    cases hfind : h.reverse.findSome? fun e => e.2.flag? with
    | none =>
        obtain ⟨e, he, hflag⟩ := hmark
        have hnone := List.findSome?_eq_none_iff.1 hfind e (List.mem_reverse.2 he)
        simp [hflag] at hnone
    | some flag =>
        rw [hfind] at hout
        obtain rfl : flag = false := hout
        obtain ⟨b, e, a, hsplit, hflag, hb⟩ := List.findSome?_eq_some_iff.1 hfind
        refine ⟨a.reverse, e, b.reverse, ?_, hflag, fun x hx => ?_⟩
        · rw [← List.reverse_reverse h, hsplit]
          simp
        · simp [hb x (List.mem_reverse.1 hx)]
  · rintro ⟨a, e, b, rfl, hflag, hb⟩
    -- What comes after the clearing operation clears the error again or leaves it.
    have hrest : ∀ flag, (b.reverse.findSome? fun e => e.2.flag?) = some flag → flag = false := by
      intro flag hfind
      obtain ⟨x, hx, hxflag⟩ := List.exists_of_findSome?_eq_some hfind
      have hne := hb x (List.mem_reverse.1 hx)
      cases flag with
      | false => rfl
      | true => exact absurd hxflag hne
    rw [List.reverse_append, List.reverse_cons, List.append_assoc, List.findSome?_append]
    cases hfind : b.reverse.findSome? fun e => e.2.flag? with
    | none => simp [hflag]
    | some flag => simp [hrest flag hfind]

end History

/-! ## Runs in any order -/

open History

/-- Every run has got some way through its operations. -/
def Interleaves (courses : Nat → Course) (h : History) : Prop :=
  ∀ i, own i h <+: (courses i).operations

theorem isHealthy_healed_iff {r : Record} (hr : r.Sound) :
    r.healed.isHealthy = true ↔ r.outstanding = false := by
  cases ho : r.outstanding with
  | false => simp [Record.healed_of_not_outstanding ho]
  | true =>
      simp [Record.healed_of_outstanding ho, Record.isHealthy,
        hr.unhealthy_of_outstanding ho]

theorem eq_markUnhealthy_of_flag? {op : Operation} (h : op.flag? = some true) :
    ∃ reason, op = .markUnhealthy reason := by
  cases op with
  | markUnhealthy reason => exact ⟨reason, rfl⟩
  | _ => simp [Operation.flag?] at h

namespace Interleaves

variable {courses : Nat → Course} {h : History} {i : Nat}

/-- A run that is about to heal has done its reset and its marks. -/
theorem own_eq (hnext : own i h ++ [.healUnlessOutstanding] = (courses i).operations) :
    own i h = .resetOutstanding :: Run.marks (courses i).failure (courses i).overran := by
  rw [Course.operations, ← List.cons_append] at hnext
  exact List.append_cancel_right hnext

/-- A failed run that is about to heal has made a mark after its own reset. -/
theorem exists_mark_after_own_reset (hbad : (courses i).Bad)
    (hnext : own i h ++ [.healUnlessOutstanding] = (courses i).operations) {a b : History}
    (hsplit : h = a ++ (i, .resetOutstanding) :: b) :
    ∃ op, op.flag? = some true ∧ (i, op) ∈ b := by
  have hown := own_eq hnext
  rw [hsplit, own_append, own_cons_self] at hown
  cases ha : own i a with
  | nil =>
      rw [ha, List.nil_append, List.cons.injEq] at hown
      obtain ⟨op, hop⟩ := List.exists_mem_of_ne_nil _ hbad.marks_ne_nil
      exact ⟨op, Course.flag?_of_mem_marks hop, mem_own.1 (hown.2 ▸ hop)⟩
  | cons first rest =>
      -- The reset would be among the marks.
      rw [ha, List.cons_append, List.cons.injEq] at hown
      have hmem : Operation.resetOutstanding ∈
          Run.marks (courses i).failure (courses i).overran := by
        rw [← hown.2]
        simp
      exact absurd (Course.flag?_of_mem_marks hmem) (by simp [Operation.flag?])

theorem exists_mark (hbad : (courses i).Bad)
    (hnext : own i h ++ [.healUnlessOutstanding] = (courses i).operations) :
    ∃ e ∈ h, e.2.flag? = some true := by
  obtain ⟨op, hop⟩ := List.exists_mem_of_ne_nil _ hbad.marks_ne_nil
  have hmem : op ∈ own i h := by
    rw [own_eq hnext]
    exact List.mem_cons_of_mem _ hop
  exact ⟨(i, op), mem_own.1 hmem, Course.flag?_of_mem_marks hop⟩

/-- **When a failed run makes the record healthy.**  In every order of the operations of any
number of runs, the healing of a run that failed or exceeded its budget makes the record
healthy exactly if another run began and no run has marked the record since. -/
theorem isHealthy_heal_iff (hint : Interleaves courses h) (hbad : (courses i).Bad)
    (hnext : own i h ++ [.healUnlessOutstanding] = (courses i).operations) {r : Record}
    (hr : r.Sound) :
    (History.record (h ++ [(i, .healUnlessOutstanding)]) r).isHealthy = true ↔
      ∃ a j b, h = a ++ (j, .resetOutstanding) :: b ∧ j ≠ i ∧
        ∀ k reason, (k, .markUnhealthy reason) ∉ b := by
  have hheal : History.record (h ++ [(i, .healUnlessOutstanding)]) r = (h.record r).healed := by
    simp [History.record, Operation.apply]
  rw [hheal, isHealthy_healed_iff (sound_record h hr),
    outstanding_record_eq_false_iff (exists_mark hbad hnext)]
  constructor
  · rintro ⟨a, ⟨j, op⟩, b, hsplit, hflag, hb⟩
    have hop : op ∈ (courses j).operations :=
      (hint j).subset (mem_own.2 (by simp [hsplit]))
    obtain rfl := Course.eq_reset_of_mem hop hflag
    refine ⟨a, j, b, hsplit, ?_, fun k reason hmem => hb _ hmem rfl⟩
    rintro rfl
    obtain ⟨mark, hmark, hmem⟩ := exists_mark_after_own_reset hbad hnext hsplit
    exact hb _ hmem hmark
  · rintro ⟨a, j, b, hsplit, -, hb⟩
    refine ⟨a, (j, .resetOutstanding), b, hsplit, rfl, fun x hx hflag => ?_⟩
    obtain ⟨reason, hreason⟩ := eq_markUnhealthy_of_flag? hflag
    exact hb x.1 reason (hreason ▸ hx)

/-- Two runs, of which the first fails and the second does not. -/
def twoRuns : Nat → Course
  | 0 => ⟨some "disk full", false⟩
  | _ => ⟨none, false⟩

/-- The first run begins and fails, and the second begins before the first one heals. -/
def overlapping : History :=
  [(0, .resetOutstanding), (0, .markUnhealthy (some "disk full")), (1, .resetOutstanding)]

theorem interleaves_overlapping : Interleaves twoRuns overlapping := by
  intro i
  match i with
  | 0 => decide
  | 1 => decide
  | n + 2 => simp [own, overlapping]

/-- The failure of the first run is lost: its own healing makes the record healthy. -/
theorem failure_lost :
    Interleaves twoRuns overlapping ∧ (twoRuns 0).Bad ∧
      own 0 overlapping ++ [.healUnlessOutstanding] = (twoRuns 0).operations ∧
      (History.record (overlapping ++ [(0, .healUnlessOutstanding)]) Record.pristine).isHealthy =
        true :=
  ⟨interleaves_overlapping, by decide, by decide, by decide⟩

theorem isHealthy_heal_overlapping :
    (History.record (overlapping ++ [(0, .healUnlessOutstanding)]) Record.pristine).isHealthy =
      true :=
  (isHealthy_heal_iff interleaves_overlapping (by decide) (by decide)
    Record.sound_pristine).2
    ⟨[(0, .resetOutstanding), (0, .markUnhealthy (some "disk full"))], 1, [], rfl, by decide,
      by simp⟩

end Interleaves

end JobSupervisor
