import JobSupervisor.Proofs.RecordSystem

/-!
# The operations on a record take effect one at a time

Each operation takes effect at its store or at the swap that succeeds, and the order of these
moments is the order in which the operations seem to be performed.  A store looks at nothing, so
it fits in anywhere.  A swap succeeds only if the loaded record is still in the cell: the stamp
of the cell grows with every record that is installed, so an equal stamp means that nothing was
installed since the load, and the proposal that was made from the loaded record is the one that
the operation makes of the record now.  A healing that proposes to keep the record leaves the
stamp as it is and does not disturb anybody.

## Main definitions

* `Sequential` — completed operations that were performed one at a time.
* `RecordSystem.Sound` — the invariant, with `Sound.step` and `Reachable.sound`.
* `RecordSystem.sinceLoad` — the system some moves after a load.
* `RecordSystem.linearizable` — the operations take effect one at a time.
-/

namespace JobSupervisor

namespace History

open Health

theorem own_concat_of_ne {i j : Nat} (h : j ≠ i) (calls : History) (op : Operation) :
    own j (calls ++ [(i, op)]) = own j calls := by
  simp [own, Ne.symm h]

theorem own_concat_self (i : Nat) (calls : History) (op : Operation) :
    own i (calls ++ [(i, op)]) = own i calls ++ [op] := by
  simp [own]

end History

namespace Health

open History

/-! ## The cell -/

namespace Cell

theorem perform_eq_accept (op : Operation) (c : Cell) :
    c.perform op = c.accept (op.propose c.record) := by
  cases h : op.loadsFirst <;> simp [perform, swapIf, h]

/-- Accepting what an operation proposes leaves the record that the operation makes. -/
theorem record_accept_propose (op : Operation) (c : Cell) :
    (c.accept (op.propose c.record)).record = op.apply c.record := by
  rw [← perform_eq_accept, record_perform]

theorem stamp_le_accept (c : Cell) (p : Proposal) : c.stamp ≤ (c.accept p).stamp := by
  cases p with
  | keep => exact Nat.le_refl _
  | replace r => exact Nat.le_succ _

/-- A cell whose stamp did not grow is as it was. -/
theorem accept_eq_of_stamp_eq {c : Cell} {p : Proposal} (h : c.stamp = (c.accept p).stamp) :
    c.accept p = c := by
  cases p with
  | keep => rfl
  | replace r =>
      have hgrown : (c.accept (.replace r)).stamp = c.stamp + 1 := rfl
      omega

/-- Only a healing may keep the record; every other operation installs one. -/
theorem stamp_lt_accept_propose (c : Cell) {op : Operation} (h : op ≠ .healUnlessOutstanding)
    (r : Record) : c.stamp < (c.accept (op.propose r)).stamp := by
  cases op with
  | healUnlessOutstanding => exact absurd rfl h
  | _ => exact Nat.lt_succ_self _

end Cell

/-! ## Operations one at a time -/

/-- Completed operations that were performed one at a time from a record on: each installed what
it makes of the record that the one before it left, and answered what it says of that record. -/
def Sequential : Record → List Completion → Prop
  | _, [] => True
  | r, e :: rest =>
      e.record = e.op.apply r ∧ e.answer = e.op.answer? r ∧ Sequential e.record rest

theorem sequential_concat_iff {r : Record} {h : List Completion} {e : Completion} :
    Sequential r (h ++ [e]) ↔
      Sequential r h ∧ e.record = e.op.apply (r.after (h.map Completion.op)) ∧
        e.answer = e.op.answer? (r.after (h.map Completion.op)) := by
  induction h generalizing r with
  | nil => simp [Sequential]
  | cons first h ih =>
      simp only [List.cons_append, Sequential, ih, List.map_cons, Record.after_cons]
      constructor
      · rintro ⟨hrecord, hanswer, hrest, he⟩
        exact ⟨⟨hrecord, hanswer, hrest⟩, hrecord ▸ he⟩
      · rintro ⟨⟨hrecord, hanswer, hrest⟩, he⟩
        exact ⟨hrecord, hanswer, hrest, hrecord.symm ▸ he⟩

/-- What the operations leave is the record from the beginning or one that was installed. -/
theorem Sequential.after_mem {r : Record} {h : List Completion} (hs : Sequential r h) :
    r.after (h.map Completion.op) ∈ r :: h.map Completion.record := by
  induction h generalizing r with
  | nil => exact List.mem_cons_self
  | cons e h ih =>
      obtain ⟨hrecord, -, hrest⟩ := hs
      have hmem := ih hrest
      rw [hrecord] at hmem
      rw [List.map_cons, List.map_cons, Record.after_cons, hrecord]
      exact List.mem_cons_of_mem _ hmem

namespace RecordSystem

variable {address : Nat → Nat} {s : RecordSystem} {i : Nat} {op : Operation} {c : Cell}

/-! ## The invariant -/

/-- The invariant: the completed operations were performed one at a time and left the record in
the cell, a stamp that is still the loaded one means that the cell is still the loaded one,
readers saw records that were installed, and each thread completes its operations in the order
in which it calls them. -/
structure Sound (s : RecordSystem) : Prop where
  sequential : Sequential Record.pristine s.history
  record : s.cell.record = Record.pristine.after (s.history.map Completion.op)
  loads : ∀ i op c, s.accesses i = .loaded op c → op.loadsFirst = true
  stamp_le : ∀ i op c, s.accesses i = .loaded op c → c.stamp ≤ s.cell.stamp
  unchanged : ∀ i op c, s.accesses i = .loaded op c → c.stamp = s.cell.stamp → c = s.cell
  reads : ∀ r ∈ s.reads, r ∈ Record.pristine :: s.history.map Completion.record
  calls : ∀ i, own i s.calls =
    own i (s.history.map Completion.entry) ++ (s.accesses i).pending

theorem sound_initial : initial.Sound where
  sequential := trivial
  record := rfl
  loads _ _ _ h := by simp [initial] at h
  stamp_le _ _ _ h := by simp [initial] at h
  unchanged _ _ _ h := by simp [initial] at h
  reads _ h := by simp [initial] at h
  calls _ := rfl

/-- A thread may go on with its operation if what it has loaded is in the cell. -/
theorem Sound.setAccess (hs : s.Sound) {a : Access}
    (hpending : (s.accesses i).pending = a.pending)
    (ha : ∀ op c, a = .loaded op c → op.loadsFirst = true ∧ c = s.cell) :
    (s.setAccess i a).Sound := by
  have hloaded {j : Nat} {op : Operation} {c : Cell}
      (h : (s.setAccess i a).accesses j = .loaded op c) :
      (op.loadsFirst = true ∧ c = s.cell) ∨ s.accesses j = .loaded op c := by
    by_cases hj : j = i
    · subst hj
      rw [accesses_setAccess_self] at h
      exact .inl (ha op c h)
    · rw [accesses_setAccess_of_ne s hj] at h
      exact .inr h
  refine { hs with loads := ?_, stamp_le := ?_, unchanged := ?_, calls := fun j => ?_ }
  · intro j op c h
    exact (hloaded h).elim And.left (hs.loads j op c)
  · intro j op c h
    rcases hloaded h with ⟨-, rfl⟩ | h
    · exact Nat.le_refl _
    · exact hs.stamp_le j op c h
  · intro j op c h hstamp
    rcases hloaded h with ⟨-, rfl⟩ | h
    · rfl
    · exact hs.unchanged j op c h hstamp
  · by_cases hj : j = i
    · subst hj
      rw [accesses_setAccess_self, ← hpending]
      exact hs.calls j
    · rw [accesses_setAccess_of_ne s hj]
      exact hs.calls j

theorem Sound.invoke (hs : s.Sound) (hi : s.accesses i = .idle) (op : Operation) :
    (s.invoke i op).Sound := by
  have hloaded {j : Nat} {op' : Operation} {c : Cell}
      (h : (s.invoke i op).accesses j = .loaded op' c) : s.accesses j = .loaded op' c := by
    by_cases hj : j = i
    · subst hj
      simp at h
    · exact (accesses_setAccess_of_ne s hj _).symm.trans h
  refine { hs with
    loads := fun j op' c h => hs.loads j op' c (hloaded h)
    stamp_le := fun j op' c h => hs.stamp_le j op' c (hloaded h)
    unchanged := fun j op' c h => hs.unchanged j op' c (hloaded h)
    calls := fun j => ?_ }
  by_cases hj : j = i
  · subst hj
    have hcalls := hs.calls j
    rw [hi, Access.pending, List.append_nil] at hcalls
    rw [accesses_invoke_self, Access.pending]
    exact (own_concat_self j s.calls op).trans (congrArg (· ++ [op]) hcalls)
  · have hsame : (s.invoke i op).accesses j = s.accesses j := accesses_setAccess_of_ne s hj _
    rw [hsame]
    exact (own_concat_of_ne hj s.calls op).trans (hs.calls j)

/-- An operation may complete with what it makes of the record in the cell. -/
theorem Sound.complete (hs : s.Sound) (hi : (s.accesses i).pending = [op]) :
    (s.complete i op (op.answer? s.cell.record)
      (s.cell.accept (op.propose s.cell.record))).Sound := by
  have hrecord := s.cell.record_accept_propose op
  have hgrows := s.cell.stamp_le_accept (op.propose s.cell.record)
  have hloaded {j : Nat} {op' : Operation} {c : Cell}
      (h : (s.setAccess i .idle).accesses j = .loaded op' c) : s.accesses j = .loaded op' c := by
    by_cases hj : j = i
    · subst hj
      simp at h
    · rwa [accesses_setAccess_of_ne s hj] at h
  constructor
  case sequential =>
    refine sequential_concat_iff.2 ⟨hs.sequential, ?_, ?_⟩
    · rw [hrecord, hs.record]
    · rw [hs.record]
  case record =>
    change (s.cell.accept (op.propose s.cell.record)).record = _
    simp only [RecordSystem.complete, List.map_append, List.map_cons, List.map_nil,
      Record.after_append, Record.after_cons, Record.after_nil]
    rw [hrecord, hs.record]
  case loads => exact fun j op' c h => hs.loads j op' c (hloaded h)
  case stamp_le =>
    exact fun j op' c h => Nat.le_trans (hs.stamp_le j op' c (hloaded h)) hgrows
  case unchanged =>
    -- The cell did not grow in between, so it is the loaded one.
    intro j op' c h hstamp
    have hle := hs.stamp_le j op' c (hloaded h)
    have hcell : (s.cell.accept (op.propose s.cell.record)).stamp = c.stamp := hstamp.symm
    have heq : c = s.cell := hs.unchanged j op' c (hloaded h) (by omega)
    exact heq.trans (Cell.accept_eq_of_stamp_eq (by omega)).symm
  case reads =>
    intro r hr
    have hmem := hs.reads r hr
    simp only [RecordSystem.complete, List.map_append]
    exact List.mem_append_left _ hmem
  case calls =>
    intro j
    have hcalls := hs.calls j
    simp only [RecordSystem.complete, List.map_append, List.map_cons, List.map_nil,
      Completion.entry]
    by_cases hj : j = i
    · subst hj
      rw [own_concat_self, accesses_setAccess_self, Access.pending, List.append_nil, ← hi]
      exact hcalls
    · rw [own_concat_of_ne hj, accesses_setAccess_of_ne s hj]
      exact hcalls

theorem Sound.store (hs : s.Sound) (i : Nat) : (s.step address (.store i)).Sound := by
  cases hi : s.accesses i with
  | called op =>
      cases hop : op.loadsFirst with
      | false =>
          rw [step_store hi hop]
          exact hs.complete (by simp [hi, Access.pending])
      | true => simpa [RecordSystem.step, hi, hop] using hs
  | _ => simpa [RecordSystem.step, hi] using hs

theorem Sound.load (hs : s.Sound) (i : Nat) : (s.step address (.load i)).Sound := by
  cases hi : s.accesses i with
  | called op =>
      cases hop : op.loadsFirst with
      | false => simpa [RecordSystem.step, hi, hop] using hs
      | true =>
          rw [step_load hi hop]
          refine hs.setAccess (by simp [hi, Access.pending]) fun op' c h => ?_
          obtain ⟨rfl, rfl⟩ := Access.loaded.inj h
          exact ⟨hop, rfl⟩
  | _ => simpa [RecordSystem.step, hi] using hs

/-- A swap that succeeds completes an operation, and one that fails only means that the thread
has to load again. -/
theorem Sound.swap (hs : s.Sound) (hd : s.Distinct address) (i : Nat) :
    (s.step address (.swap i)).Sound := by
  cases hi : s.accesses i with
  | loaded op c =>
      have hpending : (s.accesses i).pending = [op] := by simp [hi, Access.pending]
      by_cases hc : s.cell.stamp = c.stamp
      · obtain rfl := hs.unchanged i op c hi hc.symm
        rw [step_swap_of_eq hi hc]
        exact hs.complete hpending
      · rw [step_swap_of_ne hd hi hc]
        exact hs.setAccess hpending fun op' c' h => by simp at h
  | _ => simpa [RecordSystem.step, hi] using hs

/-- Every move keeps the invariant. -/
theorem Sound.step (hs : s.Sound) (hd : s.Distinct address) (m : Move) :
    (s.step address m).Sound := by
  cases m with
  | call i op =>
      cases hi : s.accesses i with
      | idle =>
          rw [step_call hi]
          exact hs.invoke hi op
      | _ => simpa [RecordSystem.step, hi] using hs
  | store i => exact hs.store i
  | load i => exact hs.load i
  | swap i => exact hs.swap hd i
  | read =>
      refine { hs with reads := fun r hr => ?_ }
      rcases List.mem_append.1 hr with hr | hr
      · exact hs.reads r hr
      · rw [List.mem_singleton.1 hr, hs.record]
        exact hs.sequential.after_mem

/-- **Moves in any order keep the invariant.** -/
theorem Reachable.sound (h : s.Reachable address) : s.Sound := by
  induction h with
  | initial => exact sound_initial
  | step _ hd m ih => exact ih.step hd m

/-! ## Between a load and a swap -/

/-- A move completes nothing, or one operation, whose proposal the cell accepts. -/
theorem step_cases (address : Nat → Nat) (m : Move) (s : RecordSystem) :
    ((s.step address m).history = s.history ∧ (s.step address m).cell = s.cell) ∨
      ∃ e r, (s.step address m).history = s.history ++ [e] ∧
        (s.step address m).cell = s.cell.accept (e.op.propose r) := by
  cases m with
  | call i op =>
      refine .inl ?_
      cases hi : s.accesses i <;> exact ⟨by simp [step, hi, invoke, setAccess],
        by simp [step, hi, invoke, setAccess]⟩
  | store i =>
      cases hi : s.accesses i with
      | called op =>
          cases hop : op.loadsFirst with
          | false =>
              rw [step_store hi hop]
              exact .inr ⟨_, s.cell.record, rfl, rfl⟩
          | true => exact .inl (by simp [step, hi, hop])
      | _ => exact .inl (by simp [step, hi])
  | load i =>
      refine .inl ?_
      cases hi : s.accesses i with
      | called op => cases hop : op.loadsFirst <;> simp [step, hi, hop, setAccess]
      | _ => simp [step, hi]
  | swap i =>
      cases hi : s.accesses i with
      | loaded op c =>
          by_cases ha : address s.cell.stamp = address c.stamp
          · exact .inr ⟨⟨i, op, op.answer? c.record, (s.cell.accept (op.propose c.record)).record⟩,
              c.record, by simp [step, hi, Cell.swapAt, ha, complete, setAccess],
              by simp [step, hi, Cell.swapAt, ha, complete]⟩
          · exact .inl (by simp [step, hi, Cell.swapAt, ha, setAccess])
      | _ => exact .inl (by simp [step, hi])
  | read => exact .inl ⟨rfl, rfl⟩

/-- Moves add completed operations at the end.  Without one the cell is as it was, and with one
that is not a healing it has a larger stamp. -/
theorem run_cases (address : Nat → Nat) (moves : List Move) (s : RecordSystem) :
    ∃ later, (s.run address moves).history = s.history ++ later ∧
      s.cell.stamp ≤ (s.run address moves).cell.stamp ∧
      (later = [] → (s.run address moves).cell = s.cell) ∧
      ((∃ e ∈ later, e.op ≠ .healUnlessOutstanding) →
        s.cell.stamp < (s.run address moves).cell.stamp) := by
  induction moves generalizing s with
  | nil => exact ⟨[], by simp, Nat.le_refl _, fun _ => rfl, by simp⟩
  | cons m moves ih =>
      obtain ⟨later, hhistory, hle, hnone, hsome⟩ := ih (s.step address m)
      rw [run_cons]
      rcases step_cases address m s with ⟨hsame, hcell⟩ | ⟨e, r, hnew, hcell⟩
      · rw [hsame] at hhistory
        rw [hcell] at hle hnone hsome
        exact ⟨later, hhistory, hle, hnone, hsome⟩
      · have hgrows := s.cell.stamp_le_accept (e.op.propose r)
        rw [hnew, List.append_assoc, List.singleton_append] at hhistory
        rw [hcell] at hle hsome
        refine ⟨e :: later, hhistory, by omega, by simp, ?_⟩
        rintro ⟨e', he', hop⟩
        rcases List.mem_cons.1 he' with rfl | he'
        · have hlt := s.cell.stamp_lt_accept_propose hop r
          omega
        · have hlt := hsome ⟨e', he', hop⟩
          omega

/-- A thread that has loaded does nothing until it swaps. -/
theorem accesses_step_of_loaded (hi : s.accesses i = .loaded op c) {m : Move}
    (hm : m ≠ .swap i) : (s.step address m).accesses i = .loaded op c := by
  cases m with
  | read => exact hi
  | swap j =>
      have hj : i ≠ j := fun h => hm (h ▸ rfl)
      simp only [step]
      split
      · split <;> simpa [complete, setAccess, hj] using hi
      · exact hi
  | call j op' =>
      by_cases hj : i = j
      · subst hj
        simp [step, hi]
      · simp only [step]
        split
        · simpa [invoke, setAccess, hj] using hi
        · exact hi
  | store j | load j =>
      by_cases hj : i = j
      · subst hj
        simp [step, hi]
      · simp only [step]
        split
        · split
          · simpa [setAccess, hj] using hi
          · simpa [complete, setAccess, hj] using hi
        · exact hi

/-- The system when a thread has loaded and some moves were made after that. -/
def sinceLoad (address : Nat → Nat) (i : Nat) (moves : List Move) (s : RecordSystem) :
    RecordSystem :=
  (s.step address (.load i)).run address moves

theorem accesses_sinceLoad (hi : s.accesses i = .called op) (hop : op.loadsFirst = true)
    {moves : List Move} (hmoves : .swap i ∉ moves) :
    (s.sinceLoad address i moves).accesses i = .loaded op s.cell := by
  have hload : (s.step address (.load i)).accesses i = .loaded op s.cell := by
    rw [step_load hi hop, accesses_setAccess_self]
  rw [sinceLoad]
  generalize s.step address (.load i) = t at hload ⊢
  induction moves generalizing t with
  | nil => exact hload
  | cons m moves ih =>
      rw [List.mem_cons, not_or] at hmoves
      exact ih hmoves.2 _ (accesses_step_of_loaded hload (Ne.symm hmoves.1))

/-- **The operations on a record are linearizable.**  In every order of the steps of any number
of threads, the completed operations are operations performed one at a time in the order of
their store or swap: each installed and answered what it does on the record that those before
it left, and what all of them left is what lies in the cell.  Each thread completes what it
calls, once and in its order, and what is completed comes before everything completed later.
Readers only see records that were installed.  A swap changes nothing if an operation that is
not a healing was completed since the load, and it completes its operation if none was.  With
nothing in between, the steps of an operation do to the cell what the operation does. -/
theorem linearizable (h : s.Reachable address) :
    Sequential Record.pristine s.history ∧
    s.cell.record = Record.pristine.after (s.history.map Completion.op) ∧
    (∀ i, own i s.calls = own i (s.history.map Completion.entry) ++ (s.accesses i).pending) ∧
    (∀ moves, s.history <+: (s.run address moves).history) ∧
    (∀ r ∈ s.reads, r ∈ Record.pristine :: s.history.map Completion.record) ∧
    (∀ i op moves, s.accesses i = .called op → op.loadsFirst = true → .swap i ∉ moves →
      (s.sinceLoad address i moves).Distinct address →
      ∃ later, (s.sinceLoad address i moves).history = s.history ++ later ∧
        ((∃ e ∈ later, e.op ≠ .healUnlessOutstanding) →
          (s.sinceLoad address i moves).step address (.swap i) =
            (s.sinceLoad address i moves).setAccess i (.called op)) ∧
        (later = [] →
          ((s.sinceLoad address i moves).step address (.swap i)).history =
            s.history ++ [⟨i, op, op.answer? s.cell.record, op.apply s.cell.record⟩])) ∧
    (∀ i op, s.accesses i = .idle →
      (s.run address
        (if op.loadsFirst then [.call i op, .load i, .swap i] else [.call i op, .store i])).cell =
          s.cell.perform op) := by
  have hs := h.sound
  refine ⟨hs.sequential, hs.record, hs.calls, fun moves => ?_, hs.reads,
    fun i op moves hi hop hmoves hd => ?_, fun i op hi => cell_operation hi op⟩
  · obtain ⟨later, hhistory, -⟩ := run_cases address moves s
    exact ⟨later, hhistory.symm⟩
  have hload : (s.step address (.load i)).history = s.history ∧
      (s.step address (.load i)).cell = s.cell := by
    rw [step_load hi hop]
    exact ⟨rfl, rfl⟩
  have hloaded : (s.sinceLoad address i moves).accesses i = .loaded op s.cell :=
    accesses_sinceLoad hi hop hmoves
  obtain ⟨later, hhistory, -, hnone, hsome⟩ := run_cases address moves (s.step address (.load i))
  rw [← sinceLoad] at hhistory hnone hsome
  rw [hload.1] at hhistory
  rw [hload.2] at hnone hsome
  refine ⟨later, hhistory, fun hother => ?_, fun hlater => ?_⟩
  · exact step_swap_of_ne hd hloaded (Nat.ne_of_gt (hsome hother))
  · subst hlater
    have hcell : (s.sinceLoad address i moves).cell = s.cell := hnone rfl
    have hstamp : (s.sinceLoad address i moves).cell.stamp = s.cell.stamp := by rw [hcell]
    rw [step_swap_of_eq hloaded hstamp, complete, hhistory, hcell, s.cell.record_accept_propose]
    simp

/-- Addresses that are never used twice tell everything apart. -/
theorem reachable_run (haddress : Function.Injective address) (moves : List Move)
    (h : s.Reachable address) : (s.run address moves).Reachable address := by
  induction moves generalizing s with
  | nil => exact h
  | cons m moves ih => exact ih (h.step (fun _ _ _ _ ha => haddress ha) m)

/-- A failure is stored between the load and the swap of a healing. -/
theorem linearizable_failure_between :
    ∃ s : RecordSystem, s.Reachable id ∧ s.accesses 0 = .called .healUnlessOutstanding ∧
      ((s.sinceLoad id 0 [.call 1 (.markUnhealthy (some "disk full")), .store 1, .read]).step id
        (.swap 0)).cell.record = Record.failed (some "disk full") := by
  have hs : (initial.run id [.call 0 .healUnlessOutstanding]).Reachable id :=
    reachable_run Function.injective_id _ .initial
  obtain ⟨later, hlater, hother, -⟩ := (linearizable hs).2.2.2.2.2.1 0 .healUnlessOutstanding
    [.call 1 (.markUnhealthy (some "disk full")), .store 1, .read] (by decide) rfl (by decide)
    (fun _ _ _ _ h => h)
  refine ⟨_, hs, by decide, ?_⟩
  rw [hother ?_]
  · decide
  · have hnew : later = [⟨1, .markUnhealthy (some "disk full"), none,
        Record.failed (some "disk full")⟩] := hlater.symm
    exact ⟨_, hnew ▸ List.mem_singleton_self _, by decide⟩

end RecordSystem

end Health

end JobSupervisor
