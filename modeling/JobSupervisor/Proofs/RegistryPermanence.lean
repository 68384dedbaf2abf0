import JobSupervisor.Proofs.RegistryListing
import JobSupervisor.Proofs.RegistrySystem

/-!
# One record for each name, forever

Whatever the threads do and in whichever order, they do to the registry a sequence of calls, of
which only the insertions make names.  A call leaves the names that have a record with it; so
every record that is returned for a name is the one that the name still has, and nothing but an
operation on it ever changes it.

## Main definitions

* `RegistrySystem.registry_run` — the calls that moves make on the registry.
* `RegistrySystem.Sound` — what holds of the returned records and of the insertions.
* `RegistrySystem.Permanent` — what is the same at a point and at every later one.
* `RegistrySystem.Listed` — what the readings of a whole registry show.
* `RegistrySystem.Answered` — what comes of a request, whatever the other threads do meanwhile.
* `RegistrySystem.permanent_and_listed` — all of them, after any moves.
-/

namespace JobSupervisor.Health

namespace Registry

/-- Finding or inserting a record leaves the cells that exist as they are. -/
theorem cells_findOrInsert {g : Registry} {id : RecordId} (h : id < g.cells.length)
    (name : String) : (g.findOrInsert name).2.cells[id]? = g.cells[id]? := by
  simp only [findOrInsert]
  cases g.lookup name with
  | some known => rfl
  | none => exact List.getElem?_append_left h

end Registry

namespace RegistrySystem

variable {s : RegistrySystem}

/-! ## The calls that moves make -/

/-- A step makes at most one call, and performs on a record what the move performs on it. -/
theorem registry_step (s : RegistrySystem) (m : Move) :
    ∃ calls, (s.step m).registry = s.registry.after calls ∧
      ∀ id, operationsOn id calls = (m.operation? id).toList := by
  cases m with
  | request i name =>
      refine ⟨[], ?_, fun _ => rfl⟩
      simp only [step]
      split <;> rfl
  | lookUp i =>
      refine ⟨[], ?_, fun _ => rfl⟩
      simp only [step]
      split
      · split <;> rfl
      · rfl
  | insert i =>
      cases hi : s.requests i with
      | idle | seeking _ => exact ⟨[], by simp [step, hi], fun _ => rfl⟩
      | missed name => exact ⟨[.create name], by rw [step_insert hi]; rfl, fun _ => rfl⟩
  | read i name =>
      refine ⟨[], ?_, fun _ => rfl⟩
      simp only [step]
      split <;> rfl
  | allocate => exact ⟨[.allocate], rfl, fun _ => rfl⟩
  | change other op =>
      refine ⟨[.change other op], rfl, fun id => ?_⟩
      by_cases h : other = id <;> simp [operationsOn, Call.operation?, Move.operation?, h]

/-- Moves make calls one after the other, with their operations in their order. -/
theorem registry_run (s : RegistrySystem) (moves : List Move) :
    ∃ calls, (s.run moves).registry = s.registry.after calls ∧
      ∀ id, operationsOn id calls = moves.filterMap (Move.operation? id) := by
  induction moves generalizing s with
  | nil => exact ⟨[], rfl, fun _ => rfl⟩
  | cons m moves ih =>
      obtain ⟨first, hfirst, hop⟩ := s.registry_step m
      obtain ⟨rest, hrest, hops⟩ := ih (s.step m)
      refine ⟨first ++ rest, ?_, fun id => ?_⟩
      · rw [run_cons, hrest, hfirst, Registry.after_append]
      · have happend : operationsOn id (first ++ rest) =
            operationsOn id first ++ operationsOn id rest := List.filterMap_append
        rw [happend, hop, hops]
        cases h : m.operation? id <;> simp [h]

/-- A name that has a record keeps it. -/
theorem lookup_run {name : String} {id : RecordId} (h : s.registry.lookup name = some id)
    (moves : List Move) : (s.run moves).registry.lookup name = some id := by
  obtain ⟨calls, hcalls, -⟩ := s.registry_run moves
  rw [hcalls]
  exact Registry.lookup_after h calls

/-- A record is what the operations on it have made of it. -/
theorem record_run {id : RecordId} (h : id < s.registry.cells.length) (moves : List Move) :
    (s.run moves).registry.record id =
      (s.registry.record id).after (moves.filterMap (Move.operation? id)) := by
  obtain ⟨calls, hcalls, hops⟩ := s.registry_run moves
  rw [hcalls, Registry.record_after h, hops]

/-! ## Returned records and passed insertions -/

theorem returned_step (s : RegistrySystem) (m : Move) : s.returned <:+ (s.step m).returned := by
  cases s.outcome_step m with
  | silent _ hreturned _ | changed _ _ _ hreturned _ => exact hreturned ▸ List.suffix_rfl
  | handed _ _ _ _ hreturned _ | inserted _ _ hreturned _ =>
      exact hreturned ▸ List.suffix_cons _ _

theorem returned_run (s : RegistrySystem) (moves : List Move) :
    s.returned <:+ (s.run moves).returned := by
  induction moves generalizing s with
  | nil => exact List.suffix_rfl
  | cons m moves ih => exact (s.returned_step m).trans (ih (s.step m))

/-- What holds after any moves: every record that was returned for a name is the one that the
name has, and a name has a record exactly if an insertion was passed for it. -/
structure Sound (s : RegistrySystem) : Prop where
  reachable : s.registry.Reachable
  returned : ∀ name id, (name, id) ∈ s.returned → s.registry.lookup name = some id
  passed : ∀ name, (s.registry.lookup name).isSome = true ↔ name ∈ s.passed

theorem sound_start : Sound start where
  reachable := .refl _
  returned := fun _ _ h => absurd h List.not_mem_nil
  passed := fun _ => by simp [start, Registry.lookup, Registry.empty]

/-- Every step keeps what holds. -/
theorem Sound.step (hs : s.Sound) (m : Move) : (s.step m).Sound := by
  have hreachable : (s.step m).registry.Reachable := by
    obtain ⟨calls, hcalls, -⟩ := s.registry_step m
    exact hs.reachable.leads ⟨calls, hcalls⟩
  have hkept (name : String) (id : RecordId) (h : (name, id) ∈ s.returned) :
      (s.step m).registry.lookup name = some id :=
    lookup_run (hs.returned name id h) [m]
  cases s.outcome_step m with
  | silent hregistry hreturned hpassed =>
      refine ⟨hreachable, ?_, ?_⟩
      · rw [hreturned]
        exact hkept
      · rw [hregistry, hpassed]
        exact hs.passed
  | handed name id hfound hregistry hreturned hpassed =>
      refine ⟨hreachable, ?_, ?_⟩
      · rw [hreturned]
        intro other known hmem
        rcases List.mem_cons.1 hmem with heq | hmem
        · obtain ⟨rfl, rfl⟩ := Prod.mk.inj heq
          rw [hregistry, hfound]
        · exact hkept other known hmem
      · rw [hregistry, hpassed]
        exact hs.passed
  | inserted name hregistry hreturned hpassed =>
      -- The insertion may have found a record that another thread inserted after the look-up.
      refine ⟨hreachable, ?_, ?_⟩
      · rw [hreturned]
        intro other known hmem
        rcases List.mem_cons.1 hmem with heq | hmem
        · obtain ⟨rfl, rfl⟩ := Prod.mk.inj heq
          rw [hregistry]
          exact Registry.lookup_findOrInsert_self _ _
        · exact hkept other known hmem
      · intro other
        have hcreate := Registry.isSome_lookup_after_create s.registry [name] other
        rw [hregistry, hpassed, List.mem_cons, ← hs.passed other, or_comm]
        rw [List.mem_singleton] at hcreate
        exact hcreate
  | changed c hregistry hlookup hreturned hpassed =>
      refine ⟨hreachable, ?_, ?_⟩
      · rw [hreturned]
        exact hkept
      · intro name
        rw [hlookup, hpassed]
        exact hs.passed name

theorem Sound.run (hs : s.Sound) (moves : List Move) : (s.run moves).Sound := by
  induction moves generalizing s with
  | nil => exact hs
  | cons m moves ih => exact ih (hs.step m)

/-! ## The main result -/

/-- What is the same at a point and at a later one, to which the given moves have led. -/
structure Permanent (s : RegistrySystem) (later : List Move) : Prop where
  remembered : s.returned <:+ (s.run later).returned
  /-- What was returned for a name before is what is returned for it ever after. -/
  returned : ∀ name id, (name, id) ∈ s.returned →
    ∀ known, (name, known) ∈ (s.run later).returned → known = id
  /-- Distinct names have distinct records. -/
  separate : ∀ name other id, (name, id) ∈ (s.run later).returned →
    (other, id) ∈ (s.run later).returned → name = other
  /-- What was returned for a name is the record that the name still has. -/
  kept : ∀ name id, (name, id) ∈ s.returned → (s.run later).registry.lookup name = some id
  /-- A name keeps its record, and only operations on the record have changed it. -/
  unreplaced : ∀ name id, s.registry.lookup name = some id →
    (s.run later).registry.lookup name = some id ∧
      (s.run later).registry.record id =
        (s.registry.record id).after (later.filterMap (Move.operation? id))

/-- What the readings of a whole registry show. -/
structure Listed (s : RegistrySystem) : Prop where
  /-- The size is the number of distinct names that insertions were passed for. -/
  size : s.registry.size = s.passed.dedup.length
  /-- The listing has an entry for every name that has a record. -/
  listing : ∀ name id, (name, id) ∈ s.registry.listing ↔ s.registry.lookup name = some id
  /-- The entries may be met in any order; the listing is what sorting makes of them. -/
  sorted : ∀ entries : List (String × RecordId), entries.Perm s.registry.listing →
    Registry.sorted entries = s.registry.listing
  /-- The names are those of the listing. -/
  names : s.registry.names = s.registry.listing.map Prod.fst
  /-- The names ascend strictly in the order of their bytes, so that each occurs once. -/
  ascending : s.registry.names.Pairwise fun a b => Text.Utf8.encode a < Text.Utf8.encode b

theorem Sound.permanent (hs : s.Sound) (later : List Move) : s.Permanent later where
  remembered := s.returned_run later
  returned := fun name id hid known hknown => by
    have hlater := (hs.run later).returned name known hknown
    rw [lookup_run (hs.returned name id hid)] at hlater
    exact (Option.some.inj hlater).symm
  separate := fun name other id hname hother =>
    (hs.run later).reachable.separate name other id
      ((hs.run later).returned name id hname) ((hs.run later).returned other id hother)
  kept := fun name id hid => lookup_run (hs.returned name id hid) later
  unreplaced := fun name id hlookup =>
    ⟨lookup_run hlookup later, record_run (hs.reachable.wellFormed.inRange name id hlookup) later⟩

theorem Sound.listed (hs : s.Sound) : s.Listed where
  size := Registry.size_eq_length_dedup hs.passed
  listing := fun _ _ => s.registry.mem_listing_iff
  sorted := fun _ => Registry.sorted_eq_listing
  names := rfl
  ascending := s.registry.directory.pairwise_keys

/-- What comes of the requests of threads. -/
structure Answered (s : RegistrySystem) : Prop where
  /-- A look-up returns the record of its name, or leads to the insertion if there is none. -/
  lookedUp : ∀ i name, s.requests i = .seeking name →
    (∃ id, s.registry.lookup name = some id ∧ (s.step (.lookUp i)).requests i = .idle ∧
      (s.step (.lookUp i)).returned = (name, id) :: s.returned) ∨
    s.registry.lookup name = none ∧ (s.step (.lookUp i)).requests i = .missed name ∧
      (s.step (.lookUp i)).returned = s.returned
  /-- A thread that takes the steps of a request, whatever the others do between them, is returned
  the record that the name has then. -/
  answered : ∀ (i : Nat) (name : String) (first second : List Move), s.requests i = .idle →
    (∀ m ∈ first ++ second, m.thread? ≠ some i) →
    let looking := (s.step (.request i name)).run first
    let inserting := (looking.step (.lookUp i)).run second
    let done := inserting.step (.insert i)
    done.requests i = .idle ∧ ∃ id, done.registry.lookup name = some id ∧
      ((looking.step (.lookUp i)).returned = (name, id) :: looking.returned ∨
        done.returned = (name, id) :: inserting.returned)
  /-- Undisturbed, the thread does what `getOrCreate` does. -/
  undisturbed : ∀ i name, s.requests i = .idle →
    let done := s.run [.request i name, .lookUp i, .insert i]
    done.registry = (s.registry.getOrCreate name).2 ∧
      done.returned = (name, (s.registry.getOrCreate name).1.id) :: s.returned

theorem lookUp_cases {i : Nat} {name : String} (hi : s.requests i = .seeking name) :
    (∃ id, s.registry.lookup name = some id ∧ (s.step (.lookUp i)).requests i = .idle ∧
      (s.step (.lookUp i)).returned = (name, id) :: s.returned) ∨
    s.registry.lookup name = none ∧ (s.step (.lookUp i)).requests i = .missed name ∧
      (s.step (.lookUp i)).returned = s.returned := by
  rw [step_lookUp hi]
  cases hl : s.registry.lookup name with
  | some id => exact .inl ⟨id, rfl, by simp, rfl⟩
  | none => exact .inr ⟨rfl, by simp, rfl⟩

/-- An insertion that was missed is passed. -/
theorem insert_returns {i : Nat} {name : String} (hi : s.requests i = .missed name) :
    (s.step (.insert i)).requests i = .idle ∧
      ∃ id, (s.step (.insert i)).returned = (name, id) :: s.returned ∧
        (s.step (.insert i)).passed = name :: s.passed ∧
        (s.step (.insert i)).registry.lookup name = some id := by
  rw [step_insert hi]
  exact ⟨by simp, _, rfl, rfl, Registry.lookup_findOrInsert_self _ _⟩

/-- The steps of a request come to a record, with steps of the other threads between them. -/
theorem request_returns {i : Nat} (hi : s.requests i = .idle) (name : String)
    {first second : List Move} (hothers : ∀ m ∈ first ++ second, m.thread? ≠ some i) :
    let looking := (s.step (.request i name)).run first
    let inserting := (looking.step (.lookUp i)).run second
    let done := inserting.step (.insert i)
    done.requests i = .idle ∧ ∃ id, done.registry.lookup name = some id ∧
      ((looking.step (.lookUp i)).returned = (name, id) :: looking.returned ∨
        done.returned = (name, id) :: inserting.returned) := by
  intro looking inserting done
  have hseeking : looking.requests i = .seeking name := by
    rw [requests_run_of_ne fun m hm => hothers m (List.mem_append_left second hm),
      step_request hi, requests_setRequest_self]
  have hkept : inserting.requests i = (looking.step (.lookUp i)).requests i :=
    requests_run_of_ne (fun m hm => hothers m (List.mem_append_right first hm)) _
  rcases lookUp_cases hseeking with ⟨id, hfound, hidle, hreturned⟩ | ⟨-, hmissed, -⟩
  · have hdone : done = inserting := step_insert_of_idle (hkept.trans hidle)
    have hlater : inserting.registry.lookup name = some id :=
      lookup_run hfound (.lookUp i :: second)
    rw [hdone]
    exact ⟨hkept.trans hidle, id, hlater, .inl hreturned⟩
  · obtain ⟨hdone, id, hreturned, -, hfound⟩ := insert_returns (hkept.trans hmissed)
    exact ⟨hdone, id, hfound, .inr hreturned⟩

theorem answered (s : RegistrySystem) : s.Answered where
  lookedUp := fun _ _ hi => lookUp_cases hi
  answered := fun _ name _ _ hi hothers => request_returns hi name hothers
  undisturbed := fun _ name hi => registry_request hi name

/-- **One record for each name, forever.**  After any moves of any number of threads, a name has
a record exactly if a request for it has passed its insertion; an insertion always returns a
record and leaves every cell that exists as it is; a reading creates nothing and returns the
record of its name if there is one.  A look-up in vain leads to an insertion, and a request whose
steps are taken returns a record, whatever happens between them.  Whatever happens later, all
records that are returned for a name are the same one, which the name keeps.  At every point, so
also while no request is open, the size and the listing show each created name exactly once. -/
theorem permanent_and_listed (moves : List Move) :
    let s := start.run moves
    (∀ later, s.Permanent later) ∧
    s.Listed ∧
    (∀ name, (s.registry.lookup name).isSome = true ↔ name ∈ s.passed) ∧
    (∀ i name, s.requests i = .missed name →
      ∃ id, (s.step (.insert i)).returned = (name, id) :: s.returned ∧
        (s.step (.insert i)).passed = name :: s.passed ∧
        (s.step (.insert i)).registry.lookup name = some id) ∧
    (∀ i, ∀ id < s.registry.cells.length,
      (s.step (.insert i)).registry.cells[id]? = s.registry.cells[id]?) ∧
    (∀ i name, (s.step (.read i name)).registry = s.registry) ∧
    (∀ i name, s.requests i = .idle → (s.step (.read i name)).returned =
      ((s.registry.lookup name).map fun id => (name, id)).toList ++ s.returned) ∧
    s.Answered := by
  intro s
  have hs : s.Sound := sound_start.run moves
  refine ⟨hs.permanent, hs.listed, hs.passed, ?_, ?_, ?_, ?_, s.answered⟩
  · exact fun i name hi => (insert_returns hi).2
  · intro i id hid
    cases hi : s.requests i with
    | idle | seeking _ => simp [step, hi]
    | missed name =>
        rw [step_insert hi]
        exact Registry.cells_findOrInsert hid name
  · intro i name
    simp only [step]
    split <;> rfl
  · intro i name hi
    rw [step_read hi]
    cases s.registry.lookup name <;> rfl

/-- Two threads look a name up in vain before either of them inserts, and one of them has
inserted; a third thread is about to insert another name. -/
def racing : List Move :=
  [.request 0 "a", .request 1 "a", .lookUp 0, .lookUp 1, .insert 1, .request 2 "b", .lookUp 2]

/-- The thread that comes too late is returned the record that the other one has made, and so is
everybody after it; a fourth thread that asks for the other name is returned a record too. -/
theorem permanent_and_listed_racing :
    let s := start.run racing
    let t := s.run [.insert 2, .insert 0]
    s.requests 0 = .missed "a" ∧ s.returned = [("a", 0)] ∧ s.passed = ["a"] ∧
    (∀ later known, ("a", known) ∈ (s.run later).returned → known = 0) ∧
    t.returned = [("a", 0), ("b", 1), ("a", 0)] ∧ t.registry.size = 2 ∧
    ∀ first second, (∀ m ∈ first ++ second, m.thread? ≠ some 3) →
      let looking := (t.step (.request 3 "b")).run first
      let inserting := (looking.step (.lookUp 3)).run second
      let done := inserting.step (.insert 3)
      done.requests 3 = .idle ∧ ∃ id, done.registry.lookup "b" = some id ∧
        ((looking.step (.lookUp 3)).returned = ("b", id) :: looking.returned ∨
          done.returned = ("b", id) :: inserting.returned) := by
  intro s t
  obtain ⟨hpermanent, -⟩ := permanent_and_listed racing
  obtain ⟨-, hlisted, -, -, -, -, -, hanswered⟩ :=
    permanent_and_listed (racing ++ [.insert 2, .insert 0])
  have hreturned : s.returned = [("a", 0)] := by decide
  refine ⟨rfl, hreturned, rfl, fun later known hknown => ?_, by decide, hlisted.size, ?_⟩
  · exact (hpermanent later).returned "a" 0 (by simp [s, hreturned]) known hknown
  · exact fun first second hothers => hanswered.answered 3 "b" first second rfl hothers

end RegistrySystem

end JobSupervisor.Health
