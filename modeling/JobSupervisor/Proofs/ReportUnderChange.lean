import JobSupervisor.Proofs.ReportSystem

/-!
# Reports while records change

The entries of a report show records at different moments, so that no single moment need have
looked like it.  Each entry is right for itself: it shows what the record of its name was when it
was looked at.  A job that is degraded from the first step to the last is therefore listed, and
one that is healthy all the while is not.

## Main definitions

* `ReportSystem.Meets` — the registries that there are while a report is made.
* `Registry.Shows` — a name has a degraded record, with a reason.
* `ReportSystem.Faithful` — what holds of a report in the making.
* `ReportSystem.report_faithful` — what holds of every report that is made.
-/

namespace JobSupervisor.Health

/-- The record of a name is degraded, for a reason. -/
def Registry.Shows (g : Registry) (name reason : String) : Prop :=
  ∃ id, g.lookup name = some id ∧ (g.record id).snapshot = ⟨.degraded, some reason⟩

/-- The record of a name is not healthy. -/
def Registry.Degraded (g : Registry) (name : String) : Prop :=
  ∃ id, g.lookup name = some id ∧ (g.record id).isHealthy = false

theorem Record.status_snapshot_eq_degraded_iff (r : Record) :
    r.snapshot.status = .degraded ↔ r.isHealthy = false := by
  cases hu : r.unhealthy <;> simp [snapshot, isHealthy, hu]

theorem Registry.Shows.degraded {g : Registry} {name reason : String} (h : g.Shows name reason) :
    g.Degraded name := by
  obtain ⟨id, hl, hs⟩ := h
  exact ⟨id, hl, (Record.status_snapshot_eq_degraded_iff _).1 (by rw [hs])⟩

/-- A degraded record has a reason that is not blank, and what a reader is shown is that
reason. -/
theorem Registry.WellFormed.shows_of_status {g : Registry} (h : g.WellFormed) {name : String}
    {id : RecordId} (hl : g.lookup name = some id)
    (hs : (g.record id).snapshot.status = .degraded) :
    g.Shows name ((g.record id).snapshot.reason.getD "") ∧
      ¬ Text.IsBlank ((g.record id).snapshot.reason.getD "") := by
  rcases (h.sound id).snapshot with ⟨hsnap, -⟩ | ⟨reason, hblank, hsnap, -⟩
  · rw [hsnap] at hs
    cases hs
  · rw [hsnap]
    exact ⟨⟨id, hl, hsnap⟩, hblank⟩

theorem Report.status_eq_degraded_iff (r : Report) :
    r.status = .degraded ↔ r.details.toList ≠ [] := by
  cases h : r.details.toList <;> simp [Report.status, h]

namespace ReportSystem

variable {d : Shards} {s : ReportSystem} {moves : List Move} {g : Registry}
  {name reason : String} {id : RecordId}

/-! ## The registries that a report meets -/

/-- The registries that there are while moves have not made the report yet. -/
def Meets (d : Shards) (s : ReportSystem) (moves : List Move) (g : Registry) : Prop :=
  ∃ earlier, earlier <+: moves ∧ (s.run d earlier).survey.finished? = none ∧
    (s.run d earlier).registry = g

theorem meets_registry (h : s.survey.finished? = none) (moves : List Move) :
    s.Meets d moves s.registry :=
  ⟨[], List.nil_prefix, h, rfl⟩

theorem Meets.cons {m : Move} (h : (s.step d m).Meets d moves g) : s.Meets d (m :: moves) g := by
  obtain ⟨earlier, hprefix, hopen, hg⟩ := h
  exact ⟨m :: earlier, (List.prefix_cons_inj m).2 hprefix, hopen, hg⟩

/-! ## A report in the making -/

/-- Whether the thread has yet to look at an entry: it is collected, or its shard is still to
be met. -/
def Awaits (d : Shards) : Survey → String × RecordId → Prop
  | .collecting next es, e => next ≤ (d.of e.1).val ∨ e ∈ es
  | .viewing es _, e => e ∈ es

/-- What holds of a report in the making, given the registry at its beginning and registries that
were met. -/
structure Faithful (d : Shards) (first : Registry) (met : Registry → Prop) (s : ReportSystem) :
    Prop where
  sound : s.threads.Sound
  kept : ∀ name id, first.lookup name = some id → s.registry.lookup name = some id
  /-- Each entry that is left to look at is the record of its name. -/
  pending : ∀ name id, (name, id) ∈ s.survey.entries → s.registry.lookup name = some id
  /-- What is listed was shown by a registry that was met. -/
  listed : ∀ name reason, s.survey.report.details.get? name = some reason →
    (∃ g, met g ∧ g.Shows name reason) ∧ ¬ Text.IsBlank reason
  /-- A record that was degraded in every registry is listed or will be looked at. -/
  covered : ∀ name id, first.lookup name = some id → (∀ g, met g → g.Degraded name) →
    Awaits d s.survey (name, id) ∨ (s.survey.report.details.get? name).isSome = true

theorem faithful_opened {threads : RegistrySystem} (h : threads.Sound)
    (met : Registry → Prop) : Faithful d threads.registry met (opened threads) where
  sound := h
  kept := fun _ _ hl => hl
  pending := fun _ _ hmem => absurd hmem List.not_mem_nil
  listed := fun _ _ hget => by cases hget
  covered := fun _ _ _ _ => .inl (.inl (Nat.zero_le _))

variable {first : Registry} {met : Registry → Prop}

/-- The steps of other threads leave the entries with the records of their names. -/
theorem Faithful.other (h : Faithful d first met s) (m : RegistrySystem.Move) :
    Faithful d first met (s.step d (.other m)) where
  sound := h.sound.step m
  kept := fun name id hl => RegistrySystem.lookup_run (h.kept name id hl) [m]
  pending := fun name id hmem => RegistrySystem.lookup_run (h.pending name id hmem) [m]
  listed := h.listed
  covered := h.covered

theorem Faithful.collect {threads : RegistrySystem} {next : Nat}
    {es entries : List (String × RecordId)}
    (h : Faithful d first met ⟨threads, .collecting next es⟩)
    (hperm : entries.Perm (threads.registry.shard d next)) :
    Faithful d first met ⟨threads, .collecting (next + 1) (es ++ entries)⟩ where
  sound := h.sound
  kept := h.kept
  pending := fun name id hmem => by
    rcases List.mem_append.1 hmem with hmem | hmem
    · exact h.pending name id hmem
    · exact (Registry.mem_listing_iff _).1 (List.mem_filter.1 (hperm.mem_iff.1 hmem)).1
  listed := h.listed
  covered := fun name id hl hdegraded => by
    rcases h.covered name id hl hdegraded with (hnext | hmem) | hlisted
    · rcases Nat.eq_or_lt_of_le hnext with hnext | hnext
      · have hentry : (name, id) ∈ threads.registry.shard d next :=
          List.mem_filter.2 ⟨(Registry.mem_listing_iff _).2 (h.kept name id hl),
            decide_eq_true hnext.symm⟩
        exact .inl (.inr (List.mem_append_right _ (hperm.mem_iff.2 hentry)))
      · exact .inl (.inl hnext)
    · exact .inl (.inr (List.mem_append_left _ hmem))
    · exact .inr hlisted

theorem Faithful.sort {threads : RegistrySystem} {next : Nat} {es : List (String × RecordId)}
    (h : Faithful d first met ⟨threads, .collecting next es⟩) (hbound : d.count ≤ next) :
    Faithful d first met ⟨threads, .viewing (Registry.sorted es) .clear⟩ where
  sound := h.sound
  kept := h.kept
  pending := fun name id hmem => h.pending name id (List.mem_mergeSort.1 hmem)
  listed := h.listed
  covered := fun name id hl hdegraded => by
    rcases h.covered name id hl hdegraded with (hnext | hmem) | hlisted
    · exact absurd hnext (Nat.not_le.2 (Nat.lt_of_lt_of_le (d.of name).isLt hbound))
    · exact .inl (List.mem_mergeSort.2 hmem)
    · exact .inr hlisted

/-- The record that is looked at is shown as it is now. -/
theorem Faithful.view {threads : RegistrySystem} {e : String × RecordId}
    {es : List (String × RecordId)} {r : Report}
    (h : Faithful d first met ⟨threads, .viewing (e :: es) r⟩) (hnow : met threads.registry) :
    Faithful d first met
      ⟨threads, .viewing es (r.add e.1 (threads.registry.record e.2).snapshot)⟩ := by
  have hlookup : threads.registry.lookup e.1 = some e.2 :=
    h.pending e.1 e.2 List.mem_cons_self
  refine ⟨h.sound, h.kept, fun name id hmem => h.pending name id (List.mem_cons_of_mem _ hmem),
    fun name reason hget => ?_, fun name id hl hdegraded => ?_⟩
  · simp only [Survey.report, Report.get?_add] at hget
    split at hget
    · rename_i hseen
      obtain ⟨hstatus, rfl⟩ := hseen
      obtain ⟨hshows, hblank⟩ := h.sound.reachable.wellFormed.shows_of_status hlookup hstatus
      rw [Option.some.inj hget] at hshows hblank
      exact ⟨⟨_, hnow, hshows⟩, hblank⟩
    · exact h.listed name reason hget
  · simp only [Survey.report, Report.get?_add]
    rcases h.covered name id hl hdegraded with hmem | hlisted
    · rcases List.mem_cons.1 hmem with rfl | hmem
      · obtain ⟨other, hother, hunhealthy⟩ := hdegraded _ hnow
        obtain rfl : id = other := Option.some.inj (hlookup.symm.trans hother)
        have hstatus : (threads.registry.record id).snapshot.status = .degraded :=
          (Record.status_snapshot_eq_degraded_iff _).2 hunhealthy
        exact .inr (by simp [hstatus])
      · exact .inl hmem
    · refine .inr ?_
      split
      · rfl
      · exact hlisted

/-- Every step keeps what holds, if the registry at which it is taken was met. -/
theorem Faithful.step (h : Faithful d first met s)
    (hmet : s.survey.finished? = none → met s.registry) (m : Move) :
    Faithful d first met (s.step d m) := by
  cases m with
  | other m => exact h.other m
  | own a =>
      obtain ⟨threads, v⟩ := s
      have ha := Survey.advance_advance d threads.registry a v
      change Faithful d first met ⟨threads, v.advance d threads.registry a⟩
      generalize v.advance d threads.registry a = v' at ha
      cases ha with
      | rest => exact h
      | collect _ hperm => exact h.collect hperm
      | sort hbound => exact h.sort hbound
      | view e es r => exact h.view (hmet rfl)

theorem Faithful.run (h : Faithful d first met s) (hmet : ∀ g, s.Meets d moves g → met g) :
    Faithful d first met (s.run d moves) := by
  induction moves generalizing s with
  | nil => exact h
  | cons m moves ih =>
      exact ih (h.step (fun hopen => hmet _ (meets_registry hopen _)) m)
        fun g hg => hmet g hg.cons

/-! ## The main result -/

/-- **What a report shows of records that change while it is made.**  Whatever other threads do
before and between the steps of a report, the thread can take steps that make a report, and of a
report that is made: it is degraded exactly if it lists a job.  Each job that it lists had a
record that was degraded for just this reason at a moment before the report was made, and the
reason is not blank.  A job that had a record before the first step, degraded at all these
moments, is listed, and one whose record was healthy whenever it had one is not.  If no other
thread takes a step, the report is the one over the registry at rest. -/
theorem report_faithful (d : Shards) (before : List RegistrySystem.Move) (moves : List Move) :
    let threads := RegistrySystem.start.run before
    let s := (opened threads).run d moves
    (∃ steps : List Survey.Step, (s.run d (steps.map .own)).survey.finished?.isSome = true) ∧
    ∀ r, s.survey.finished? = some r →
      (r.status = .degraded ↔ r.details.toList ≠ []) ∧
      (∀ name reason, r.details.get? name = some reason →
        (∃ g, (opened threads).Meets d moves g ∧ g.Shows name reason) ∧
          ¬ Text.IsBlank reason) ∧
      (∀ name, (threads.registry.lookup name).isSome = true →
        (∀ g, (opened threads).Meets d moves g → g.Degraded name) →
        (r.details.get? name).isSome = true) ∧
      (∀ name, (∀ g, (opened threads).Meets d moves g → ¬ g.Degraded name) →
        r.details.get? name = none) ∧
      (∀ steps : List Survey.Step, moves = steps.map .own → r = threads.registry.report) := by
  intro threads s
  refine ⟨s.exists_finished d, fun r hr => ?_⟩
  have hsound : threads.Sound := RegistrySystem.sound_start.run before
  have hs : Faithful d threads.registry ((opened threads).Meets d moves) s :=
    (faithful_opened hsound _).run fun _ hg => hg
  have hsurvey : s.survey = .viewing [] r := Survey.eq_of_finished? hr
  have hlisted (name reason : String) (hget : r.details.get? name = some reason) :
      (∃ g, (opened threads).Meets d moves g ∧ g.Shows name reason) ∧ ¬ Text.IsBlank reason :=
    hs.listed name reason (by rw [hsurvey]; exact hget)
  refine ⟨r.status_eq_degraded_iff, hlisted, fun name hl hdegraded => ?_, fun name hhealthy => ?_,
    fun steps hmoves => ?_⟩
  · obtain ⟨id, hl⟩ := Option.isSome_iff_exists.1 hl
    have hcovered := hs.covered name id hl hdegraded
    rw [hsurvey] at hcovered
    exact hcovered.resolve_left List.not_mem_nil
  · refine Option.eq_none_iff_forall_not_mem.2 fun reason hget => ?_
    obtain ⟨⟨g, hg, hshows⟩, -⟩ := hlisted name reason hget
    exact hhealthy g hg hshows.degraded
  · subst hmoves
    exact finished?_run_own d threads hr

-- One job recovers and the other fails between the two looks: both are listed, though they were
-- never degraded together.
example :
    let before := [.request 0 "a", .lookUp 0, .insert 0, .request 0 "b", .lookUp 0, .insert 0,
      .change 0 (.markUnhealthy (some "x"))]
    let s := (opened (RegistrySystem.start.run before)).run ⟨1, fun _ => 0⟩
      [.own (.collect [("b", 1), ("a", 0)]), .own .sort, .own .view,
        .other (.change 0 .markHealthy), .other (.change 1 (.markUnhealthy (some "y"))), .own .view]
    s.survey.finished?.map (·.details.toList) = some [("a", "x"), ("b", "y")] := by
  cbv

end ReportSystem

end JobSupervisor.Health
