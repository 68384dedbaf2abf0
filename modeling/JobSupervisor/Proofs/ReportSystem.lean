import JobSupervisor.Proofs.HealthEndpoints
import JobSupervisor.Proofs.RegistryPermanence

/-!
# A report in the making

A report is not made in one step.  The directory is kept in shards.  A thread that makes a report
collects the entries of one shard after the other, in whatever order it meets them, sorts what it
has collected by name, and then looks at one record after the other.  Between any two of these
steps other threads ask for records and change them.

## Main definitions

* `Shards` — how the names are spread over the shards of the directory.
* `Survey`, `Survey.Step`, `Survey.advance` — how far a thread is with a report, and its steps.
* `Survey.Advance` — the four things that such a step can do.
* `ReportSystem`, `ReportSystem.step`, `ReportSystem.run` — the thread that makes a report and the
  threads beside it.
* `ReportSystem.finished?_run_own`, `ReportSystem.exists_finished` — undisturbed, the steps make
  `Registry.report`; from any point on they make some report.
-/

namespace JobSupervisor.Health

/-- The number of shards of a directory, and the shard of each name. -/
structure Shards where
  count : Nat
  of : String → Fin count

/-- The entries of one shard. -/
def Registry.shard (g : Registry) (d : Shards) (k : Nat) : List (String × RecordId) :=
  g.listing.filter fun e => (d.of e.1).val = k

/-- How far a thread is with a report. -/
inductive Survey where
  /-- The entries of the shards before the next one are collected. -/
  | collecting (next : Nat) (entries : List (String × RecordId))
  /-- The entries that are left to look at, and the report on the others. -/
  | viewing (entries : List (String × RecordId)) (report : Report)

namespace Survey

/-- The entries that were collected and not looked at yet. -/
def entries : Survey → List (String × RecordId)
  | .collecting _ es => es
  | .viewing es _ => es

/-- The report on the entries that were looked at. -/
def report : Survey → Report
  | .collecting _ _ => .clear
  | .viewing _ r => r

/-- The report, once it is made. -/
def finished? : Survey → Option Report
  | .viewing [] r => some r
  | .viewing (_ :: _) _ | .collecting _ _ => none

theorem eq_of_finished? {v : Survey} {r : Report} (h : v.finished? = some r) :
    v = .viewing [] r := by
  cases v with
  | collecting next es => cases h
  | viewing es r' =>
      cases es with
      | nil => exact congrArg (viewing []) (Option.some.inj h)
      | cons e es => cases h

/-- The steps of the thread that makes a report. -/
inductive Step where
  /-- Meets the entries of the next shard in some order. -/
  | collect (met : List (String × RecordId))
  | sort
  | view

variable {d : Shards} {g : Registry} {v v' : Survey}

/-- How far the thread is after a step on a registry; a step that cannot be made changes
nothing. -/
def advance (d : Shards) (g : Registry) : Step → Survey → Survey
  | .collect met, .collecting next es =>
      if next < d.count ∧ met.Perm (g.shard d next) then .collecting (next + 1) (es ++ met)
      else .collecting next es
  | .sort, .collecting next es =>
      if next < d.count then .collecting next es else .viewing (Registry.sorted es) .clear
  | .view, .viewing (e :: es) r => .viewing es (r.add e.1 (g.record e.2).snapshot)
  | .collect _, v => v
  | .sort, v => v
  | .view, v => v

/-- The four things that a step can do. -/
inductive Advance (d : Shards) (g : Registry) : Survey → Survey → Prop where
  | rest (v : Survey) : Advance d g v v
  | collect {next : Nat} {es met : List (String × RecordId)} (bound : next < d.count)
      (perm : met.Perm (g.shard d next)) :
      Advance d g (.collecting next es) (.collecting (next + 1) (es ++ met))
  | sort {next : Nat} {es : List (String × RecordId)} (bound : d.count ≤ next) :
      Advance d g (.collecting next es) (.viewing (Registry.sorted es) .clear)
  | view (e : String × RecordId) (es : List (String × RecordId)) (r : Report) :
      Advance d g (.viewing (e :: es) r) (.viewing es (r.add e.1 (g.record e.2).snapshot))

/-- **What a step can do.** -/
theorem advance_advance (d : Shards) (g : Registry) (a : Step) (v : Survey) :
    Advance d g v (v.advance d g a) := by
  fun_cases advance d g a v with
  | case1 met next es h => exact .collect h.1 h.2
  | case3 next es h => exact .rest _
  | case4 next es h => exact .sort (Nat.not_lt.1 h)
  | case5 e es r => exact .view e es r
  | case2 | case6 | case7 | case8 => exact .rest _

/-! ## A report that nothing disturbs -/

/-- How far a report is while the registry has not changed. -/
inductive Undisturbed (d : Shards) (g : Registry) : Survey → Prop where
  | collecting {next : Nat} {es : List (String × RecordId)}
      (perm : es.Perm (g.listing.filter fun e => (d.of e.1).val < next)) :
      Undisturbed d g (.collecting next es)
  | viewing {seen es : List (String × RecordId)} (listing : seen ++ es = g.listing) :
      Undisturbed d g (.viewing es
        (seen.foldl (fun r e => r.add e.1 (g.record e.2).snapshot) Report.clear))

/-- The entries of the first shards, with those of the next one. -/
theorem perm_filter_succ (d : Shards) (g : Registry) (next : Nat) :
    (g.listing.filter (fun e => (d.of e.1).val < next) ++ g.shard d next).Perm
      (g.listing.filter fun e => (d.of e.1).val < next + 1) := by
  have hsplit := List.filter_append_perm (fun e => decide ((d.of e.1).val < next))
    (g.listing.filter fun e => (d.of e.1).val < next + 1)
  have hfirst : (g.listing.filter fun e => (d.of e.1).val < next + 1).filter
      (fun e => (d.of e.1).val < next) = g.listing.filter fun e => (d.of e.1).val < next := by
    rw [List.filter_filter]
    refine List.filter_congr fun e _ => ?_
    rw [← Bool.decide_and, decide_eq_decide]
    omega
  have hnext : (g.listing.filter fun e => (d.of e.1).val < next + 1).filter
      (fun e => !decide ((d.of e.1).val < next)) = g.shard d next := by
    rw [List.filter_filter, Registry.shard]
    refine List.filter_congr fun e _ => ?_
    rw [← decide_not, ← Bool.decide_and, decide_eq_decide]
    omega
  rwa [hfirst, hnext] at hsplit

theorem filter_lt_count (d : Shards) (g : Registry) {next : Nat} (h : d.count ≤ next) :
    g.listing.filter (fun e => (d.of e.1).val < next) = g.listing :=
  List.filter_eq_self.2 fun e _ =>
    decide_eq_true (Nat.lt_of_lt_of_le (d.of e.1).isLt h)

/-- A step keeps this while the registry does not change. -/
theorem Undisturbed.advance (h : Undisturbed d g v) (ha : Advance d g v v') :
    Undisturbed d g v' := by
  cases ha with
  | rest => exact h
  | @collect next es met _ hmet =>
      obtain ⟨hes⟩ := h
      exact .collecting ((hes.append hmet).trans (perm_filter_succ d g next))
  | @sort next es hbound =>
      obtain ⟨hes⟩ := h
      rw [filter_lt_count d g hbound] at hes
      have hsorted : [] ++ Registry.sorted es = g.listing := Registry.sorted_eq_listing hes
      exact .viewing hsorted
  | view e es r =>
      generalize hv : Survey.viewing (e :: es) r = v at h
      cases h with
      | collecting hes => cases hv
      | @viewing seen _ hlisting =>
          obtain ⟨rfl, rfl⟩ := Survey.viewing.inj hv
          have hseen : (seen ++ [e]) ++ es = g.listing := by simpa using hlisting
          simpa using Undisturbed.viewing (d := d) hseen

/-- How far the thread is after steps on a registry that does not change. -/
def advanceAll (d : Shards) (g : Registry) (steps : List Step) (v : Survey) : Survey :=
  steps.foldl (fun v a => v.advance d g a) v

@[simp] theorem advanceAll_nil (d : Shards) (g : Registry) (v : Survey) :
    v.advanceAll d g [] = v := rfl

@[simp] theorem advanceAll_cons (d : Shards) (g : Registry) (a : Step) (steps : List Step)
    (v : Survey) : v.advanceAll d g (a :: steps) = (v.advance d g a).advanceAll d g steps := rfl

theorem Undisturbed.advanceAll (h : Undisturbed d g v) (steps : List Step) :
    Undisturbed d g (v.advanceAll d g steps) := by
  induction steps generalizing v with
  | nil => exact h
  | cons a steps ih => exact ih (h.advance (advance_advance d g a v))

/-- An undisturbed report is the one over the registry at rest. -/
theorem Undisturbed.eq_report {r : Report} (h : Undisturbed d g v) (hr : v.finished? = some r) :
    r = g.report := by
  rw [eq_of_finished? hr] at h
  generalize hv : Survey.viewing [] r = v at h
  cases h with
  | collecting hes => cases hv
  | viewing hlisting =>
      obtain ⟨rfl, rfl⟩ := Survey.viewing.inj hv
      rw [List.append_nil] at hlisting
      rw [hlisting]
      rfl

theorem exists_finished_viewing (d : Shards) (g : Registry) (es : List (String × RecordId))
    (r : Report) : ∃ steps, (advanceAll d g steps (.viewing es r)).finished?.isSome = true := by
  induction es generalizing r with
  | nil => exact ⟨[], rfl⟩
  | cons e es ih =>
      obtain ⟨steps, hsteps⟩ := ih (r.add e.1 (g.record e.2).snapshot)
      exact ⟨.view :: steps, hsteps⟩

theorem exists_finished_collecting (d : Shards) (g : Registry) (left next : Nat)
    (hleft : d.count ≤ next + left) (es : List (String × RecordId)) :
    ∃ steps, (advanceAll d g steps (.collecting next es)).finished?.isSome = true := by
  induction left generalizing next es with
  | zero =>
      obtain ⟨steps, hsteps⟩ := exists_finished_viewing d g (Registry.sorted es) .clear
      have hnext : ¬ next < d.count := Nat.not_lt.2 hleft
      refine ⟨.sort :: steps, ?_⟩
      simpa [advance, hnext] using hsteps
  | succ left ih =>
      by_cases hnext : next < d.count
      · obtain ⟨steps, hsteps⟩ := ih (next + 1) (by omega) (es ++ g.shard d next)
        refine ⟨.collect (g.shard d next) :: steps, ?_⟩
        simpa [advance, hnext] using hsteps
      · exact ih next (by omega) es

/-- From any point on, undisturbed steps make a report. -/
theorem exists_finished (d : Shards) (g : Registry) (v : Survey) :
    ∃ steps, (v.advanceAll d g steps).finished?.isSome = true := by
  cases v with
  | collecting next es => exact exists_finished_collecting d g d.count next (by omega) es
  | viewing es r => exact exists_finished_viewing d g es r

end Survey

/-! ## The thread that makes a report and the threads beside it -/

/-- A thread that makes a report, and the threads beside it. -/
structure ReportSystem where
  threads : RegistrySystem
  survey : Survey

namespace ReportSystem

/-- A step of another thread, or one of the thread that makes the report. -/
inductive Move where
  | other (m : RegistrySystem.Move)
  | own (a : Survey.Step)

/-- A thread begins a report. -/
def opened (threads : RegistrySystem) : ReportSystem := ⟨threads, .collecting 0 []⟩

/-- The registry that all threads share. -/
def registry (s : ReportSystem) : Registry := s.threads.registry

/-- The system after a move. -/
def step (d : Shards) : Move → ReportSystem → ReportSystem
  | .other m, s => { s with threads := s.threads.step m }
  | .own a, s => { s with survey := s.survey.advance d s.registry a }

/-- The system after moves one after the other. -/
def run (d : Shards) (moves : List Move) (s : ReportSystem) : ReportSystem :=
  moves.foldl (fun s m => s.step d m) s

@[simp] theorem run_nil (d : Shards) (s : ReportSystem) : s.run d [] = s := rfl

@[simp] theorem run_cons (d : Shards) (m : Move) (moves : List Move) (s : ReportSystem) :
    s.run d (m :: moves) = (s.step d m).run d moves := rfl

theorem run_append (d : Shards) (moves later : List Move) (s : ReportSystem) :
    s.run d (moves ++ later) = (s.run d moves).run d later :=
  List.foldl_append

/-- While no other thread takes a step, the registry stays as it is. -/
theorem run_own (d : Shards) (steps : List Survey.Step) (s : ReportSystem) :
    s.run d (steps.map .own) = ⟨s.threads, s.survey.advanceAll d s.registry steps⟩ := by
  induction steps generalizing s with
  | nil => rfl
  | cons a steps ih => exact ih (s.step d (.own a))

/-- **The steps of an undisturbed report make the report over the registry at rest.** -/
theorem finished?_run_own (d : Shards) (threads : RegistrySystem) {steps : List Survey.Step}
    {r : Report} (hr : ((opened threads).run d (steps.map .own)).survey.finished? = some r) :
    r = threads.registry.report := by
  have hopened : Survey.Undisturbed d threads.registry (opened threads).survey :=
    .collecting (.of_eq (by simp))
  rw [run_own] at hr
  exact (hopened.advanceAll steps).eq_report hr

/-- From any point on, the steps of the thread make a report. -/
theorem exists_finished (d : Shards) (s : ReportSystem) :
    ∃ steps : List Survey.Step, (s.run d (steps.map .own)).survey.finished?.isSome = true := by
  obtain ⟨steps, hsteps⟩ := s.survey.exists_finished d s.registry
  exact ⟨steps, by rwa [run_own]⟩

end ReportSystem

end JobSupervisor.Health
