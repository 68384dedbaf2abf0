import JobSupervisor.Proofs.RunFootprints
import Mathlib.Data.Finset.Image
import Mathlib.Data.Finset.Order
import Mathlib.Data.Finset.Range

/-!
# Workers among others

Workers whose jobs have distinct names do not disturb each other.  In every order of the steps
each worker goes through what it would go through alone, because its steps depend on the record
and the metrics of its job only, and no other worker touches those.  So when a run is over, it has
left the same in whichever order the steps came, and it comes to its end as soon as its worker has
taken enough steps.

## Main definitions

* `Crew.Sound` — what is kept in every order of the steps.
* `Crew.Sound.exists_alike_run` — a worker among others is like the same worker alone.
* `Crew.Sound.eq_of_returned` — what a run has left when it is over.
* `Crew.Sound.exists_bound_over` — all runs come to their ends.
-/

namespace JobSupervisor

namespace Stage

/-- A stage is its own at the place that it knows. -/
theorem exists_eq_relocate (stage : Stage) : ∃ id, stage = stage.relocate id := by
  cases stage with
  | placed id => exact ⟨id, rfl⟩
  | entered r | running r | ended r _ | marked r _ | judged r _ _ | healed r _ | counted r
  | seen r _ => exact ⟨r.record, rfl⟩
  | fresh | missed | shown | returned => exact ⟨0, rfl⟩

theorem eq_returned_of_relocate {stage : Stage} {id : Health.RecordId}
    (h : stage.relocate id = .returned) : stage = .returned := by
  cases stage with
  | returned => rfl
  | _ => contradiction

end Stage

namespace Worker

variable {α : Type} {w w' w'' : Worker α} {s s' s'' : Supervisor}

theorem job_steps (n : Nat) (w : Worker α) (s : Supervisor) : (w.steps n s).1.job = w.job := by
  induction n generalizing w s with
  | zero => rfl
  | succ n ih => exact (ih _ _).trans (w.job_step s)

theorem steps_of_returned (h : w.stage = .returned) (n : Nat) (s : Supervisor) :
    w.steps n s = (w, s) := by
  have hstep : w.step s = (w, s) := by
    obtain ⟨job, own, stage, script, value?⟩ := w
    obtain rfl : stage = .returned := h
    rfl
  induction n with
  | zero => rfl
  | succ n ih => rw [steps, hstep]; exact ih

/-- A run that is over after some steps is as it is after any other number of steps after which
it is over. -/
theorem steps_eq_of_returned {m n : Nat} (hm : (w.steps m s).1.stage = .returned)
    (hn : (w.steps n s).1.stage = .returned) : w.steps m s = w.steps n s := by
  rcases Nat.le_total m n with hle | hle
  · obtain ⟨k, rfl⟩ := Nat.exists_eq_add_of_le hle
    rw [steps_add, steps_of_returned hm]
  · obtain ⟨k, rfl⟩ := Nat.exists_eq_add_of_le hle
    rw [steps_add, steps_of_returned hn]

theorem Alike.refl (w : Worker α) (s : Supervisor) : w.Alike s w s := by
  obtain ⟨id, hid⟩ := w.stage.exists_eq_relocate
  exact ⟨⟨id, congrArg (fun stage => { w with stage := stage }) hid⟩, rfl⟩

theorem Alike.stage_eq_returned (h : w.Alike s w' s') (hw' : w'.stage = .returned) :
    w.stage = .returned := by
  obtain ⟨⟨id, rfl⟩, -⟩ := h
  exact Stage.eq_returned_of_relocate hw'

end Worker

namespace Crew

variable {α : Type} {c : Crew α} {w wc : Worker α} {s : Supervisor} {i j : Nat}

/-- The records are those that can occur, every run keeps to the record of its job, and the jobs
have distinct names. -/
structure Sound (c : Crew α) : Prop where
  reachable : c.supervisor.registry.Reachable
  placed : ∀ w ∈ c.workers, w.Placed c.supervisor
  distinct : (c.workers.map fun w => w.job.name).Nodup

theorem step_of_none (hi : c.workers[i]? = none) : c.step i = c := by
  simp only [step, hi]

theorem names_step (c : Crew α) (i : Nat) :
    ((c.step i).workers.map fun w => w.job.name) = c.workers.map fun w => w.job.name := by
  cases hi : c.workers[i]? with
  | none => rw [step_of_none hi]
  | some w =>
      have hname : (c.workers.map fun w => w.job.name)[i]? = some w.job.name := by
        rw [List.getElem?_map, hi]
        rfl
      rw [step_of_getElem? hi, List.map_set, Worker.job_step]
      refine List.ext_getElem? fun j => ?_
      by_cases hij : i = j
      · subst hij
        rw [List.getElem?_set_self (List.getElem?_eq_some_iff.1 hname).1, hname]
      · rw [List.getElem?_set_ne hij]

theorem Sound.ne_of_ne (hc : c.Sound) (hi : c.workers[i]? = some w)
    (hj : c.workers[j]? = some wc) (hij : i ≠ j) : w.job.name ≠ wc.job.name := by
  intro hname
  have hnames : (c.workers.map fun w => w.job.name)[i]? =
      (c.workers.map fun w => w.job.name)[j]? := by
    rw [List.getElem?_map, List.getElem?_map, hi, hj, Option.map_some, Option.map_some, hname]
  have hlt : i < (c.workers.map fun w => w.job.name).length := by
    rw [List.length_map]
    exact (List.getElem?_eq_some_iff.1 hi).1
  exact hij ((List.getElem?_inj hlt hc.distinct).1 hnames)

theorem Sound.step (hc : c.Sound) (i : Nat) : (c.step i).Sound := by
  cases hi : c.workers[i]? with
  | none =>
      rw [step_of_none hi]
      exact hc
  | some w =>
      have hw := hc.placed w (List.mem_of_getElem? hi)
      have hleads := (Worker.touches_step hc.reachable.separate hw).leads
      have hnames := c.names_step i
      rw [step_of_getElem? hi] at hnames ⊢
      constructor
      · exact hc.reachable.leads hleads
      · intro w' hw'
        rcases List.mem_or_eq_of_mem_set hw' with hw' | rfl
        · exact (hc.placed w' hw').leads hleads
        · exact hw.step hc.reachable.separate
      · rw [hnames]
        exact hc.distinct

theorem Sound.run (hc : c.Sound) (schedule : List Nat) : (c.run schedule).Sound := by
  induction schedule generalizing c with
  | nil => exact hc
  | cons i schedule ih => exact ih (hc.step i)

/-! ## A worker among others and alone -/

theorem getElem?_step_of_ne (c : Crew α) (hij : i ≠ j) :
    (c.step j).workers[i]? = c.workers[i]? := by
  cases hj : c.workers[j]? with
  | none => rw [step_of_none hj]
  | some w => rw [step_of_getElem? hj, List.getElem?_set_ne (Ne.symm hij)]

/-- A step of another worker leaves the footprint of a job alone. -/
theorem Sound.footprint_step (hc : c.Sound) {name : String}
    (hname : ∀ w, c.workers[j]? = some w → w.job.name ≠ name) :
    (c.step j).supervisor.footprint name = c.supervisor.footprint name := by
  cases hj : c.workers[j]? with
  | none => rw [step_of_none hj]
  | some w =>
      have hw := hc.placed w (List.mem_of_getElem? hj)
      rw [step_of_getElem? hj]
      exact (Worker.touches_step hc.reachable.separate hw).others name (hname w hj)

/-- **A worker among others is like the same worker alone**, after as many steps of its own. -/
theorem Sound.exists_alike_run (hc : c.Sound) (hi : c.workers[i]? = some wc)
    (hs : s.registry.Reachable) (hw : w.Placed s) (halike : w.Alike s wc c.supervisor)
    (schedule : List Nat) :
    ∃ w', (c.run schedule).workers[i]? = some w' ∧
      (w.steps (schedule.count i) s).1.Alike (w.steps (schedule.count i) s).2 w'
        (c.run schedule).supervisor := by
  induction schedule generalizing c w wc s with
  | nil => exact ⟨wc, hi, halike⟩
  | cons j schedule ih =>
      have hwc := hc.placed wc (List.mem_of_getElem? hi)
      by_cases hij : i = j
      · subst hij
        have hstep := step_of_getElem? hi
        have hi' : (c.step i).workers[i]? = some (wc.step c.supervisor).1 := by
          rw [hstep]
          exact getElem?_set_self hi _
        have hs' := hs.leads (Worker.touches_step hs.separate hw).leads
        have halike' := halike.step hs hc.reachable hw hwc
        rw [List.count_cons_self]
        refine ih (hc.step i) hi' hs' (hw.step hs.separate) ?_
        change (w.step s).1.Alike (w.step s).2 (wc.step c.supervisor).1 (c.step i).supervisor
        rw [hstep]
        exact halike'
      · rw [List.count_cons_of_ne (Ne.symm hij)]
        refine ih (hc.step j) ((getElem?_step_of_ne c hij).trans hi) hs hw ⟨halike.worker, ?_⟩
        have hjob : wc.job = w.job := by
          obtain ⟨⟨id, rfl⟩, -⟩ := halike
          rfl
        rw [hc.footprint_step fun w' hj => ?_]
        · exact halike.footprint
        · rw [← hjob]
          exact hc.ne_of_ne hj hi (Ne.symm hij)

/-- **When a run is over, it has left the same, in whichever order the steps came.** -/
theorem Sound.eq_of_returned (hc : c.Sound) (hi : c.workers[i]? = some w)
    {schedule schedule' : List Nat} {a b : Worker α}
    (ha : (c.run schedule).workers[i]? = some a) (hb : (c.run schedule').workers[i]? = some b)
    (hover : a.stage = .returned) (hover' : b.stage = .returned) :
    a.value? = b.value? ∧ a.own = b.own ∧
      (c.run schedule).supervisor.footprint w.job.name =
        (c.run schedule').supervisor.footprint w.job.name := by
  have hw := hc.placed w (List.mem_of_getElem? hi)
  have hrefl := Worker.Alike.refl w c.supervisor
  obtain ⟨a', ha', halike⟩ := hc.exists_alike_run hi hc.reachable hw hrefl schedule
  obtain ⟨b', hb', halike'⟩ := hc.exists_alike_run hi hc.reachable hw hrefl schedule'
  obtain rfl := Option.some.inj (ha'.symm.trans ha)
  obtain rfl := Option.some.inj (hb'.symm.trans hb)
  have hsteps := Worker.steps_eq_of_returned (halike.stage_eq_returned hover)
    (halike'.stage_eq_returned hover')
  rw [← hsteps] at halike'
  obtain ⟨⟨id, rfl⟩, hfoot⟩ := halike
  obtain ⟨⟨id', rfl⟩, hfoot'⟩ := halike'
  rw [Worker.job_steps] at hfoot hfoot'
  exact ⟨rfl, rfl, hfoot.trans hfoot'.symm⟩

/-- What is shared about a job of which there is no worker stays as it is. -/
theorem Sound.footprint_run (hc : c.Sound) {name : String}
    (hname : ∀ w ∈ c.workers, w.job.name ≠ name) (schedule : List Nat) :
    (c.run schedule).supervisor.footprint name = c.supervisor.footprint name := by
  induction schedule generalizing c with
  | nil => rfl
  | cons j schedule ih =>
      have hstep := hc.footprint_step (j := j) fun w hj => hname w (List.mem_of_getElem? hj)
      have hrest := ih (hc.step j) fun w hw => by
        have hmem : w.job.name ∈ (c.step j).workers.map fun w => w.job.name :=
          List.mem_map.2 ⟨w, hw, rfl⟩
        rw [names_step] at hmem
        obtain ⟨w₀, hw₀, hsame⟩ := List.mem_map.1 hmem
        rw [← hsame]
        exact hname w₀ hw₀
      exact hrest.trans hstep

/-! ## The end of all runs -/

/-- All runs are over. -/
def Over (c : Crew α) : Prop := ∀ w ∈ c.workers, w.stage.isReturned = true

instance (c : Crew α) : Decidable c.Over :=
  inferInstanceAs (Decidable (∀ w ∈ c.workers, w.stage.isReturned = true))

theorem length_run (c : Crew α) (schedule : List Nat) :
    (c.run schedule).workers.length = c.workers.length := by
  induction schedule generalizing c with
  | nil => rfl
  | cons i schedule ih =>
      have hnames := congrArg List.length (names_step c i)
      rw [List.length_map, List.length_map] at hnames
      exact (ih (c.step i)).trans hnames

/-- The workers stay where they are. -/
theorem lt_length_of_getElem?_run {schedule : List Nat}
    (hi : (c.run schedule).workers[i]? = some w) : i < c.workers.length := by
  rw [← length_run c schedule]
  exact (List.getElem?_eq_some_iff.1 hi).1

theorem exists_getElem?_run (hi : c.workers[i]? = some w) (schedule : List Nat) :
    ∃ a, (c.run schedule).workers[i]? = some a := by
  have hlt : i < (c.run schedule).workers.length := by
    rw [length_run]
    exact (List.getElem?_eq_some_iff.1 hi).1
  exact ⟨_, List.getElem?_eq_getElem hlt⟩

/-- A worker that takes enough steps comes to the end of its run, whatever the others do. -/
theorem Sound.exists_bound (hc : c.Sound) (hi : c.workers[i]? = some w)
    (hfresh : w.stage = .fresh) :
    ∃ n, ∀ schedule : List Nat, n ≤ schedule.count i →
      ∃ a, (c.run schedule).workers[i]? = some a ∧ a.stage = .returned := by
  obtain ⟨n, hn⟩ := Worker.exists_steps_of_fresh hfresh c.supervisor
  refine ⟨n, fun schedule hle => ?_⟩
  obtain ⟨a, ha, ⟨id, rfl⟩, -⟩ := hc.exists_alike_run hi hc.reachable
    (hc.placed w (List.mem_of_getElem? hi)) (Worker.Alike.refl w c.supervisor) schedule
  refine ⟨_, ha, ?_⟩
  obtain ⟨k, hk⟩ := Nat.exists_eq_add_of_le hle
  rw [hk, Worker.steps_add, hn, Worker.steps_of_returned rfl]
  rfl

/-- **All runs come to their ends** as soon as every worker has taken enough steps. -/
theorem Sound.exists_bound_over (hc : c.Sound) (hfresh : ∀ w ∈ c.workers, w.stage = .fresh) :
    ∃ n, ∀ schedule : List Nat, (∀ i < c.workers.length, n ≤ schedule.count i) →
      (c.run schedule).Over := by
  have hbound : ∀ i, ∃ n, i < c.workers.length → ∀ schedule : List Nat, n ≤ schedule.count i →
      ∃ a, (c.run schedule).workers[i]? = some a ∧ a.stage = .returned := by
    intro i
    by_cases hi : i < c.workers.length
    · obtain ⟨n, hn⟩ := hc.exists_bound (List.getElem?_eq_getElem hi)
        (hfresh _ (List.getElem_mem _))
      exact ⟨n, fun _ => hn⟩
    · exact ⟨0, fun hlt => absurd hlt hi⟩
  choose bound hbound using hbound
  obtain ⟨n, hn⟩ := ((Finset.range c.workers.length).image bound).exists_le
  refine ⟨n, fun schedule hle w hw => ?_⟩
  obtain ⟨i, hi⟩ := List.mem_iff_getElem?.1 hw
  have hlt := lt_length_of_getElem?_run hi
  have hbelow : bound i ≤ n := hn _ (Finset.mem_image_of_mem bound (Finset.mem_range.2 hlt))
  obtain ⟨a, ha, hreturned⟩ :=
    hbound i hlt schedule (Nat.le_trans hbelow (hle i hlt))
  obtain rfl := Option.some.inj (hi.symm.trans ha)
  rw [hreturned]
  rfl

/-- Whole runs of others leave a worker alone. -/
theorem getElem?_oneByOne_of_notMem {order : List Nat} (hi : i ∉ order) :
    (c.oneByOne order).workers[i]? = c.workers[i]? := by
  induction order generalizing c with
  | nil => rfl
  | cons j order ih =>
      rw [List.mem_cons, not_or] at hi
      exact (ih hi.2).trans (getElem?_whole_of_ne (Ne.symm hi.1))

/-- Whole runs are over. -/
theorem exists_getElem?_oneByOne {order : List Nat} (hnodup : order.Nodup) (hi : i ∈ order)
    (hget : c.workers[i]? = some w) :
    ∃ b, (c.oneByOne order).workers[i]? = some b ∧ b.stage = .returned := by
  induction order generalizing c with
  | nil => cases hi
  | cons j order ih =>
      obtain ⟨hnot, hnodup⟩ := List.nodup_cons.1 hnodup
      rcases List.mem_cons.1 hi with rfl | hi
      · obtain ⟨b, hb, hreturned⟩ :
            ∃ b, (c.whole i).workers[i]? = some b ∧ b.stage = .returned := by
          simp only [whole, hget]
          exact ⟨_, getElem?_set_self hget _, rfl⟩
        exact ⟨b, (getElem?_oneByOne_of_notMem hnot).trans hb, hreturned⟩
      · have hij : j ≠ i := fun heq => hnot (heq ▸ hi)
        exact ih hnodup hi ((getElem?_whole_of_ne hij).trans hget)

end Crew

end JobSupervisor
