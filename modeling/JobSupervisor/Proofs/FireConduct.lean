import JobSupervisor.Proofs.FireOverlap

/-!
# What fires do

A fire that is refused its lease changes nothing but the count of skipped runs of its job.  A
fire that is granted the lease runs the job once, holds the lease meanwhile, and gives it back
however the body ends and whether or not somebody awaits it.

## Main definitions

* `FireSystem.Untouched` — records, threads and the metrics of runs are as they were.
* `FireStage.rest` — the steps that a fire with a lease has left.
* `FireSystem.run_begin_of_begun`, `FireSystem.settle_of_ended` — what the worker of a fire does to
  the supervisor before and after the body, in whatever order the others move.
* `FireSystem.Conduct`, `FireSystem.conduct_of_run` — what holds of all fires after all moves.
-/

namespace JobSupervisor

namespace FireSystem

variable {s₀ : Supervisor} {s : FireSystem} {i : Nat} {f : FireTask}

/-! ## Fires without a lease -/

/-- Records, clock, threads and the metrics of runs are as they were. -/
structure Untouched (s s' : FireSystem) : Prop where
  same : s.supervisor.Same s'.supervisor
  threads : s'.fires.map FireTask.thread = s.fires.map FireTask.thread
  series : ∀ name, s'.supervisor.metrics.series name =
    { s.supervisor.metrics.series name with
      skipped := (s'.supervisor.metrics.series name).skipped }

theorem Untouched.refl (s : FireSystem) : s.Untouched s :=
  ⟨⟨rfl, rfl, rfl, rfl⟩, rfl, fun _ => rfl⟩

theorem map_thread_set (hi : s.fires[i]? = some f) {f' : FireTask} (h : f'.thread = f.thread) :
    (s.fires.set i f').map FireTask.thread = s.fires.map FireTask.thread := by
  obtain ⟨hlt, rfl⟩ := List.getElem?_eq_some_iff.1 hi
  rw [List.map_set, h, ← List.getElem_map FireTask.thread (h := by simpa using hlt),
    List.set_getElem_self]

theorem untouched_draw (hs : s.Synced) (hi : s.fires[i]? = some f) :
    s.Untouched (s.draw i f) := by
  have hclock : (s.lock.step (.draw (asker i))).clock = s.supervisor.clock :=
    (LockSystem.clock_step (by simp) s.lock).trans hs.clock.symm
  simp only [draw]
  split
  · split
    · exact ⟨⟨rfl, hclock, rfl, rfl⟩, rfl, fun _ => rfl⟩
    · exact ⟨⟨rfl, hclock, rfl, rfl⟩, map_thread_set hi rfl, fun _ => rfl⟩
  · exact .refl s

theorem untouched_enter (hs : s.Synced) (hi : s.fires[i]? = some f) :
    s.Untouched (s.enter i f) := by
  have hclock : (s.lock.step (.enter (asker i))).clock = s.supervisor.clock :=
    (LockSystem.clock_step (by simp) s.lock).trans hs.clock.symm
  cases ha : s.lock.attempts (asker i) with
  | idle => simpa [enter, ha] using Untouched.refl s
  | clocked _ _ _ => simpa [enter, ha] using Untouched.refl s
  | drawn name now h =>
      obtain ⟨journal, ⟨-, -, henter⟩ | ⟨tookOver, -, -, -, henter⟩⟩ := enter_of_drawn ha f
      · rw [henter]
        exact ⟨⟨rfl, hclock, rfl, rfl⟩, map_thread_set hi rfl, fun _ => rfl⟩
      · rw [henter]
        exact ⟨⟨rfl, hclock, rfl, rfl⟩, map_thread_set hi rfl, fun _ => rfl⟩

/-- A step of a fire without a lease touches at most the count of skipped runs. -/
theorem untouched_own (hs : s.Synced) (hi : s.fires[i]? = some f)
    (hf : f.stage.tenure? = none) (m : FireMove) : s.Untouched (s.step (.own i m)) := by
  have h := s.advances_advance i m f
  rw [← step_own hi] at h
  generalize s.step (.own i m) = s' at h ⊢
  cases h with
  | stay => exact .refl s
  | draw h => exact untouched_draw hs hi
  | enter h => exact untouched_enter hs hi
  | skip h =>
      refine ⟨⟨rfl, rfl, rfl, rfl⟩, map_thread_set hi rfl, fun name => ?_⟩
      exact Metrics.series_recordSkipped s.supervisor.metrics f.job.name name
  | begin h => simp [h, FireStage.tenure?] at hf
  | act h d => simp [h, FireStage.tenure?] at hf
  | finish h e => simp [h, FireStage.tenure?] at hf
  | settle h => simp [h, FireStage.tenure?] at hf
  | giveBack h => simp [h, FireStage.tenure?] at hf
  | abandon h => simp [hf] at h

/-- A fire that enters the table notes what the lock answers. -/
theorem step_enter_answers (hi : s.fires[i]? = some f) (hf : f.stage = .asking) {name : String}
    {now : Instant} {h : Holding} (ha : s.lock.attempts (asker i) = .drawn name now h) :
    ∃ f', (s.step (.own i .enter)).fires[i]? = some f' ∧
      f'.admission = some (s.lock.table.enter name now h).1 := by
  have hlt : i < s.fires.length := (List.getElem?_eq_some_iff.1 hi).1
  have hstep : s.step (.own i .enter) = s.enter i f := by
    rw [step_own hi]
    simp only [advance, hf]
  rw [hstep]
  obtain ⟨journal, ⟨hdenied, -, henter⟩ | ⟨tookOver, hgranted, -, -, henter⟩⟩ :=
    enter_of_drawn ha f
  · rw [henter, hdenied]
    exact ⟨_, List.getElem?_set_self hlt, rfl⟩
  · rw [henter, hgranted]
    exact ⟨_, List.getElem?_set_self hlt, rfl⟩

/-- A fire that enters the table is denied the lease exactly if the name of its job is held at
its clock reading. -/
theorem Sound.denied_iff (hs : s.Sound s₀) (hi : s.fires[i]? = some f) (hf : f.stage = .asking)
    {name : String} {now : Instant} {h : Holding}
    (ha : s.lock.attempts (asker i) = .drawn name now h) :
    ∃ f', (s.step (.own i .enter)).fires[i]? = some f' ∧
      (f'.admission = some .denied ↔ s.lock.table.isHeld f.job.name now = true) := by
  have hname := hs.asks i
  rw [hi, Option.bind_some, FireTask.asks?, hf, ha] at hname
  obtain rfl : name = f.job.name := Option.some.inj hname
  obtain ⟨f', hi', hanswer⟩ := step_enter_answers hi hf ha
  refine ⟨f', hi', ?_⟩
  rw [hanswer, Option.some.injEq]
  exact s.lock.table.enter_denied_iff f.job.name now h

/-- A fire that asks is answered by its next two steps, unless its lease is too long for the
clock. -/
theorem Sound.answers (hs : s.Sound s₀) (hi : s.fires[i]? = some f) (hf : f.stage = .asking) :
    (∃ f', (s.run [.own i .draw, .own i .enter]).fires[i]? = some f' ∧ f'.admission.isSome) ∨
    ∃ name lease now, s.lock.attempts (asker i) = .clocked name lease now ∧
      now.later? lease = none := by
  have hname := hs.asks i
  rw [hi, Option.bind_some, FireTask.asks?, hf] at hname
  cases ha : s.lock.attempts (asker i) with
  | idle => simp [ha, Attempt.name?] at hname
  | drawn name now h =>
      have hdraw : s.step (.own i .draw) = s := by
        rw [step_own hi]
        simp only [advance, hf, FireSystem.draw, ha]
      obtain ⟨f', hi', hanswer⟩ := step_enter_answers hi hf ha
      rw [run_cons, run_cons, run_nil, hdraw]
      exact .inl ⟨f', hi', by simp [hanswer]⟩
  | clocked name lease now =>
      cases hl : now.later? lease with
      | none => exact .inr ⟨name, lease, now, rfl, hl⟩
      | some expiresAt =>
          let s₁ := s.withLock (s.lock.step (.draw (asker i)))
          have hdraw : s.step (.own i .draw) = s₁ := by
            rw [step_own hi]
            simp only [advance, hf, FireSystem.draw, ha, hl]
            rfl
          have hi₁ : s₁.fires[i]? = some f := hi
          have ha₁ : s₁.lock.attempts (asker i) =
              .drawn name now ⟨s.lock.drawToken.1, expiresAt⟩ := by
            simp only [s₁, withLock, LockSystem.step_draw ha, hl]
            exact LockSystem.attempts_setAttempt_self _ _ _
          obtain ⟨f', hi', hanswer⟩ := step_enter_answers hi₁ hf ha₁
          rw [run_cons, run_cons, run_nil, hdraw]
          exact .inl ⟨f', hi', by simp [hanswer]⟩

end FireSystem

/-! ## Fires with a lease -/

/-- The steps that a fire with a lease has left, if its body ends as `e`. -/
def FireStage.rest (e : Ending Unit) : FireStage → List FireSystem.FireMove
  | .granted _ => [.begin, .finish e, .settle, .giveBack]
  | .running _ _ => [.finish e, .settle, .giveBack]
  | .ended _ _ _ => [.settle, .giveBack]
  | .settled _ => [.giveBack]
  | .asking | .overflowed | .refused | .skipped | .returned _ => []

namespace FireSystem

variable {s₀ : Supervisor} {s : FireSystem} {i : Nat} {f : FireTask} {t : Tenure}

/-- The steps of a fire give its lease back and leave the lock alone otherwise. -/
def Returns (i : Nat) (t : Tenure) (awaited : Bool) (moves : List FireMove) (s : FireSystem) :
    Prop :=
  (s.run (moves.map (.own i))).lock = s.lock.step (.drop t.grant) ∧
    ∃ f, (s.run (moves.map (.own i))).fires[i]? = some f ∧ f.stage = .returned t ∧
      f.awaited = awaited

theorem returns_cons {awaited : Bool} {m : FireMove} {moves : List FireMove} {s' : FireSystem}
    (hstep : s.step (.own i m) = s') (hlock : s'.lock = s.lock)
    (h : s'.Returns i t awaited moves) : s.Returns i t awaited (m :: moves) := by
  rw [Returns, List.map_cons, run_cons, hstep, ← hlock]
  exact h

theorem returns_of_settled (hi : s.fires[i]? = some f) (hf : f.stage = .settled t) :
    s.Returns i t f.awaited [.giveBack] := by
  rw [Returns, List.map_singleton, run_cons, run_nil, step_giveBack hi hf]
  exact ⟨rfl, _, getElem?_setFire_self (s := s.withLock _) hi _, rfl, rfl⟩

theorem getElem?_work {α : Type} (hi : s.fires[i]? = some f) (g : Supervisor → α × Supervisor)
    (next : α → FireTask) :
    ∃ a thread, (s.work i f g next).fires[i]? = some { next a with thread := thread } :=
  ⟨_, _, getElem?_setFire_self (s := { s with supervisor := _ }) hi _⟩

theorem returns_of_ended (hi : s.fires[i]? = some f) {r : Run} {e : Ending Unit}
    (hf : f.stage = .ended t r e) : s.Returns i t f.awaited [.settle, .giveBack] := by
  obtain ⟨-, thread, hi'⟩ :=
    getElem?_work hi (r.settle e) fun _ => { f with stage := .settled t }
  exact returns_cons (step_settle hi hf) rfl
    (returns_of_settled (f := { f with stage := .settled t, thread := thread }) hi' rfl)

theorem returns_of_running (hi : s.fires[i]? = some f) {r : Run} (hf : f.stage = .running t r)
    (e : Ending Unit) : s.Returns i t f.awaited [.finish e, .settle, .giveBack] :=
  returns_cons (step_finish hi hf e) rfl (returns_of_ended
    (f := { f with stage := .ended t r e, ended := f.ended + 1 }) (getElem?_setFire_self hi _) rfl)

theorem returns_of_granted (hi : s.fires[i]? = some f) (hf : f.stage = .granted t)
    (e : Ending Unit) : s.Returns i t f.awaited [.begin, .finish e, .settle, .giveBack] := by
  obtain ⟨r, thread, hi'⟩ := getElem?_work hi (Run.begin f.job)
    fun r => { f with stage := .running t r, begun := f.begun + 1 }
  exact returns_cons (step_begin hi hf) rfl (returns_of_running
    (f := { f with stage := .running t r, begun := f.begun + 1, thread := thread }) hi' rfl e)

/-- A fire with a lease gives it back with the steps that it has left, however its body ends. -/
theorem returns_rest (hi : s.fires[i]? = some f) (ht : f.stage.tenure? = some t)
    (e : Ending Unit) : s.Returns i t f.awaited (f.stage.rest e) := by
  cases hf : f.stage with
  | granted u =>
      obtain rfl : u = t := by simpa [hf, FireStage.tenure?] using ht
      exact returns_of_granted hi hf e
  | running u r =>
      obtain rfl : u = t := by simpa [hf, FireStage.tenure?] using ht
      exact returns_of_running hi hf e
  | ended u r e' =>
      obtain rfl : u = t := by simpa [hf, FireStage.tenure?] using ht
      exact returns_of_ended hi hf
  | settled u =>
      obtain rfl : u = t := by simpa [hf, FireStage.tenure?] using ht
      exact returns_of_settled hi hf
  | _ => simp [hf, FireStage.tenure?] at ht

end FireSystem

/-! ## What a fire does to the supervisor -/

namespace FireSystem

variable {s₀ : Supervisor} {s : FireSystem} {i j : Nat} {f f' : FireTask}

/-- A fire that draws its token is as it was, or its lease is too long. -/
theorem fires_draw (s : FireSystem) (i : Nat) (f : FireTask) :
    (s.draw i f).fires = s.fires ∨
      (s.draw i f).fires = s.fires.set i { f with stage := .overflowed } := by
  simp only [draw]
  split
  · split
    · exact .inl rfl
    · exact .inr rfl
  · exact .inl rfl

/-- A fire that enters the table comes to a stage at which its body has not begun. -/
theorem fires_enter (s : FireSystem) (i : Nat) (f : FireTask) :
    (s.enter i f).fires = s.fires ∨ ∃ stage admission,
      (s.enter i f).fires = s.fires.set i { f with stage := stage, admission := admission } := by
  cases ha : s.lock.attempts (asker i) with
  | idle => exact .inl (by simp only [enter, ha])
  | clocked _ _ _ => exact .inl (by simp only [enter, ha])
  | drawn name now h =>
      obtain ⟨journal, ⟨-, -, henter⟩ | ⟨tookOver, -, -, -, henter⟩⟩ := enter_of_drawn ha f
      · exact .inr ⟨_, _, by rw [henter]; rfl⟩
      · exact .inr ⟨_, _, by rw [henter]; rfl⟩

/-- A step of a fire changes no other one. -/
theorem getElem?_of_advances {s' : FireSystem} (h : s.Advances j f s') (hji : j ≠ i) :
    s'.fires[i]? = s.fires[i]? := by
  have hset (f' : FireTask) : (s.fires.set j f')[i]? = s.fires[i]? := List.getElem?_set_ne hji
  cases h with
  | stay => rfl
  | draw h =>
      rcases s.fires_draw j f with hfires | hfires
      · rw [hfires]
      · rw [hfires, hset]
  | enter h =>
      rcases s.fires_enter j f with hfires | ⟨stage, admission, hfires⟩
      · rw [hfires]
      · rw [hfires, hset]
  | _ => exact hset _

/-- What others do with the lock changes no fire. -/
theorem fires_elsewhere (m : LockSystem.Move) (s : FireSystem) :
    (s.elsewhere m).fires = s.fires := by
  cases m with
  | enter i =>
      cases ha : s.lock.attempts (asker i + 1) with
      | idle => simp only [elsewhere, ha]
      | clocked _ _ _ => simp only [elsewhere, ha]
      | drawn name now h =>
          obtain ⟨journal, ⟨-, helse⟩ | ⟨-, helse⟩⟩ := elsewhere_enter_of_drawn ha
          · rw [helse]
            rfl
          · rw [helse]
            rfl
  | drop g =>
      simp only [elsewhere]
      split <;> rfl
  | _ => rfl

/-- A move leaves a fire as it is, or it is a step of that fire. -/
theorem fire_step_cases (hi : s.fires[i]? = some f) {m : Move}
    (hi' : (s.step m).fires[i]? = some f') : f' = f ∨ s.Advances i f (s.step m) := by
  have hlt : i < s.fires.length := (List.getElem?_eq_some_iff.1 hi).1
  have hkept (h : (s.step m).fires[i]? = s.fires[i]?) : f' = f :=
    Option.some.inj (hi'.symm.trans (h.trans hi))
  cases m with
  | ask job lease thread => exact .inl (hkept (List.getElem?_append_left hlt))
  | own j m =>
      rcases s.step_own_cases j m with h | ⟨g, hj, h⟩
      · exact .inl (hkept (by rw [h]))
      · by_cases hji : j = i
        · subst hji
          obtain rfl := Option.some.inj (hi.symm.trans hj)
          exact .inr h
        · exact .inl (hkept (getElem?_of_advances h hji))
  | elsewhere m => exact .inl (hkept (congrArg (·[i]?) (s.fires_elsewhere m)))
  | other d => exact .inl (hkept rfl)

/-- The fire that a step has set in the place of another one. -/
theorem eq_of_getElem?_set (hi : s.fires[i]? = some f) {g : FireTask}
    (hi' : (s.fires.set i g)[i]? = some f') : f' = g := by
  rw [List.getElem?_set_self (List.getElem?_eq_some_iff.1 hi).1] at hi'
  exact (Option.some.inj hi').symm

/-- A body begins with the beginning of a run, on the thread of the worker of its fire, and only
if the fire has a lease. -/
theorem run_begin_of_begun (hi : s.fires[i]? = some f) {m : Move}
    (hi' : (s.step m).fires[i]? = some f') (hbegun : f'.begun ≠ f.begun) :
    ∃ t r, f.stage = .granted t ∧ f'.stage = .running t r ∧ f'.begun = f.begun + 1 ∧
      s.supervisor.onWorker f.thread (Run.begin f.job) =
        (r, f'.thread, (s.step m).supervisor) := by
  have hne {g : FireTask} (h : (s.fires.set i g)[i]? = some f') (hg : g.begun = f.begun) :
      False :=
    hbegun ((congrArg FireTask.begun (eq_of_getElem?_set hi h)).trans hg)
  rcases fire_step_cases hi hi' with rfl | h
  · exact absurd rfl hbegun
  · generalize s.step m = s' at h hi' ⊢
    cases h with
    | stay =>
        obtain rfl := Option.some.inj (hi.symm.trans hi')
        exact absurd rfl hbegun
    | draw h =>
        rcases s.fires_draw i f with hfires | hfires <;> rw [hfires] at hi'
        · obtain rfl := Option.some.inj (hi.symm.trans hi')
          exact absurd rfl hbegun
        · exact (hne hi' rfl).elim
    | enter h =>
        rcases s.fires_enter i f with hfires | ⟨stage, admission, hfires⟩ <;> rw [hfires] at hi'
        · obtain rfl := Option.some.inj (hi.symm.trans hi')
          exact absurd rfl hbegun
        · exact (hne hi' rfl).elim
    | begin h =>
        obtain rfl := eq_of_getElem?_set hi hi'
        exact ⟨_, _, h, rfl, rfl, rfl⟩
    | skip h => exact (hne hi' rfl).elim
    | act h d => exact (hne hi' rfl).elim
    | finish h e => exact (hne hi' rfl).elim
    | settle h => exact (hne hi' rfl).elim
    | giveBack h => exact (hne hi' rfl).elim
    | abandon h => exact (hne hi' rfl).elim

/-- The run that has begun goes on until its body ends. -/
theorem stage_of_running (hi : s.fires[i]? = some f) {t : Tenure} {r : Run}
    (hf : f.stage = .running t r) {m : Move} (hi' : (s.step m).fires[i]? = some f') :
    f'.stage = .running t r ∨ ∃ e, f'.stage = .ended t r e := by
  rcases fire_step_cases hi hi' with rfl | h
  · exact .inl hf
  · generalize s.step m = s' at h hi'
    cases h with
    | stay =>
        obtain rfl := Option.some.inj (hi.symm.trans hi')
        exact .inl hf
    | act h d =>
        obtain rfl := eq_of_getElem?_set hi hi'
        exact .inl hf
    | finish h e =>
        obtain rfl := eq_of_getElem?_set hi hi'
        cases hf.symm.trans h
        exact .inr ⟨e, rfl⟩
    | abandon h =>
        obtain rfl := eq_of_getElem?_set hi hi'
        exact .inl hf
    | _ h => cases hf.symm.trans h

/-- A run whose body has ended is settled by how the body ended, on the thread of its worker. -/
theorem settle_of_ended (hi : s.fires[i]? = some f) {t : Tenure} {r : Run} {e : Ending Unit}
    (hf : f.stage = .ended t r e) {m : Move} (hi' : (s.step m).fires[i]? = some f') :
    f'.stage = .ended t r e ∨ f'.stage = .settled t ∧ ∃ value?,
      s.supervisor.onWorker f.thread (r.settle e) =
        (value?, f'.thread, (s.step m).supervisor) := by
  rcases fire_step_cases hi hi' with rfl | h
  · exact .inl hf
  · generalize s.step m = s' at h hi' ⊢
    cases h with
    | stay =>
        obtain rfl := Option.some.inj (hi.symm.trans hi')
        exact .inl hf
    | settle h =>
        obtain rfl := eq_of_getElem?_set hi hi'
        cases hf.symm.trans h
        exact .inr ⟨rfl, _, rfl⟩
    | abandon h =>
        obtain rfl := eq_of_getElem?_set hi hi'
        exact .inl hf
    | _ h => cases hf.symm.trans h

/-- A fire that begins now and is not disturbed does what a fire does. -/
theorem Sound.fires (hs : s.Sound s₀) {β : Type} (j : ScheduledJob β) (lease : Duration)
    (d : Deed) (e : Ending Unit) :
    (s.run (.ask j.descriptor lease s.supervisor.worker ::
      (askMoves ++ workerMoves d e).map (.own s.fires.length))).supervisor =
      { (Fire.fire (fun s => s) (fun s _ => s) .table lease j (fun _ s => (e, d.act s))
          s.supervisor).2 with worker := s.supervisor.worker } := by
  have hidle : s.lock.attempts (asker s.fires.length) = .idle := by
    simpa [Attempt.name?_eq_none_iff] using hs.asks s.fires.length
  exact supervisor_fire hs.synced hidle j lease d e

end FireSystem

/-! ## The conduct of all fires -/

namespace FireTask

variable {f : FireTask}

theorem report?_eq_false_iff : f.report? = some false ↔ f.stage = .skipped := by
  cases hf : f.stage <;> simp [report?, hf]

theorem skips_iff {name : String} :
    f.skips name = true ↔ f.job.name = name ∧ f.report? = some false := by
  rw [report?_eq_false_iff]
  cases hf : f.stage <;> simp [skips, hf]

namespace Sound

/-- A denied fire is refused or has skipped, and has not run. -/
theorem of_denied (h : f.Sound) (hd : f.admission = some .denied) :
    (f.stage = .refused ∨ f.stage = .skipped) ∧ f.begun = 0 := by
  have hanswer := h.answer
  have hbegun := h.begun
  rw [hd] at hanswer
  cases hf : f.stage <;> simp_all [FireStage.answer?, FireStage.timesBegun]

theorem denied_of_skipped (h : f.Sound) (hf : f.stage = .skipped) :
    f.admission = some .denied := by
  have hanswer := h.answer
  rw [hf] at hanswer
  simpa [FireStage.answer?] using hanswer

/-- The body of a fire begins only if the lease was granted. -/
theorem granted_of_begun (h : f.Sound) (hb : f.begun ≠ 0) :
    ∃ tookOver, f.admission = some (.granted tookOver) := by
  have hanswer := h.answer
  rw [h.begun] at hb
  have hgranted : f.stage.answer? = some true := by
    cases hf : f.stage <;> simp_all [FireStage.timesBegun, FireStage.answer?]
  rw [hgranted] at hanswer
  obtain ⟨a, ha, hne⟩ := Option.map_eq_some_iff.1 hanswer
  cases a with
  | denied => simp at hne
  | granted tookOver => exact ⟨tookOver, ha⟩

/-- A fire whose lease was granted holds it, or its body has run once and it is returned. -/
theorem of_granted (h : f.Sound) {tookOver : Bool}
    (hg : f.admission = some (.granted tookOver)) :
    (f.stage.tenure?.isSome ∧ f.ended ≤ f.begun ∧ f.begun ≤ 1) ∨
      f.stage.tenure? = none ∧ f.begun = 1 ∧ f.ended = 1 := by
  have hanswer := h.answer
  rw [hg] at hanswer
  rw [h.begun, h.ended]
  cases hf : f.stage <;>
    simp_all [FireStage.answer?, FireStage.tenure?, FireStage.timesBegun, FireStage.timesEnded]

end Sound

end FireTask

namespace FireSystem

variable {s₀ : Supervisor} {s : FireSystem}

/-- What holds of all fires. -/
structure Conduct (s₀ : Supervisor) (s : FireSystem) : Prop where
  /-- The next two steps of a fire that asks bring the answer of the lock, unless the lease is
  too long for the clock. -/
  answered : ∀ i f, s.fires[i]? = some f → f.stage = .asking →
    (∃ f', (s.run [.own i .draw, .own i .enter]).fires[i]? = some f' ∧ f'.admission.isSome) ∨
    ∃ name lease now, s.lock.attempts (asker i) = .clocked name lease now ∧
      now.later? lease = none
  /-- A fire that enters the table is denied the lease exactly if the name of its job is held at
  its clock reading. -/
  asked : ∀ i f name now h, s.fires[i]? = some f → f.stage = .asking →
    s.lock.attempts (asker i) = .drawn name now h →
    ∃ f', (s.step (.own i .enter)).fires[i]? = some f' ∧
      (f'.admission = some .denied ↔ s.lock.table.isHeld f.job.name now = true)
  /-- A fire reports a skip only if its lease was denied. -/
  denied : ∀ f ∈ s.fires, f.report? = some false → f.admission = some .denied
  /-- A fire whose lease was denied has not run, and has reported a skip or reports it with its
  next step, which counts one skip of its job. -/
  skipped : ∀ i f, s.fires[i]? = some f → f.admission = some .denied →
    f.begun = 0 ∧ (f.report? = some false ∨
      (∃ f', (s.step (.own i .skip)).fires[i]? = some f' ∧ f'.report? = some false) ∧
      ∀ name, ((s.step (.own i .skip)).supervisor.metrics.series name).skipped =
        (s.supervisor.metrics.series name).skipped + if f.job.name = name then 1 else 0)
  /-- The steps of a fire without a lease leave everything but the counts of skips alone. -/
  untouched : ∀ i f m, s.fires[i]? = some f → f.stage.tenure? = none →
    s.Untouched (s.step (.own i m))
  /-- Every reported skip was counted once, for its job. -/
  counted : ∀ name, (s.supervisor.metrics.series name).skipped =
    (s₀.metrics.series name).skipped +
      s.fires.countP fun f => f.job.name = name ∧ f.report? = some false
  /-- Undisturbed, a fire that begins now does to the supervisor what a fire does. -/
  fired : ∀ {β : Type} (j : ScheduledJob β) (lease : Duration) (d : Deed) (e : Ending Unit),
    (s.run (.ask j.descriptor lease s.supervisor.worker ::
      (askMoves ++ workerMoves d e).map (.own s.fires.length))).supervisor =
      { (Fire.fire (fun s => s) (fun s _ => s) .table lease j (fun _ s => (e, d.act s))
          s.supervisor).2 with worker := s.supervisor.worker }
  /-- A body begins with the beginning of a run, on the worker of a fire with a lease. -/
  began : ∀ (i : Nat) (f : FireTask) (m : Move) (f' : FireTask), s.fires[i]? = some f →
    (s.step m).fires[i]? = some f' → f'.begun ≠ f.begun →
    ∃ t r, f.stage = .granted t ∧ f'.stage = .running t r ∧ f'.begun = f.begun + 1 ∧
      s.supervisor.onWorker f.thread (Run.begin f.job) = (r, f'.thread, (s.step m).supervisor)
  /-- The run that has begun goes on until its body ends. -/
  running : ∀ (i : Nat) (f : FireTask) (m : Move) (f' : FireTask) (t : Tenure) (r : Run),
    s.fires[i]? = some f → f.stage = .running t r →
    (s.step m).fires[i]? = some f' →
    f'.stage = .running t r ∨ ∃ e, f'.stage = .ended t r e
  /-- Then it is settled by how the body ended, before the lease is given back. -/
  settled : ∀ (i : Nat) (f : FireTask) (m : Move) (f' : FireTask) (t : Tenure) (r : Run)
    (e : Ending Unit), s.fires[i]? = some f → f.stage = .ended t r e →
    (s.step m).fires[i]? = some f' →
    f'.stage = .ended t r e ∨ f'.stage = .settled t ∧ ∃ value?,
      s.supervisor.onWorker f.thread (r.settle e) =
        (value?, f'.thread, (s.step m).supervisor)
  /-- A body runs only if the lease was granted. -/
  admitted : ∀ f ∈ s.fires, f.begun ≠ 0 → ∃ tookOver, f.admission = some (.granted tookOver)
  /-- Once the lease is granted, it is not given back before the body has run once. -/
  held : ∀ f ∈ s.fires, ∀ tookOver, f.admission = some (.granted tookOver) →
    (∃ t, f.stage.tenure? = some t ∧ t.grant.name = f.job.name ∧ t.grant ∈ s.lock.grants ∧
      f.ended ≤ f.begun ∧ f.begun ≤ 1) ∨
    f.stage.tenure? = none ∧ f.begun = 1 ∧ f.ended = 1
  /-- However the body ends, and whether or not the fire is awaited, the steps that are left
  bring the body to its end and give the lease back. -/
  returned : ∀ (i : Nat) (f : FireTask) (t : Tenure) (e : Ending Unit),
    s.fires[i]? = some f → f.stage.tenure? = some t →
    ∃ f', (s.run ((f.stage.rest e).map (.own i))).fires[i]? = some f' ∧
      f'.begun = 1 ∧ f'.ended = 1 ∧ f'.stage.tenure? = none ∧
      f'.report? = (if f.awaited then some true else none) ∧
      s.lock.grants.Perm (t.grant :: (s.run ((f.stage.rest e).map (.own i))).lock.grants)
  /-- Every lease that is not given back was taken elsewhere or belongs to one fire. -/
  owned : s.lock.grants.Perm (s.taken ++ s.holdings)
  /-- While the lease of a fire is unexpired, the name of its job is held. -/
  shown : s.lock.draws < UInt64.size → ∀ f ∈ s.fires, ∀ t, f.stage.tenure? = some t →
    s.supervisor.clock < t.grant.expiresAt →
    s.supervisor.leases.isHeld f.job.name s.supervisor.clock = true
  /-- Of the leases that two fires hold, one was granted first, and if they are on one name, it
  had expired before the other one was granted. -/
  apart : s.lock.draws < UInt64.size → ∀ i j t u, i ≠ j → s.tenureAt i = some t →
    s.tenureAt j = some u → t.Before u ∨ u.Before t
  /-- Without a fire of the name in progress, and without an unexpired lease on it that was taken
  elsewhere, the name is not held. -/
  free : ∀ name, (∀ f ∈ s.fires, f.job.name = name → f.stage.tenure? = none) →
    (∀ g ∈ s.taken, g.name = name → ¬ s.supervisor.clock < g.expiresAt) →
    s.supervisor.leases.isHeld name s.supervisor.clock = false

/-- A refused fire reports the skip with its next step and counts it. -/
theorem skip_of_refused {i : Nat} {f : FireTask} (hi : s.fires[i]? = some f)
    (hf : f.stage = .refused) :
    (∃ f', (s.step (.own i .skip)).fires[i]? = some f' ∧ f'.report? = some false) ∧
      ∀ name, ((s.step (.own i .skip)).supervisor.metrics.series name).skipped =
        (s.supervisor.metrics.series name).skipped + if f.job.name = name then 1 else 0 := by
  have hstep : s.step (.own i .skip) =
      (s.modify (·.skipRun f.job.name)).setFire i { f with stage := .skipped } := by
    rw [step_own hi]
    simp only [advance, hf]
  rw [hstep]
  refine ⟨⟨{ f with stage := .skipped }, ?_, rfl⟩, fun name => ?_⟩
  · exact getElem?_setFire_self (s := s.modify _) hi _
  · exact Metrics.skipped_recordSkipped s.supervisor.metrics f.job.name name

theorem Sound.returns (hs : s.Sound s₀) {i : Nat} {f : FireTask} {t : Tenure}
    (hi : s.fires[i]? = some f) (ht : f.stage.tenure? = some t) (e : Ending Unit) :
    ∃ f', (s.run ((f.stage.rest e).map (.own i))).fires[i]? = some f' ∧
      f'.begun = 1 ∧ f'.ended = 1 ∧ f'.stage.tenure? = none ∧
      f'.report? = (if f.awaited then some true else none) ∧
      s.lock.grants.Perm
        (t.grant :: (s.run ((f.stage.rest e).map (.own i))).lock.grants) := by
  obtain ⟨hlock, f', hi', hf', hawaited⟩ := returns_rest hi ht e
  have htask := (hs.run ((f.stage.rest e).map (.own i))).tasks f' (mem_of_getElem? hi')
  have hmem := hs.mem_grants ((tenureAt_eq hi).trans ht)
  refine ⟨f', hi', ?_, ?_, ?_, ?_, ?_⟩
  · rw [htask.begun, hf', FireStage.timesBegun]
  · rw [htask.ended, hf', FireStage.timesEnded]
  · rw [hf', FireStage.tenure?]
  · rw [FireTask.report?, hf', hawaited]
  · rw [hlock, LockSystem.step_drop hmem]
    exact List.perm_cons_erase hmem

/-- **All fires behave.**  In every order of the moves of any number of fires and of everybody
else, a fire skips exactly if its lease is denied, and then leaves everything but the count of
skips alone; otherwise its worker begins a run, the body runs once, and the worker settles the
run, with the lease held meanwhile and given back at the end.  Two runs of a job overlap only
after a lease has expired, and a name is free when nobody has an unexpired lease on it. -/
theorem conduct_of_run (s₀ : Supervisor) (moves : List Move) :
    ((start s₀).run moves).Conduct s₀ := by
  have hs := (sound_start s₀).run moves
  have horder (hdraws : ((start s₀).run moves).lock.draws < UInt64.size) :
      ((start s₀).run moves).Orderly :=
    (orderly_start s₀).run (sound_start s₀) hdraws
  generalize (start s₀).run moves = s at hs horder ⊢
  refine {
    answered := fun i f hi hf => hs.answers hi hf
    asked := fun i f name now h hi hf ha => hs.denied_iff hi hf ha
    denied := fun f hf hr =>
      (hs.tasks f hf).denied_of_skipped (FireTask.report?_eq_false_iff.1 hr)
    skipped := fun i f hi hd => ?_
    untouched := fun i f m hi hf => untouched_own hs.synced hi hf m
    counted := fun name => ?_
    fired := hs.fires
    began := fun i f m f' hi hi' hbegun => run_begin_of_begun hi hi' hbegun
    running := fun i f m f' t r hi hf hi' => stage_of_running hi hf hi'
    settled := fun i f m f' t r e hi hf hi' => settle_of_ended hi hf hi'
    admitted := fun f hf hb => (hs.tasks f hf).granted_of_begun hb
    held := fun f hf tookOver hg => ?_
    returned := fun i f t e hi ht => hs.returns hi ht e
    owned := hs.grants
    shown := fun hdraws f hf t ht hlive => ?_
    apart := fun hdraws => (horder hdraws).before
    free := fun name hfires htaken => ?_ }
  · obtain ⟨hstage, hbegun⟩ := (hs.tasks f (mem_of_getElem? hi)).of_denied hd
    rcases hstage with hf | hf
    · exact ⟨hbegun, .inr (skip_of_refused hi hf)⟩
    · exact ⟨hbegun, .inl (FireTask.report?_eq_false_iff.2 hf)⟩
  · rw [hs.skips name]
    congr 1
    exact List.countP_congr fun f _ => by simp [FireTask.skips_iff]
  · have htask := hs.tasks f hf
    obtain ⟨i, hi⟩ := List.mem_iff_getElem?.1 hf
    rcases htask.of_granted hg with ⟨hsome, hended, hbegun⟩ | hreturned
    · obtain ⟨t, ht⟩ := Option.isSome_iff_exists.1 hsome
      have hmem := hs.mem_grants ((tenureAt_eq hi).trans ht)
      exact .inl ⟨t, ht, htask.named t ht, hmem, hended, hbegun⟩
    · exact .inr hreturned
  · obtain ⟨i, hi⟩ := List.mem_iff_getElem?.1 hf
    rw [← (hs.tasks f hf).named t ht]
    rw [hs.synced.clock] at hlive
    exact hs.isHeld_of_tenureAt hdraws ((tenureAt_eq hi).trans ht) hlive
  · refine hs.isHeld_eq_false (fun i t ht hname => ?_) (hs.synced.clock ▸ htaken)
    obtain ⟨f, hi, hf⟩ := Option.bind_eq_some_iff.1 ht
    have hmem := mem_of_getElem? hi
    have hnone := hfires f hmem (((hs.tasks f hmem).named t hf).symm.trans hname)
    rw [hf] at hnone
    exact absurd hnone (by simp)

/-- A run outlives its lease: while it goes on and nobody awaits it any more, a second fire is
skipped, and a third one takes the lease over. -/
def outlivedLease : List Move :=
  let job : Descriptor := ⟨"sync", ⟨100⟩⟩
  [.ask job ⟨5⟩ .initial, .own 0 .draw, .own 0 .enter, .own 0 .begin, .own 0 .abandon,
    .ask job ⟨5⟩ .initial, .own 1 .draw, .own 1 .enter, .own 1 .skip,
    .elsewhere (.pass ⟨5⟩),
    .ask job ⟨5⟩ .initial, .own 2 .draw, .own 2 .enter, .own 2 .begin]

/-- Two runs of the job overlap, because the lease of the first one has expired. -/
theorem conduct_of_outlivedLease :
    let s := (start { Supervisor.initial with clock := ⟨0⟩ }).run outlivedLease
    let t : Tenure := ⟨⟨"sync", 0, ⟨5⟩⟩, ⟨0⟩, 0⟩
    let u : Tenure := ⟨⟨"sync", 2, ⟨10⟩⟩, ⟨5⟩, 1⟩
    s.lock.draws < UInt64.size ∧ s.tenureAt 0 = some t ∧ s.tenureAt 2 = some u ∧
      (t.Before u ∨ u.Before t) ∧ s.lock.grants.Perm (s.taken ++ s.holdings) := by
  intro s t u
  have hs : s.Conduct { Supervisor.initial with clock := ⟨0⟩ } := conduct_of_run _ outlivedLease
  have hdraws : s.lock.draws < UInt64.size := by decide
  have ht : s.tenureAt 0 = some t := by decide
  have hu : s.tenureAt 2 = some u := by decide
  exact ⟨hdraws, ht, hu, hs.apart hdraws 0 2 t u (by decide) ht hu, hs.owned⟩

end FireSystem

end JobSupervisor
