import JobSupervisor.Proofs.FireSystem
import Mathlib.Data.List.Count
import Mathlib.Data.List.Perm.Basic

/-!
# The leases of fires

Every lease that is not given back was taken elsewhere or belongs to a fire on its way from the
grant to the return, and each of these fires has its own.  How far a fire is tells what the lock
answered it, how often its body has begun and ended, and whether its skip is counted.

## Main definitions

* `FireTask.Sound` — what how far a fire is tells about it.
* `FireSystem.holdings` — the leases of the fires.
* `FireSystem.enter_of_drawn` — what a fire that enters the table leaves behind.
* `FireSystem.Sound`, `FireSystem.Sound.step`, `FireSystem.Sound.run` — the invariant.
-/

namespace JobSupervisor

/-! ## Lists with one place changed -/

theorem filterMap_set_of_eq {α β : Type} {l : List α} {i : Nat} {a b : α} (φ : α → Option β)
    (hi : l[i]? = some a) (h : φ b = φ a) : (l.set i b).filterMap φ = l.filterMap φ := by
  induction l generalizing i with
  | nil => rfl
  | cons x l ih =>
      cases i with
      | zero =>
          obtain rfl : x = a := by simpa using hi
          simp [List.filterMap_cons, h]
      | succ i => simp [List.filterMap_cons, ih (by simpa using hi)]

/-- A value that is new at the place comes to those of the other places. -/
theorem perm_filterMap_set {α β : Type} {l : List α} {i : Nat} {a b : α} {c : β}
    (φ : α → Option β) (hi : l[i]? = some a) (ha : φ a = none) (hb : φ b = some c) :
    ((l.set i b).filterMap φ).Perm (c :: l.filterMap φ) := by
  induction l generalizing i with
  | nil => simp at hi
  | cons x l ih =>
      cases i with
      | zero =>
          obtain rfl : x = a := by simpa using hi
          simp [ha, hb]
      | succ i =>
          have h := ih (i := i) (by simpa using hi)
          cases hx : φ x with
          | none => simpa [List.filterMap_cons, hx] using h
          | some y => simpa [List.filterMap_cons, hx] using (h.cons y).trans (.swap c y _)

/-- A value that is gone at the place leaves those of the other places. -/
theorem filterMap_perm_set {α β : Type} {l : List α} {i : Nat} {a b : α} {c : β}
    (φ : α → Option β) (hi : l[i]? = some a) (ha : φ a = some c) (hb : φ b = none) :
    (l.filterMap φ).Perm (c :: (l.set i b).filterMap φ) := by
  obtain ⟨hlt, hget⟩ := List.getElem?_eq_some_iff.1 hi
  have hback : (l.set i b).set i a = l := by
    rw [List.set_set, ← hget, List.set_getElem_self]
  have hperm := perm_filterMap_set (l := l.set i b) (i := i) (b := a) φ (by simp [hlt]) hb ha
  rwa [hback] at hperm

/-! ## What the steps of an acquisition leave alone -/

/-- The name that a thread asks for. -/
def Attempt.name? : Attempt → Option String
  | .idle => none
  | .clocked name _ _ => some name
  | .drawn name _ _ => some name

theorem Attempt.name?_eq_none_iff {a : Attempt} : a.name? = none ↔ a = .idle := by
  cases a <;> simp [name?]

namespace LockSystem

variable {s : LockSystem}

@[simp] theorem grants_step_read (s : LockSystem) (i : Nat) (name : String) (lease : Duration) :
    (s.step (.read i name lease)).grants = s.grants := by
  simp only [step]
  split <;> rfl

@[simp] theorem grants_step_draw (s : LockSystem) (i : Nat) :
    (s.step (.draw i)).grants = s.grants := by
  simp only [step, drawToken]
  repeat' split
  all_goals rfl

/-- A thread that enters the table is denied the lease or is granted it. -/
theorem step_enter_cases {i : Nat} {name : String} {now : Instant} {h : Holding}
    (hi : s.attempts i = .drawn name now h) :
    ((s.table.enter name now h).1 = .denied ∧ s.step (.enter i) = s.setAttempt i .idle) ∨
      ∃ tookOver, (s.table.enter name now h).1 = .granted tookOver ∧
        s.table.isHeld name now = false ∧
        s.step (.enter i) = (s.setAttempt i .idle).grant name h := by
  cases hheld : s.table.isHeld name now with
  | true =>
      refine .inl ⟨?_, step_enter_of_isHeld hi hheld⟩
      rw [LeaseTable.enter_of_isHeld hheld]
  | false =>
      obtain ⟨tookOver, henter⟩ := LeaseTable.enter_of_not_isHeld hheld h
      exact .inr ⟨tookOver, by rw [henter], rfl, step_enter_of_not_isHeld hi hheld⟩

end LockSystem

/-! ## A single fire -/

namespace FireStage

/-- What the lock has answered: whether the lease was granted. -/
def answer? : FireStage → Option Bool
  | .asking | .overflowed => none
  | .refused | .skipped => some false
  | .granted _ | .running _ _ | .ended _ _ _ | .settled _ | .returned _ => some true

/-- How often the body has begun. -/
def timesBegun : FireStage → Nat
  | .running _ _ | .ended _ _ _ | .settled _ | .returned _ => 1
  | .asking | .overflowed | .refused | .skipped | .granted _ => 0

/-- How often the body has ended. -/
def timesEnded : FireStage → Nat
  | .ended _ _ _ | .settled _ | .returned _ => 1
  | .asking | .overflowed | .refused | .skipped | .granted _ | .running _ _ => 0

end FireStage

namespace FireTask

/-- The name on which a fire asks for a lease. -/
def asks? (f : FireTask) : Option String :=
  match f.stage with
  | .asking => some f.job.name
  | _ => none

/-- The lease that a fire holds. -/
def lease? (f : FireTask) : Option Grant := f.stage.tenure?.map Tenure.grant

/-- The fire is a counted skip of a job. -/
def skips (name : String) (f : FireTask) : Bool :=
  match f.stage with
  | .skipped => f.job.name = name
  | _ => false

/-- What how far a fire is tells about it: what the lock answered, the name of its lease, and
how often its body has begun and ended. -/
structure Sound (f : FireTask) : Prop where
  answer : f.admission.map (fun a => decide (a ≠ .denied)) = f.stage.answer?
  named : ∀ t, f.stage.tenure? = some t → t.grant.name = f.job.name
  begun : f.begun = f.stage.timesBegun
  ended : f.ended = f.stage.timesEnded

end FireTask

/-! ## All fires -/

namespace FireSystem

variable {s₀ : Supervisor} {s : FireSystem} {i : Nat} {f : FireTask}

/-- The leases that the fires hold. -/
def holdings (s : FireSystem) : List Grant := s.fires.filterMap FireTask.lease?

/-- The invariant: the lock is one that moves can make, a fire asks as far as it is, every lease
that is not given back was taken elsewhere or belongs to one fire, every fire is sound, and every
skip is counted once. -/
structure Sound (s₀ : Supervisor) (s : FireSystem) : Prop where
  lock : s.lock.Reachable
  synced : s.Synced
  asks : ∀ i, (s.lock.attempts (asker i)).name? = s.fires[i]?.bind FireTask.asks?
  grants : s.lock.grants.Perm (s.taken ++ s.holdings)
  tasks : ∀ f ∈ s.fires, f.Sound
  skips : ∀ name, (s.supervisor.metrics.series name).skipped =
    (s₀.metrics.series name).skipped + s.fires.countP (FireTask.skips name)

theorem sound_start (s₀ : Supervisor) : (start s₀).Sound s₀ where
  lock := ⟨s₀.clock, [], rfl⟩
  synced := ⟨rfl, rfl⟩
  asks _ := rfl
  grants := .nil
  tasks _ h := by simp [start] at h
  skips _ := rfl

theorem asker_inj {i j : Nat} : asker i = asker j ↔ i = j := by
  simp only [asker]
  omega

theorem asker_ne (i j : Nat) : asker i + 1 ≠ asker j := by
  simp only [asker]
  omega

/-- A move that can be made by the lock leads to one that moves can make. -/
theorem reachable_step {l : LockSystem} (h : l.Reachable) (m : LockSystem.Move) :
    (l.step m).Reachable := by
  obtain ⟨now, moves, rfl⟩ := h
  exact ⟨now, moves ++ [m], by simp [LockSystem.run]⟩

/-- A step of the lock keeps the invariant if the fires and the leases taken elsewhere follow
it. -/
theorem Sound.change (hs : s.Sound s₀) (m : LockSystem.Move) {fires : List FireTask}
    {taken : List Grant} (turns : Nat)
    (hasks : ∀ i, ((s.lock.step m).attempts (asker i)).name? = fires[i]?.bind FireTask.asks?)
    (hgrants : (s.lock.step m).grants.Perm (taken ++ fires.filterMap FireTask.lease?))
    (htasks : ∀ f ∈ fires, f.Sound)
    (hskips : ∀ name, fires.countP (FireTask.skips name) =
      s.fires.countP (FireTask.skips name)) :
    ({ s.withLock (s.lock.step m) with fires := fires, taken := taken, turns := turns } :
      FireSystem).Sound s₀ where
  lock := reachable_step hs.lock m
  synced := ⟨rfl, rfl⟩
  asks := hasks
  grants := hgrants
  tasks := htasks
  skips name := by rw [hskips name]; exact hs.skips name

/-- Code that keeps leases, clock and skips keeps the invariant. -/
theorem Sound.modify (hs : s.Sound s₀) {g : Supervisor → Supervisor}
    (hg : s.supervisor.Keeps (g s.supervisor)) : (s.modify g).Sound s₀ :=
  { hs with
    synced := ⟨hg.leases.trans hs.synced.leases, hg.clock.trans hs.synced.clock⟩
    skips := fun name => (hg.skipped name).trans (hs.skips name) }

/-! ## Entering the table -/

/-- The system with other entries in the journal. -/
def setJournal (journal : Array Log.Entry) (s : FireSystem) : FireSystem :=
  s.modify fun v => { v with journal := journal }

theorem Sound.setJournal (hs : s.Sound s₀) (journal : Array Log.Entry) :
    (s.setJournal journal).Sound s₀ :=
  hs.modify (Supervisor.keeps_of_eq rfl rfl rfl)

/-- A thread that enters the table takes the step of the lock; at most something is logged. -/
theorem enterTable_eq (s : FireSystem) (thread : Nat) (name : String) (now : Instant)
    (h : Holding) :
    ∃ journal, s.enterTable thread name now h = ((s.lock.table.enter name now h).1,
      (s.withLock (s.lock.step (.enter thread))).setJournal journal) := by
  simp only [enterTable]
  split
  · exact ⟨_, rfl⟩
  · exact ⟨s.supervisor.journal, rfl⟩

variable {name : String} {now : Instant} {h : Holding}

/-- A fire that enters the table is refused, or it is granted the lease and holds it. -/
theorem enter_of_drawn (ha : s.lock.attempts (asker i) = .drawn name now h) (f : FireTask) :
    ∃ journal, let s' := (s.withLock (s.lock.step (.enter (asker i)))).setJournal journal
      ((s.lock.table.enter name now h).1 = .denied ∧
          s.lock.step (.enter (asker i)) = s.lock.setAttempt (asker i) .idle ∧
          s.enter i f = s'.setFire i { f with stage := .refused, admission := some .denied }) ∨
        ∃ tookOver, (s.lock.table.enter name now h).1 = .granted tookOver ∧
          s.lock.table.isHeld name now = false ∧
          s.lock.step (.enter (asker i)) = (s.lock.setAttempt (asker i) .idle).grant name h ∧
          s.enter i f = { s' with turns := s.turns + 1 }.setFire i
            { f with
              stage := .granted ⟨⟨name, h.token, h.expiresAt⟩, s.lock.clock, s.turns⟩
              admission := some (.granted tookOver) } := by
  obtain ⟨journal, htable⟩ := s.enterTable_eq (asker i) name now h
  refine ⟨journal, ?_⟩
  rcases LockSystem.step_enter_cases ha with ⟨hdenied, hstep⟩ | ⟨tookOver, hgranted, hfree, hstep⟩
  · refine .inl ⟨hdenied, hstep, ?_⟩
    simp only [enter, ha, htable, hdenied]
  · refine .inr ⟨tookOver, hgranted, hfree, hstep, ?_⟩
    simp only [enter, ha, htable, hgranted]
    rfl

/-- Somebody else who enters the table is refused, or takes a lease. -/
theorem elsewhere_enter_of_drawn (ha : s.lock.attempts (asker i + 1) = .drawn name now h) :
    ∃ journal, let s' := (s.withLock (s.lock.step (.enter (asker i + 1)))).setJournal journal
      (s.lock.step (.enter (asker i + 1)) = s.lock.setAttempt (asker i + 1) .idle ∧
          s.elsewhere (.enter i) = s') ∨
        s.lock.step (.enter (asker i + 1)) = (s.lock.setAttempt (asker i + 1) .idle).grant name h ∧
          s.elsewhere (.enter i) =
            { s' with taken := ⟨name, h.token, h.expiresAt⟩ :: s.taken } := by
  obtain ⟨journal, htable⟩ := s.enterTable_eq (asker i + 1) name now h
  refine ⟨journal, ?_⟩
  rcases LockSystem.step_enter_cases ha with ⟨hdenied, hstep⟩ | ⟨tookOver, hgranted, -, hstep⟩
  · refine .inl ⟨hstep, ?_⟩
    simp only [elsewhere, ha, htable, hdenied]
  · refine .inr ⟨hstep, ?_⟩
    simp only [elsewhere, ha, htable, hgranted]
    rfl

/-! ## Steps of a single fire -/

theorem mem_of_getElem? (hi : s.fires[i]? = some f) : f ∈ s.fires := List.mem_of_getElem? hi

/-- A fire is changed to a sound one. -/
theorem tasks_set (hs : s.Sound s₀) (i : Nat) {f' : FireTask} (hf' : f'.Sound) :
    ∀ g ∈ s.fires.set i f', g.Sound := by
  intro g hg
  rcases List.mem_or_eq_of_mem_set hg with hg | rfl
  · exact hs.tasks g hg
  · exact hf'

/-- If no other thread has moved, the fires ask as far as they are. -/
theorem asks_set (hs : s.Sound s₀) (hi : s.fires[i]? = some f) {l : LockSystem} {f' : FireTask}
    (hne : ∀ j, j ≠ i → l.attempts (asker j) = s.lock.attempts (asker j))
    (heq : (l.attempts (asker i)).name? = f'.asks?) :
    ∀ j, (l.attempts (asker j)).name? = (s.fires.set i f')[j]?.bind FireTask.asks? := by
  intro j
  by_cases hj : j = i
  · subst hj
    have hlt : j < s.fires.length := (List.getElem?_eq_some_iff.1 hi).1
    simp [heq, hlt]
  · rw [hne j hj, List.getElem?_set_ne (Ne.symm hj)]
    exact hs.asks j

/-- If the fire keeps its lease, every lease belongs to one of them as before. -/
theorem Sound.grants_set (hs : s.Sound s₀) (hi : s.fires[i]? = some f) {f' : FireTask}
    (h : f'.lease? = f.lease?) :
    s.lock.grants.Perm (s.taken ++ (s.fires.set i f').filterMap FireTask.lease?) := by
  rw [filterMap_set_of_eq FireTask.lease? hi h]
  exact hs.grants

theorem countP_set_of_eq {p : FireTask → Bool} (hi : s.fires[i]? = some f) {f' : FireTask}
    (h : p f' = p f) : (s.fires.set i f').countP p = s.fires.countP p := by
  obtain ⟨hlt, hget⟩ := List.getElem?_eq_some_iff.1 hi
  rw [List.countP_set hlt, hget, h]
  split
  · rename_i hp
    have hpos : 0 < s.fires.countP p := List.countP_pos_iff.2 ⟨f, mem_of_getElem? hi, hp⟩
    omega
  · rfl

/-- A fire takes a step that changes neither its lease nor what it asks for nor its skip. -/
theorem Sound.setFire (hs : s.Sound s₀) (hi : s.fires[i]? = some f) {f' : FireTask}
    (hf' : f'.Sound) (hasks : f'.asks? = f.asks?) (hlease : f'.lease? = f.lease?)
    (hskips : ∀ name, f'.skips name = f.skips name) : (s.setFire i f').Sound s₀ where
  lock := hs.lock
  synced := ⟨hs.synced.leases, hs.synced.clock⟩
  asks := asks_set hs hi (fun _ _ => rfl) <| by
    have hname := hs.asks i
    rw [hi, Option.bind_some] at hname
    exact hname.trans hasks.symm
  grants := hs.grants_set hi hlease
  tasks := tasks_set hs i hf'
  skips name := by
    rw [FireSystem.setFire, countP_set_of_eq hi (hskips name)]
    exact hs.skips name

/-- A fire takes a step with the lock. -/
theorem Sound.changeOwn (hs : s.Sound s₀) (hi : s.fires[i]? = some f) {m : LockSystem.Move}
    (hm : ∀ j, m.thread? = some (asker j) → j = i) (turns : Nat) {f' : FireTask}
    (hf' : f'.Sound) (hasks : ((s.lock.step m).attempts (asker i)).name? = f'.asks?)
    (hgrants : (s.lock.step m).grants.Perm
      (s.taken ++ (s.fires.set i f').filterMap FireTask.lease?))
    (hskips : ∀ name, f'.skips name = f.skips name) :
    ({ s.withLock (s.lock.step m) with fires := s.fires.set i f', turns := turns } :
      FireSystem).Sound s₀ :=
  hs.change m turns
    (asks_set hs hi (fun j hj => LockSystem.attempts_step fun h => hj (hm j h)) hasks)
    hgrants (tasks_set hs i hf') fun name => countP_set_of_eq hi (hskips name)

/-- Somebody else takes a step with the lock. -/
theorem Sound.changeElsewhere (hs : s.Sound s₀) {m : LockSystem.Move}
    (hm : ∀ j, m.thread? ≠ some (asker j)) (taken : List Grant)
    (hgrants : (s.lock.step m).grants.Perm (taken ++ s.holdings)) :
    ({ s.withLock (s.lock.step m) with taken := taken } : FireSystem).Sound s₀ :=
  hs.change m s.turns (fun j => by rw [LockSystem.attempts_step (hm j)]; exact hs.asks j)
    hgrants hs.tasks fun _ => rfl

/-- The worker of a fire takes a step. -/
theorem Sound.work {α : Type} (hs : s.Sound s₀) (hi : s.fires[i]? = some f)
    {g : Supervisor → α × Supervisor} (hg : ∀ s : Supervisor, s.Keeps (g s).2)
    {next : α → FireTask} (hnext : ∀ a, (next a).Sound) (hasks : ∀ a, (next a).asks? = f.asks?)
    (hlease : ∀ a, (next a).lease? = f.lease?)
    (hskips : ∀ a name, (next a).skips name = f.skips name) : (s.work i f g next).Sound s₀ := by
  have hkeeps := s.supervisor.keeps_onWorker f.thread hg
  rcases h : s.supervisor.onWorker f.thread g with ⟨a, thread, supervisor⟩
  rw [h] at hkeeps
  simp only [FireSystem.work, h]
  exact (hs.modify (g := fun _ => supervisor) hkeeps).setFire hi
    ⟨(hnext a).answer, (hnext a).named, (hnext a).begun, (hnext a).ended⟩
    (hasks a) (hlease a) (hskips a)

/-! ## The moves -/

/-- A job is fired. -/
theorem Sound.ask (hs : s.Sound s₀) (job : Descriptor) (lease : Duration) (thread : Thread) :
    (s.step (.ask job lease thread)).Sound s₀ := by
  have hidle : s.lock.attempts (asker s.fires.length) = .idle := by
    simpa [Attempt.name?_eq_none_iff] using hs.asks s.fires.length
  refine hs.change (.read (asker s.fires.length) job.name lease) s.turns (fun i => ?_) ?_ ?_
    fun name => ?_
  · by_cases hi : i = s.fires.length
    · subst hi
      simp [LockSystem.step_read hidle, Attempt.name?, FireTask.asks?]
    · rw [LockSystem.attempts_step (by simp [LockSystem.Move.thread?, asker_inj, Ne.symm hi]),
        hs.asks i]
      rcases Nat.lt_or_gt_of_ne hi with hlt | hgt
      · rw [List.getElem?_append_left hlt]
      · have hlast : s.fires.length + 1 ≤ i := hgt
        rw [List.getElem?_eq_none (Nat.le_of_lt hgt),
          List.getElem?_eq_none (by simpa using hlast)]
  · rw [LockSystem.grants_step_read, List.filterMap_append]
    change s.lock.grants.Perm (s.taken ++ (s.holdings ++ []))
    rw [List.append_nil]
    exact hs.grants
  · intro f hf
    rcases List.mem_append.1 hf with hf | hf
    · exact hs.tasks f hf
    · obtain rfl := List.mem_singleton.1 hf
      exact ⟨rfl, fun t ht => by simp [FireStage.tenure?] at ht, rfl, rfl⟩
  · simp [FireTask.skips]

/-- A fire draws its token. -/
theorem Sound.draw (hs : s.Sound s₀) (hi : s.fires[i]? = some f) (hf : f.stage = .asking) :
    (s.draw i f).Sound s₀ := by
  have hown : ∀ j, (LockSystem.Move.draw (asker i)).thread? = some (asker j) → j = i :=
    fun j h => (asker_inj.1 (Option.some.inj h)).symm
  have htask := hs.tasks f (mem_of_getElem? hi)
  have hname := hs.asks i
  rw [hi, Option.bind_some] at hname
  cases ha : s.lock.attempts (asker i) with
  | idle => simpa [FireSystem.draw, ha] using hs
  | drawn _ _ _ => simpa [FireSystem.draw, ha] using hs
  | clocked name lease now =>
      have hstep := LockSystem.step_draw ha
      cases hl : now.later? lease with
      | some expiresAt =>
          rw [hl] at hstep
          have hsame : s.fires.set i f = s.fires := by
            obtain ⟨hlt, hget⟩ := List.getElem?_eq_some_iff.1 hi
            rw [← hget, List.set_getElem_self]
          have h := hs.changeOwn hi hown s.turns htask
            (by rw [← hname, hstep, ha]; simp [Attempt.name?])
            (by rw [LockSystem.grants_step_draw, hsame]; exact hs.grants) fun _ => rfl
          rw [hsame] at h
          simp only [FireSystem.draw, ha, hl]
          exact h
      | none =>
          rw [hl] at hstep
          obtain ⟨job, thread, stage, admission, awaited, begun, ended⟩ := f
          obtain rfl : stage = .asking := hf
          simp only [FireSystem.draw, ha, hl]
          refine hs.changeOwn hi hown s.turns
            ⟨htask.answer, (fun _ h => by cases h), htask.begun, htask.ended⟩ ?_ ?_ fun _ => rfl
          · rw [hstep]
            simp [Attempt.name?, FireTask.asks?]
          · rw [LockSystem.grants_step_draw]
            exact hs.grants_set hi rfl

/-- A fire enters the table. -/
theorem Sound.enter (hs : s.Sound s₀) (hi : s.fires[i]? = some f) (hf : f.stage = .asking) :
    (s.enter i f).Sound s₀ := by
  have hown : ∀ j, (LockSystem.Move.enter (asker i)).thread? = some (asker j) → j = i :=
    fun j h => (asker_inj.1 (Option.some.inj h)).symm
  have htask := hs.tasks f (mem_of_getElem? hi)
  have hname := hs.asks i
  rw [hi, Option.bind_some] at hname
  obtain ⟨job, thread, stage, admission, awaited, begun, ended⟩ := f
  obtain rfl : stage = .asking := hf
  cases ha : s.lock.attempts (asker i) with
  | idle => simpa [FireSystem.enter, ha] using hs
  | clocked _ _ _ => simpa [FireSystem.enter, ha] using hs
  | drawn name now h =>
      obtain rfl : name = job.name := by
        rw [ha] at hname
        exact Option.some.inj hname
      obtain ⟨journal, ⟨-, hstep, henter⟩ | ⟨tookOver, -, -, hstep, henter⟩⟩ := enter_of_drawn ha
        ⟨job, thread, .asking, admission, awaited, begun, ended⟩
      · have hentered : ({ s.withLock (s.lock.step (.enter (asker i))) with
            fires := s.fires.set i
              ⟨job, thread, .refused, some .denied, awaited, begun, ended⟩ } :
            FireSystem).Sound s₀ := by
          refine hs.changeOwn hi hown s.turns
            ⟨rfl, (fun _ h => by cases h), htask.begun, htask.ended⟩ ?_ ?_ fun _ => rfl
          · rw [hstep]
            simp [Attempt.name?, FireTask.asks?]
          · rw [hstep]
            exact hs.grants_set hi rfl
        rw [henter]
        exact hentered.setJournal journal
      · let t : Tenure := ⟨⟨job.name, h.token, h.expiresAt⟩, s.lock.clock, s.turns⟩
        let f' : FireTask :=
          ⟨job, thread, .granted t, some (.granted tookOver), awaited, begun, ended⟩
        have hentered : ({ s.withLock (s.lock.step (.enter (asker i))) with
            fires := s.fires.set i f', turns := s.turns + 1 } : FireSystem).Sound s₀ := by
          refine hs.changeOwn hi hown (s.turns + 1)
            ⟨rfl, fun u hu => ?_, htask.begun, htask.ended⟩ ?_ ?_ fun _ => rfl
          · obtain rfl := Option.some.inj hu
            rfl
          · rw [hstep]
            simp [LockSystem.grant, Attempt.name?, FireTask.asks?, f']
          · rw [hstep]
            exact (hs.grants.cons t.grant).trans <| List.perm_middle.symm.trans <|
              (perm_filterMap_set FireTask.lease? hi rfl rfl).symm.append_left s.taken
        rw [henter]
        exact hentered.setJournal journal

/-- A refused fire counts its skip. -/
theorem Sound.skip (hs : s.Sound s₀) (hi : s.fires[i]? = some f) (hf : f.stage = .refused) :
    ((s.modify (·.skipRun f.job.name)).setFire i { f with stage := .skipped }).Sound s₀ := by
  have htask := hs.tasks f (mem_of_getElem? hi)
  have hname := hs.asks i
  rw [hi, Option.bind_some] at hname
  obtain ⟨job, thread, stage, admission, awaited, begun, ended⟩ := f
  obtain rfl : stage = .refused := hf
  let f' : FireTask := ⟨job, thread, .skipped, admission, awaited, begun, ended⟩
  refine ⟨hs.lock, ⟨hs.synced.leases, hs.synced.clock⟩, asks_set hs hi (fun _ _ => rfl) hname,
    hs.grants_set hi rfl,
    tasks_set hs i ⟨htask.answer, (fun _ h => by cases h), htask.begun, htask.ended⟩,
    fun name => ?_⟩
  obtain ⟨hlt, hget⟩ := List.getElem?_eq_some_iff.1 hi
  have hfires : (s.fires.set i f').countP (FireTask.skips name) =
      s.fires.countP (FireTask.skips name) + if job.name = name then 1 else 0 := by
    simp [List.countP_set hlt, hget, FireTask.skips, f']
  have hcount := Metrics.skipped_recordSkipped s.supervisor.metrics job.name name
  rw [hs.skips name, Nat.add_assoc, ← hfires] at hcount
  exact hcount

/-- A settled fire gives its lease back. -/
theorem Sound.giveBack (hs : s.Sound s₀) (hi : s.fires[i]? = some f) {t : Tenure}
    (hf : f.stage = .settled t) :
    ((s.withLock (s.lock.step (.drop t.grant))).setFire i
      { f with stage := .returned t }).Sound s₀ := by
  have htask := hs.tasks f (mem_of_getElem? hi)
  have hname := hs.asks i
  rw [hi, Option.bind_some] at hname
  obtain ⟨job, thread, stage, admission, awaited, begun, ended⟩ := f
  obtain rfl : stage = .settled t := hf
  let f' : FireTask := ⟨job, thread, .returned t, admission, awaited, begun, ended⟩
  have hgrants : s.lock.grants.Perm
      (t.grant :: (s.taken ++ (s.fires.set i f').filterMap FireTask.lease?)) :=
    hs.grants.trans <| ((filterMap_perm_set FireTask.lease? hi rfl rfl).append_left s.taken).trans
      List.perm_middle
  have hstep := LockSystem.step_drop (hgrants.mem_iff.2 List.mem_cons_self)
  refine hs.changeOwn hi (m := .drop t.grant) (fun _ h => by cases h) s.turns
    ⟨htask.answer, (fun _ h => by cases h), htask.begun, htask.ended⟩ ?_ ?_ fun _ => rfl
  · rw [hstep]
    exact hname
  · rw [hstep]
    have herase := hgrants.erase t.grant
    rwa [List.erase_cons_head] at herase

/-- Every step of a fire keeps the invariant. -/
theorem Sound.advances (hs : s.Sound s₀) (hi : s.fires[i]? = some f) {s' : FireSystem}
    (h : s.Advances i f s') : s'.Sound s₀ := by
  have htask := hs.tasks f (mem_of_getElem? hi)
  cases h with
  | stay => exact hs
  | draw hf => exact hs.draw hi hf
  | enter hf => exact hs.enter hi hf
  | skip hf => exact hs.skip hi hf
  | giveBack hf => exact hs.giveBack hi hf
  | begin hf =>
      obtain ⟨job, thread, stage, admission, awaited, begun, ended⟩ := f
      obtain rfl : stage = _ := hf
      exact hs.work hi (Run.keeps_begin job)
        (fun _ => ⟨htask.answer, htask.named, congrArg (· + 1) htask.begun, htask.ended⟩)
        (fun _ => rfl) (fun _ => rfl) fun _ _ => rfl
  | act hf d =>
      exact hs.work hi d.keeps (fun _ => htask) (fun _ => rfl) (fun _ => rfl) fun _ _ => rfl
  | finish hf e =>
      obtain ⟨job, thread, stage, admission, awaited, begun, ended⟩ := f
      obtain rfl : stage = _ := hf
      exact hs.setFire hi
        ⟨htask.answer, htask.named, htask.begun, congrArg (· + 1) htask.ended⟩ rfl rfl
        fun _ => rfl
  | settle hf =>
      obtain ⟨job, thread, stage, admission, awaited, begun, ended⟩ := f
      obtain rfl : stage = _ := hf
      exact hs.work hi (Run.keeps_settle _ _)
        (fun _ => ⟨htask.answer, htask.named, htask.begun, htask.ended⟩)
        (fun _ => rfl) (fun _ => rfl) fun _ _ => rfl
  | abandon _ =>
      exact hs.setFire hi ⟨htask.answer, htask.named, htask.begun, htask.ended⟩ rfl rfl
        fun _ => rfl

theorem Sound.own (hs : s.Sound s₀) (i : Nat) (m : FireMove) : (s.step (.own i m)).Sound s₀ := by
  rcases s.step_own_cases i m with h | ⟨f, hi, h⟩
  · rw [h]
    exact hs
  · exact hs.advances hi h

/-- Every step that somebody else takes with the lock keeps the invariant. -/
theorem Sound.elsewhere (hs : s.Sound s₀) (m : LockSystem.Move) :
    (s.elsewhere m).Sound s₀ := by
  have hother : ∀ i j, some (asker i + 1) ≠ some (asker j) :=
    fun i j h => asker_ne i j (Option.some.inj h)
  cases m with
  | pass d => exact hs.changeElsewhere (m := .pass d) (fun _ h => by cases h) s.taken hs.grants
  | read i name lease =>
      exact hs.changeElsewhere (m := .read (asker i + 1) name lease) (hother i) s.taken
        (by rw [LockSystem.grants_step_read]; exact hs.grants)
  | draw i =>
      exact hs.changeElsewhere (m := .draw (asker i + 1)) (hother i) s.taken
        (by rw [LockSystem.grants_step_draw]; exact hs.grants)
  | enter i =>
      cases ha : s.lock.attempts (asker i + 1) with
      | idle => simpa [FireSystem.elsewhere, ha] using hs
      | clocked _ _ _ => simpa [FireSystem.elsewhere, ha] using hs
      | drawn name now h =>
          obtain ⟨journal, ⟨hstep, helse⟩ | ⟨hstep, helse⟩⟩ := elsewhere_enter_of_drawn ha
          · have hentered := hs.changeElsewhere (m := .enter (asker i + 1)) (hother i) s.taken
              (by rw [hstep]; exact hs.grants)
            rw [helse]
            exact hentered.setJournal journal
          · have hentered := hs.changeElsewhere (m := .enter (asker i + 1)) (hother i)
              (⟨name, h.token, h.expiresAt⟩ :: s.taken)
              (by rw [hstep]; exact hs.grants.cons ⟨name, h.token, h.expiresAt⟩)
            rw [helse]
            exact hentered.setJournal journal
  | drop g =>
      simp only [FireSystem.elsewhere]
      split
      · rename_i hg
        have hmem : g ∈ s.lock.grants := hs.grants.mem_iff.2 (List.mem_append_left _ hg)
        refine hs.changeElsewhere (m := .drop g) (fun _ h => by cases h) (s.taken.erase g) ?_
        rw [LockSystem.step_drop hmem, ← List.erase_append_left _ hg]
        exact hs.grants.erase g
      · exact hs

/-- Every move keeps the invariant. -/
theorem Sound.step (hs : s.Sound s₀) (m : Move) : (s.step m).Sound s₀ := by
  cases m with
  | ask job lease thread => exact hs.ask job lease thread
  | own i m => exact hs.own i m
  | elsewhere m => exact hs.elsewhere m
  | other d => exact hs.modify (d.keeps s.supervisor)

/-- **Moves in any order keep the invariant.** -/
theorem Sound.run (hs : s.Sound s₀) (moves : List Move) : (s.run moves).Sound s₀ := by
  induction moves generalizing s with
  | nil => exact hs
  | cons m moves ih => exact ih (hs.step m)

end FireSystem

end JobSupervisor
