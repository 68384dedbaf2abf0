import JobSupervisor.Proofs.DaemonStart
import JobSupervisor.Proofs.RunFrame

/-!
# The loops of the daemon

A tick asks for a lease, and only a lease that is too long for the clock ends the loop
abnormally, for the loops are woken in the order in which they are due, so that no tick is late.
The clock does not go back, so if the lease fits at the end of a stretch of time, it did at every
tick before, and no loop was lost.

## Main definitions

* `LockPolicy.Overflows` — a lease is too long for the clock.
* `Fire.request_overflow_iff` — when asking for a lease fails.
* `Session.Advances` — code that lets time pass and leaves the loops alone.
* `Session.nextDue?_spec` — which loop is woken first.
* `Session.Steady` — the loops belong to a scheduler, and are lost only if its lease is too long.
-/

namespace JobSupervisor

/-! ## Leases that are too long -/

theorem Instant.later?_eq_none_iff {i : Instant} {d : Duration} :
    i.later? d = none ↔ Instant.horizon * 1000000000 ≤ (i.after d).nanos := by
  simp [Instant.later?]

/-- A lease of a lock reaches beyond what the clock can hold. -/
def LockPolicy.Overflows (p : LockPolicy) (lease : Duration) (now : Instant) : Prop :=
  p ≠ .unlocked ∧ Instant.horizon * 1000000000 ≤ (now.after lease).nanos

/-- A lease that is too long stays so. -/
theorem LockPolicy.Overflows.mono {p : LockPolicy} {lease : Duration} {i j : Instant}
    (h : p.Overflows lease i) (hle : i.nanos ≤ j.nanos) : p.Overflows lease j :=
  ⟨h.1, Nat.le_trans h.2 (Nat.add_le_add_right hle _)⟩

theorem Supervisor.acquireFromTable_overflow_iff (s : Supervisor) (name : String)
    (lease : Duration) : (s.acquireFromTable name lease).1 = .overflow ↔
      s.clock.later? lease = none := by
  simp only [acquireFromTable, LeaseTable.tryAcquire]
  cases s.clock.later? lease with
  | none => simp
  | some expiresAt =>
      simp only [reduceCtorEq, iff_false]
      repeat' split
      all_goals simp_all

/-- Asking a lock fails exactly if the lease is too long. -/
theorem LockPolicy.tryAcquire_overflow_iff (p : LockPolicy) (name : String) (lease : Duration)
    (s : Supervisor) : (p.tryAcquire name lease s).1 = .overflow ↔ p.Overflows lease s.clock := by
  have htable := s.acquireFromTable_overflow_iff name lease
  rw [Instant.later?_eq_none_iff] at htable
  cases p with
  | unlocked => simp [tryAcquire, Overflows]
  | table | faultyReturn =>
      simp only [tryAcquire, Overflows, ← htable]
      split <;> simp_all

namespace Fire

theorem request_overflow_iff (p : LockPolicy) (lease : Duration) (name : String)
    (s : Supervisor) : (request p lease name s).1 = .overflow ↔ p.Overflows lease s.clock := by
  rw [← p.tryAcquire_overflow_iff name]
  simp only [request]
  split <;> simp_all

/-- A fire fails exactly if the lease is too long, and then the body is not run. -/
theorem fire_overflow_iff {σ β : Type} (view : σ → Supervisor) (put : Supervisor → σ → σ)
    (p : LockPolicy) (lease : Duration) (job : ScheduledJob β) (body : β → σ → Ending Unit × σ)
    (x : σ) : (fire view put p lease job body x).1 = .overflow ↔
      p.Overflows lease (view x).clock := by
  rw [← request_overflow_iff p lease job.descriptor.name]
  simp only [fire]
  split <;> simp_all

end Fire

namespace TriggerLoop

variable {β σ : Type}

/-- A loop that is woken is lost exactly if it was lost before, or if it takes a tick and is lost
over it or the lease is too long. -/
theorem wake_panicked_iff (view : σ → Supervisor) (put : Supervisor → σ → σ)
    (body : β → σ → Ending Unit × σ) (now : Instant) (l : TriggerLoop β) (x : σ) :
    (l.wake view put body now x).1.phase = .panicked ↔
      l.phase = .panicked ∨ l.LostAt now ∨
        (∃ due, l.phase = .ticking due) ∧ l.policy.Overflows l.lease (view x).clock := by
  have hfire := Fire.fire_overflow_iff view put l.policy l.lease l.job body x
  cases hphase : l.phase with
  | delaying due => simp [wake, hphase, endDelay, LostAt]
  | exited => simp [wake, hphase, LostAt]
  | panicked => simp [wake, hphase]
  | ticking due =>
      cases hnext : Phase.nextTick? due now l.job.interval with
      | none => simp [wake, hphase, hnext, lose, LostAt]
      | some next =>
          simp only [wake, hphase, hnext, ticked, lose, LostAt]
          split <;> simp_all

/-- A loop is not lost over a tick that comes when it is due. -/
theorem not_lostAt_of_le {l : TriggerLoop β} {now : Instant}
    (h : ∀ due, l.phase.due? = some due → now.nanos ≤ due.nanos) : ¬ l.LostAt now := by
  rintro ⟨due, hphase, hnone⟩
  have hle := h due (by simp [hphase, Phase.due?])
  rw [Phase.nextTick?_of_le hle] at hnone
  cases hnone

/-- A loop that is woken when it is due waits for no instant that has passed. -/
theorem le_of_due?_wake (view : σ → Supervisor) (put : Supervisor → σ → σ)
    (body : β → σ → Ending Unit × σ) {now : Instant} {l : TriggerLoop β}
    (h : ∀ due, l.phase.due? = some due → due = now) (x : σ) {next : Instant}
    (hnext : (l.wake view put body now x).1.phase.due? = some next) : now.nanos ≤ next.nanos := by
  cases hphase : l.phase with
  | delaying due =>
      simp only [wake, hphase, endDelay, Phase.due?, Option.some.injEq] at hnext
      exact Nat.le_of_eq (congrArg Instant.nanos hnext)
  | exited => simp [wake, hphase, Phase.due?] at hnext
  | panicked => simp [wake, hphase, Phase.due?] at hnext
  | ticking due =>
      obtain rfl : due = now := h due (by simp [hphase, Phase.due?])
      simp only [wake, hphase, Phase.nextTick?_of_le (Nat.le_refl _), ticked, lose] at hnext
      split at hnext
      · simp [Phase.due?] at hnext
      all_goals
        obtain rfl := Option.some.inj hnext
        exact Phase.le_afterOrFar due l.job.interval

/-- A loop keeps its job, its lock and its lease. -/
theorem wake_same (view : σ → Supervisor) (put : Supervisor → σ → σ)
    (body : β → σ → Ending Unit × σ) (now : Instant) (l : TriggerLoop β) (x : σ) :
    (l.wake view put body now x).1.job = l.job ∧
      (l.wake view put body now x).1.policy = l.policy ∧
      (l.wake view put body now x).1.lease = l.lease := by
  simp only [wake, endDelay, ticked, lose]
  repeat' split
  all_goals exact ⟨rfl, rfl, rfl⟩

end TriggerLoop

namespace Session

/-! ## Code that lets time pass -/

/-- The loops and their time are as they were, and the clock has not gone back. -/
structure Advances (x y : Session) : Prop where
  loops : y.loops = x.loops
  now : y.now = x.now
  clock : x.supervisor.clock.nanos ≤ y.supervisor.clock.nanos

theorem Advances.refl (x : Session) : x.Advances x := ⟨rfl, rfl, Nat.le_refl _⟩

theorem Advances.trans {x y z : Session} (h : x.Advances y) (h' : y.Advances z) :
    x.Advances z :=
  ⟨h'.loops.trans h.loops, h'.now.trans h.now, Nat.le_trans h.clock h'.clock⟩

theorem advances_of_keeps {x : Session} {s : Supervisor} (h : x.supervisor.Keeps s) :
    x.Advances (x.withSupervisor s) :=
  ⟨rfl, rfl, Nat.le_of_eq (congrArg Instant.nanos h.clock).symm⟩

theorem advances_supervise {α : Type} (job : Descriptor) {body : Session → Ending α × Session}
    (hb : ∀ x : Session, x.Advances (body x).2) (x : Session) :
    x.Advances (supervise Session.supervisor withSupervisor job body x).2 :=
  (advances_of_keeps (Run.keeps_begin job x.supervisor)).trans <|
    (hb _).trans (advances_of_keeps (Run.keeps_settle _ _ _))

theorem advances_giveBack (l : Lease) (x : Session) : x.Advances (x.modify (·.giveBack l)) :=
  ⟨rfl, rfl, Nat.le_refl _⟩

theorem advances_complete {job : ScheduledJob Work} {lease : Lease}
    {body : Work → Session → Ending Unit × Session}
    (hb : ∀ x : Session, x.Advances (body job.body x).2) (x : Session) :
    x.Advances (Fire.complete Session.supervisor withSupervisor job lease body x) := by
  have hswap (y : Session) : y.Advances (y.withSupervisor y.supervisor.swapThreads) :=
    advances_of_keeps y.supervisor.keeps_swapThreads
  have hrun := ((hswap x).trans (advances_supervise job.descriptor hb _)).trans
    ((advances_giveBack lease _).trans (hswap _))
  simp only [Fire.complete]
  split
  · exact hrun.trans (advances_of_keeps (Supervisor.keeps_emit _ _))
  · exact hrun

/-- A fire lets time pass if its body does. -/
theorem advances_fire {p : LockPolicy} {lease : Duration} {job : ScheduledJob Work}
    {body : Work → Session → Ending Unit × Session}
    (hb : ∀ x : Session, x.Advances (body job.body x).2) (x : Session) :
    x.Advances (Fire.fire Session.supervisor withSupervisor p lease job body x).2 := by
  have hclock := (Fire.same_request p lease job.descriptor.name x.supervisor).clock
  have hasked : x.Advances
      (x.withSupervisor (Fire.request p lease job.descriptor.name x.supervisor).2) :=
    ⟨rfl, rfl, Nat.le_of_eq (congrArg Instant.nanos hclock).symm⟩
  simp only [Fire.fire]
  split <;> rename_i hrequest <;> rw [hrequest] at hasked
  · exact hasked
  · exact hasked
  · exact hasked.trans (advances_complete hb _)

theorem clock_command_le (program : String) (args : List String) (s : Supervisor) :
    s.clock.nanos ≤ (Command.run program args s).2.clock.nanos := by
  simp only [Command.run, Command.runOn]
  cases Host.Program.run program args with
  | error e => exact Nat.le_refl _
  | ok r => exact Nat.le_add_right _ _

/-- The body of a configured job lets time pass. -/
theorem advances_work (name : String) (j : Config.JobEntry) (x : Session) :
    x.Advances (work name (.configured j) x).2 := by
  have hbody : x.supervisor.clock.nanos ≤ (j.body x.supervisor).2.clock.nanos := by
    simp only [Config.JobEntry.body]
    split
    · exact clock_command_le _ _ _
    · exact Nat.le_refl _
  refine ⟨rfl, rfl, Nat.le_trans hbody ?_⟩
  exact Nat.le_trans (Nat.le_add_right _ _) (Nat.le_add_right _ _)

/-! ## Loops that are lost only over their lease -/

/-- A loop belongs to a scheduler, waits for no instant that has passed, and is lost only if the
lease of the scheduler is too long for the clock. -/
structure RunningLoop.Steady (c : Scheduler Work) (clock now : Instant) (l : RunningLoop) :
    Prop where
  job : l.loop.job ∈ c.jobs
  policy : l.loop.policy = c.policy
  lease : l.loop.lease = c.lease
  timely : ∀ due, l.loop.phase.due? = some due → now.nanos ≤ due.nanos
  lost : l.loop.phase = .panicked → c.policy.Overflows c.lease clock

/-- Every loop belongs to the scheduler, is in time, and is lost only over its lease. -/
def Steady (c : Scheduler Work) (x : Session) : Prop :=
  ∀ l ∈ x.loops, l.Steady c x.supervisor.clock x.now

variable {c : Scheduler Work} {x : Session}

theorem RunningLoop.Steady.mono {l : RunningLoop} {i j now : Instant} (h : l.Steady c i now)
    (hle : i.nanos ≤ j.nanos) : l.Steady c j now :=
  { h with lost := fun hp => (h.lost hp).mono hle }

theorem RunningLoop.Steady.stop {l : RunningLoop} {clock now : Instant} (h : l.Steady c clock now) :
    ({ l with loop := l.loop.stop.1 } : RunningLoop).Steady c clock now := by
  have hexited : ({ l with loop := { l.loop with phase := .exited } } : RunningLoop).Steady c
      clock now :=
    { h with
      timely := fun due hdue => by simp [Phase.due?] at hdue
      lost := fun hp => by simp at hp }
  simp only [TriggerLoop.stop]
  split
  · exact hexited
  · exact hexited
  · exact h
  · exact h

theorem Steady.advances (h : x.Steady c) {y : Session} (hadv : x.Advances y) : y.Steady c := by
  intro l hl
  rw [hadv.loops] at hl
  rw [hadv.now]
  exact (h l hl).mono hadv.clock

/-! ## Hearing of the shutdown -/

theorem advances_hear (l : RunningLoop) (x : Session) :
    x.Advances (hear l x).2 ∧ (hear l x).2.supervisor.clock = x.supervisor.clock := by
  simp only [hear]
  repeat' split
  all_goals exact ⟨⟨rfl, rfl, Nat.le_refl _⟩, rfl⟩

theorem steady_hear {l : RunningLoop} {clock now : Instant} (h : l.Steady c clock now)
    (x : Session) : (hear l x).1.Steady c clock now := by
  simp only [hear]
  repeat' split
  all_goals first | exact h | exact h.stop

theorem steady_hearAll {ls : List RunningLoop} {clock now : Instant}
    (h : ∀ l ∈ ls, l.Steady c clock now) (listens : RunningLoop → Bool) (x : Session) :
    (∀ l ∈ (hearAll listens ls x).1, l.Steady c clock now) ∧
      (hearAll listens ls x).2.supervisor.clock = x.supervisor.clock ∧
      (hearAll listens ls x).2.now = x.now := by
  induction ls generalizing x with
  | nil => exact ⟨by simp [hearAll], rfl, rfl⟩
  | cons l ls ih =>
      obtain ⟨hl, hls⟩ := List.forall_mem_cons.1 h
      simp only [hearAll]
      split
      · obtain ⟨hadv, hclock⟩ := advances_hear l x
        obtain ⟨hrest, hclocks, hnow⟩ := ih hls (hear l x).2
        exact ⟨List.forall_mem_cons.2 ⟨steady_hear hl x, hrest⟩, hclocks.trans hclock,
          hnow.trans hadv.now⟩
      · obtain ⟨hrest, hsame⟩ := ih hls x
        exact ⟨List.forall_mem_cons.2 ⟨hl, hrest⟩, hsame⟩

/-- Loops that hear of their shutdown are not lost. -/
theorem Steady.react (h : x.Steady c) : x.react.Steady c := by
  obtain ⟨hloops, hclock, hnow⟩ := steady_hearAll h (fun _ => true) x
  intro l hl
  rw [show x.react.supervisor.clock = x.supervisor.clock from hclock,
    show x.react.now = x.now from hnow]
  exact hloops l hl

theorem Steady.reactBetween (h : x.Steady c) : x.reactBetween.Steady c := by
  obtain ⟨hloops, hclock, hnow⟩ := steady_hearAll h (fun l => !l.loop.phase.isDue x.now) x
  intro l hl
  rw [show x.reactBetween.supervisor.clock = x.supervisor.clock from hclock,
    show x.reactBetween.now = x.now from hnow]
  exact hloops l hl

/-! ## The loop that is due first -/

/-- A loop is due no later than another one. -/
def NotAfter (a b : RunningLoop) : Prop :=
  ∀ j, b.loop.phase.due? = some j → ∃ i, a.loop.phase.due? = some i ∧ i.nanos ≤ j.nanos

theorem NotAfter.refl (a : RunningLoop) : NotAfter a a := fun j hj => ⟨j, hj, Nat.le_refl _⟩

theorem NotAfter.trans {a b l : RunningLoop} (h : NotAfter a b) (h' : NotAfter b l) :
    NotAfter a l := by
  intro k hk
  obtain ⟨j, hj, hjk⟩ := h' k hk
  obtain ⟨i, hi, hij⟩ := h j hj
  exact ⟨i, hi, Nat.le_trans hij hjk⟩

theorem notAfter_of_isDueBefore {a b : RunningLoop} (h : isDueBefore a b = true) :
    NotAfter a b := by
  intro j hj
  cases hi : a.loop.phase.due? with
  | none => simp [isDueBefore, hi] at h
  | some i =>
      simp only [isDueBefore, hi, hj, decide_eq_true_eq] at h
      exact ⟨i, rfl, Nat.le_of_lt h⟩

theorem notAfter_of_not_isDueBefore {a b : RunningLoop} (h : isDueBefore a b = false) :
    NotAfter b a := by
  intro i hi
  cases hj : b.loop.phase.due? with
  | none => simp [isDueBefore, hi, hj] at h
  | some j =>
      simp only [isDueBefore, hi, hj, decide_eq_false_iff_not] at h
      exact ⟨j, rfl, Nat.le_of_not_lt h⟩

/-- The one of two loops that is due first; of both, the one that has waited longer. -/
def sooner (b l : RunningLoop) : RunningLoop := if isDueBefore l b then l else b

theorem sooner_spec (b l : RunningLoop) :
    (sooner b l = b ∨ sooner b l = l) ∧ NotAfter (sooner b l) b ∧ NotAfter (sooner b l) l := by
  cases h : isDueBefore l b with
  | true =>
      rw [sooner, if_pos h]
      exact ⟨.inr rfl, notAfter_of_isDueBefore h, .refl l⟩
  | false =>
      rw [sooner, if_neg (by simp [h])]
      exact ⟨.inl rfl, .refl b, notAfter_of_not_isDueBefore h⟩

theorem earliest?_cons (l : RunningLoop) (ls : List RunningLoop) :
    earliest? (l :: ls) = some (ls.foldl sooner l) := by
  rw [earliest?, List.foldl_cons]
  induction ls generalizing l with
  | nil => rfl
  | cons o ls ih =>
      rw [List.foldl_cons, List.foldl_cons, ← ih]
      cases h : isDueBefore o l <;> simp [sooner, h]

/-- The first loop of several is one of them, and none is due before it. -/
theorem foldl_sooner_spec (l : RunningLoop) (ls : List RunningLoop) :
    ls.foldl sooner l ∈ l :: ls ∧ ∀ o ∈ l :: ls, NotAfter (ls.foldl sooner l) o := by
  induction ls generalizing l with
  | nil => simpa using NotAfter.refl l
  | cons o ls ih =>
      obtain ⟨heq, hl, ho⟩ := sooner_spec l o
      obtain ⟨hmem, hfirst⟩ := ih (sooner l o)
      rw [List.foldl_cons]
      have hbest := hfirst _ List.mem_cons_self
      refine ⟨?_, ?_⟩
      · rcases List.mem_cons.1 hmem with h | h
        · rw [h]
          rcases heq with heq | heq <;> simp [heq]
        · simp [h]
      · intro other hother
        rcases List.mem_cons.1 hother with rfl | hother
        · exact hbest.trans hl
        rcases List.mem_cons.1 hother with rfl | hother
        · exact hbest.trans ho
        · exact hfirst other (List.mem_cons_of_mem _ hother)

/-- **A loop that is due by a moment** is one of the loops, and no loop is due before it; if there
is none, all loops wait for later instants. -/
theorem nextDue?_spec (target : Instant) (x : Session) :
    match x.nextDue? target with
    | some (l, due) => l ∈ x.loops ∧ l.loop.phase.due? = some due ∧
        ∀ o ∈ x.loops, ∀ j, o.loop.phase.due? = some j → due.nanos ≤ j.nanos
    | none => ∀ o ∈ x.loops, ∀ j, o.loop.phase.due? = some j → target.nanos ≤ j.nanos := by
  cases hloops : x.loops with
  | nil => simp [nextDue?, hloops, earliest?]
  | cons first rest =>
      obtain ⟨hmem, hfirst⟩ := foldl_sooner_spec first rest
      rw [nextDue?, hloops, earliest?_cons, Option.bind_some]
      generalize rest.foldl sooner first = l at hmem hfirst
      cases hdue : l.loop.phase.due? with
      | none =>
          intro o ho j hj
          obtain ⟨i, hi, -⟩ := hfirst o ho j hj
          rw [hdue] at hi
          cases hi
      | some due =>
          have hle (o : RunningLoop) (ho : o ∈ first :: rest) (j : Instant)
              (hj : o.loop.phase.due? = some j) : due.nanos ≤ j.nanos := by
            obtain ⟨i, hi, hij⟩ := hfirst o ho j hj
            rw [hdue] at hi
            obtain rfl := Option.some.inj hi
            exact hij
          by_cases hlate : target < due
          · simp only [Option.bind_some, hlate, if_true]
            exact fun o ho j hj => Nat.le_trans (Nat.le_of_lt hlate) (hle o ho j hj)
          · simp only [Option.bind_some, hlate, if_false]
            exact ⟨hmem, hdue, hle⟩

/-! ## Waking -/

/-- The bodies of a scheduler's jobs are those of configured jobs. -/
def Configured (c : Scheduler Work) : Prop := ∀ j ∈ c.jobs, ∃ e, j.body = .configured e

theorem nanos_laterOf (i j : Instant) : (laterOf i j).nanos = max i.nanos j.nanos := by
  simp only [laterOf]
  split
  · rename_i h
    exact (Nat.max_eq_right (Nat.le_of_lt h)).symm
  · rename_i h
    exact (Nat.max_eq_left (Nat.le_of_not_lt h)).symm

/-- While no loop is due before an instant, time may pass until then. -/
theorem Steady.until (h : x.Steady c) {i : Instant}
    (hall : ∀ o ∈ x.loops, ∀ j, o.loop.phase.due? = some j → i.nanos ≤ j.nanos) :
    ({ x with now := laterOf x.now i } : Session).Steady c := by
  intro o ho
  refine { h o ho with timely := fun j hj => ?_ }
  have hnow := (h o ho).timely j hj
  have hi := hall o ho j hj
  show (laterOf x.now i).nanos ≤ j.nanos
  rw [nanos_laterOf]
  omega

/-- A woken loop lets time pass if its body does. -/
theorem advances_wake {body : Work → Session → Ending Unit × Session} {l : TriggerLoop Work}
    (hb : ∀ x : Session, x.Advances (body l.job.body x).2) (now : Instant) (x : Session) :
    x.Advances (l.wake Session.supervisor withSupervisor body now x).2 := by
  simp only [TriggerLoop.wake]
  split
  · exact .refl x
  · split
    · exact advances_fire hb x
    · exact .refl x
  · exact .refl x
  · exact .refl x

/-- A loop that is woken at the very instant that it waits for stays in time, and is lost only if
the lease is too long. -/
theorem RunningLoop.Steady.wake {body : Work → Session → Ending Unit × Session} {l : RunningLoop}
    {now : Instant} (h : l.Steady c x.supervisor.clock now)
    (hb : ∀ y : Session, y.Advances (body l.loop.job.body y).2)
    (hpunctual : ∀ i, l.loop.phase.due? = some i → i = now) :
    let woken := l.loop.wake Session.supervisor withSupervisor body now x
    ({ l with loop := woken.1 } : RunningLoop).Steady c woken.2.supervisor.clock now := by
  intro woken
  obtain ⟨hjob, hpolicy, hlease⟩ := l.loop.wake_same Session.supervisor withSupervisor body now x
  refine ⟨hjob ▸ h.job, hpolicy.trans h.policy, hlease.trans h.lease,
    fun next hnext => TriggerLoop.le_of_due?_wake _ _ body hpunctual x hnext, fun hlost => ?_⟩
  have hover : c.policy.Overflows c.lease x.supervisor.clock := by
    rcases (l.loop.wake_panicked_iff _ _ body now x).1 hlost with hp | hp | ⟨-, hover⟩
    · exact h.lost hp
    · exact absurd hp (TriggerLoop.not_lostAt_of_le h.timely)
    · rwa [h.policy, h.lease] at hover
  exact hover.mono (advances_wake hb now x).clock

/-- A loop that is woken when it is due is lost only if the lease is too long. -/
theorem Steady.wake (h : x.Steady c) (hc : Configured c) {l : RunningLoop} (hl : l ∈ x.loops)
    {due : Instant} (hdue : l.loop.phase.due? = some due)
    (hfirst : ∀ o ∈ x.loops, ∀ j, o.loop.phase.due? = some j → due.nanos ≤ j.nanos) :
    (x.wake l due).Steady c := by
  let y := { x with now := laterOf x.now due }
  have hy : y.Steady c := h.until hfirst
  obtain ⟨e, he⟩ := hc l.loop.job (hy l hl).job
  let body := work l.loop.job.descriptor.name
  let woken := l.loop.wake Session.supervisor withSupervisor body y.now y
  have hbody (z : Session) : z.Advances (body l.loop.job.body z).2 := by
    rw [he]
    exact advances_work l.loop.job.descriptor.name e z
  have hadv : y.Advances woken.2 := advances_wake hbody y.now y
  have hpunctual : ∀ i, l.loop.phase.due? = some i → i = y.now := by
    intro i hi
    obtain rfl : due = i := Option.some.inj (hdue.symm.trans hi)
    have hle := (h l hl).timely due hdue
    have hnow : y.now.nanos = due.nanos := (nanos_laterOf _ _).trans (Nat.max_eq_right hle)
    exact congrArg Instant.mk hnow.symm
  have hwoken : ({ l with loop := woken.1 } : RunningLoop).Steady c
      woken.2.supervisor.clock woken.2.now := by
    rw [hadv.now]
    exact (hy l hl).wake hbody hpunctual
  have hall : ∀ o ∈ (woken.2.loops.filter fun o => o.number ≠ l.number) ++
      [{ l with loop := woken.1 }], o.Steady c woken.2.supervisor.clock woken.2.now := by
    intro o ho
    rcases List.mem_append.1 ho with ho | ho
    · exact hy.advances hadv o (List.mem_of_mem_filter ho)
    · obtain rfl := List.mem_singleton.1 ho
      exact hwoken
  simp only [Session.wake]
  split
  · exact hall
  · exact hall

/-- **Time passes without a loop being lost**, except over the lease. -/
theorem Steady.wakeUntil (h : x.Steady c) (hc : Configured c) (fuel : Nat)
    (happened : Session → Bool) (target : Instant) :
    (wakeUntil fuel happened target x).Steady c := by
  induction fuel generalizing x with
  | zero => exact h
  | succ fuel ih =>
      have hspec := nextDue?_spec target x
      simp only [Session.wakeUntil]
      split
      · exact h
      · split
        · rename_i l due hnext
          rw [hnext] at hspec
          obtain ⟨hl, hdue, hfirst⟩ := hspec
          exact ih (h.wake hc hl hdue hfirst).reactBetween
        · rename_i hnext
          rw [hnext] at hspec
          exact h.until hspec

theorem Steady.passTo (h : x.Steady c) (hc : Configured c) (happened : Session → Bool)
    (target : Instant) : (x.passTo happened target).Steady c :=
  h.wakeUntil hc _ happened target

/-! ## Starting the loops -/

theorem steady_startLoops (now clock : Instant) (shutdown : Nat) (jobs : List (ScheduledJob Work))
    (hjobs : jobs ⊆ c.jobs) (sd : Shutdown) :
    ∀ l ∈ (c.startLoops now jobs sd).1, ∀ n tracked,
      (⟨n, l, shutdown, tracked⟩ : RunningLoop).Steady c clock now := by
  induction jobs generalizing sd with
  | nil => simp [Scheduler.startLoops]
  | cons job jobs ih =>
      obtain ⟨hjob, hjobs⟩ := List.cons_subset.1 hjobs
      intro l hl n tracked
      rcases List.mem_cons.1 hl with rfl | hl
      · refine ⟨hjob, rfl, rfl, fun due hdue => ?_, fun hlost => ?_⟩
        · simp only [TriggerLoop.begin] at hdue
          split at hdue
          · obtain rfl := Option.some.inj hdue
            exact Nat.le_refl _
          · obtain rfl := Option.some.inj hdue
            exact Phase.le_afterOrFar now job.initialDelay
        · simp only [TriggerLoop.begin] at hlost
          split at hlost <;> simp at hlost
      · exact ih hjobs _ l hl n tracked

/-- The loops of a scheduler begin without one being lost. -/
theorem Steady.startLoops (h : x.Steady c) (hc : x.scheduler = c) (i : Nat) :
    (x.startLoops i).2.Steady c := by
  subst hc
  intro l hl
  rcases List.mem_append.1 hl with hl | hl
  · exact h l hl
  · obtain ⟨⟨started, n⟩, hstarted, rfl⟩ := List.mem_map.1 hl
    exact steady_startLoops x.now _ i _ (List.Subset.refl _) _ started
      (List.fst_mem_of_mem_zipIdx hstarted) _ _

end Session

end JobSupervisor
