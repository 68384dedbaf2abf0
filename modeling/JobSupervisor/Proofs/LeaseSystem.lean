import JobSupervisor.Job.Lease
import Mathlib.Logic.Function.Basic

/-!
# Threads that acquire leases

Threads acquire and give back leases in any order.  An acquisition takes three steps, and
anything can happen between them: the thread reads the clock, draws a token, and enters the
table.  A lease is unexpired until the clock reaches the expiry that its holder computed from
the old reading.

## Main definitions

* `Attempt` — how far a thread is with an acquisition.
* `Grant` — a lease that was granted and is not given back.
* `LockSystem`, `LockSystem.step`, `LockSystem.run` — the threads with their table and clock.
* `LockSystem.unexpired` — the leases on a name that were not given back and have not expired.
* `LockSystem.table_acquire` — the steps undisturbed are an acquisition.
-/

namespace JobSupervisor

/-- How far a thread is with an acquisition. -/
inductive Attempt where
  | idle
  | clocked (name : String) (lease : Duration) (now : Instant)
  | drawn (name : String) (now : Instant) (h : Holding)

namespace Attempt

/-- The clock reading that a thread has taken. -/
def reading? : Attempt → Option Instant
  | .idle => none
  | .clocked _ _ now => some now
  | .drawn _ now _ => some now

/-- The token that a thread has drawn. -/
def token? : Attempt → Option Token
  | .idle => none
  | .clocked .. => none
  | .drawn _ _ h => some h.token

end Attempt

/-- A lease that was granted and is not given back yet. -/
structure Grant where
  name : String
  token : Token
  expiresAt : Instant
  deriving DecidableEq

/-- Threads that share a lease table and a clock, the leases that they hold, and the number of
tokens drawn so far. -/
structure LockSystem where
  table : LeaseTable
  clock : Instant
  attempts : Nat → Attempt
  grants : List Grant
  draws : Nat

namespace LockSystem

/-- A single step of one thread, of a holder, or of the clock. -/
inductive Move where
  | pass (d : Duration)
  | read (i : Nat) (name : String) (lease : Duration)
  | draw (i : Nat)
  | enter (i : Nat)
  | drop (g : Grant)

/-- The thread that takes a step. -/
def Move.thread? : Move → Option Nat
  | .pass _ => none
  | .read i _ _ => some i
  | .draw i => some i
  | .enter i => some i
  | .drop _ => none

/-- The system before anything happened. -/
def start (now : Instant) : LockSystem := ⟨.empty, now, fun _ => .idle, [], 0⟩

/-- Changes how far a thread is. -/
def setAttempt (s : LockSystem) (i : Nat) (a : Attempt) : LockSystem :=
  { s with attempts := Function.update s.attempts i a }

/-- Draws a token. -/
def drawToken (s : LockSystem) : Token × LockSystem :=
  (s.table.draw.1, { s with table := s.table.draw.2, draws := s.draws + 1 })

/-- Puts a granted lease into the table and into the hands of its holder. -/
def grant (s : LockSystem) (name : String) (h : Holding) : LockSystem :=
  { s with
    table := { s.table with held := s.table.held.insert name h }
    grants := ⟨name, h.token, h.expiresAt⟩ :: s.grants }

/-- The system after a move; a move that cannot be made changes nothing. -/
def step (m : Move) (s : LockSystem) : LockSystem :=
  match m with
  | .pass d => { s with clock := s.clock.after d }
  | .read i name lease =>
      match s.attempts i with
      | .idle => s.setAttempt i (.clocked name lease s.clock)
      | _ => s
  | .draw i =>
      match s.attempts i with
      | .clocked name lease now =>
          let (token, s) := s.drawToken
          match now.later? lease with
          | some expiresAt => s.setAttempt i (.drawn name now ⟨token, expiresAt⟩)
          | none => s.setAttempt i .idle
      | _ => s
  | .enter i =>
      match s.attempts i with
      | .drawn name now h =>
          let s := s.setAttempt i .idle
          match s.table.enter name now h with
          | (.denied, table) => { s with table := table }
          | (.granted _, table) =>
              { s with table := table, grants := ⟨name, h.token, h.expiresAt⟩ :: s.grants }
      | _ => s
  | .drop g =>
      if g ∈ s.grants then
        { s with
          table := s.table.giveBack (.attached g.name g.token)
          grants := s.grants.erase g }
      else s

/-- The system after moves one after the other. -/
def run (moves : List Move) (s : LockSystem) : LockSystem :=
  moves.foldl (fun s m => s.step m) s

@[simp] theorem run_nil (s : LockSystem) : s.run [] = s := rfl

@[simp] theorem run_cons (m : Move) (moves : List Move) (s : LockSystem) :
    s.run (m :: moves) = (s.step m).run moves := rfl

/-- The leases on a name that are not given back and have not expired. -/
def unexpired (s : LockSystem) (name : String) : List Grant :=
  s.grants.filter fun g => g.name = name ∧ s.clock < g.expiresAt

theorem mem_unexpired {s : LockSystem} {name : String} {g : Grant} :
    g ∈ s.unexpired name ↔ g ∈ s.grants ∧ g.name = name ∧ s.clock < g.expiresAt := by
  simp [unexpired]

end LockSystem

/-! ## The table -/

/-- Entering a name that is not held installs the holding. -/
theorem LeaseTable.enter_of_not_isHeld {t : LeaseTable} {name : String} {now : Instant}
    (h : t.isHeld name now = false) (g : Holding) :
    ∃ tookOver, t.enter name now g =
      (.granted tookOver, { t with held := t.held.insert name g }) := by
  rw [isHeld] at h
  simp only [enter]
  cases hg : t.held.get? name with
  | none => exact ⟨false, rfl⟩
  | some old =>
      rw [hg] at h
      exact ⟨true, by simp_all⟩

/-- What is expired at a reading is expired at every later one. -/
theorem LeaseTable.expired_of_not_isHeld {t : LeaseTable} {name : String} {now clock : Instant}
    {old : Holding} (h : t.isHeld name now = false) (hold : t.held.get? name = some old)
    (hle : now.nanos ≤ clock.nanos) : ¬ clock < old.expiresAt := by
  have hlive : ¬ now < old.expiresAt := by
    simpa [isHeld, hold, Holding.liveAt] using h
  change ¬ clock.nanos < old.expiresAt.nanos
  change ¬ now.nanos < old.expiresAt.nanos at hlive
  omega

/-- An entry that a release leaves was there before and has another token or another name. -/
theorem LeaseTable.get?_of_get?_release {t : LeaseTable} {name other : String} {token : Token}
    {h : Holding} (hget : (t.release name token).held.get? other = some h) :
    t.held.get? other = some h ∧ (other = name → h.token ≠ token) := by
  by_cases hne : name = other
  · subst hne
    cases hold : t.held.get? name with
    | none => simp [release, hold] at hget
    | some old =>
        by_cases htoken : old.token = token
        · subst htoken
          rw [get?_release_self hold] at hget
          simp at hget
        · rw [release_of_ne hold htoken, hold] at hget
          obtain rfl := Option.some.inj hget
          exact ⟨rfl, fun _ => htoken⟩
  · rw [get?_release_of_ne t hne] at hget
    exact ⟨hget, fun heq => absurd heq.symm hne⟩

@[simp] theorem LeaseTable.next_release (t : LeaseTable) (name : String) (token : Token) :
    (t.release name token).next = t.next := by
  simp only [release]
  split
  · split <;> rfl
  · rfl

namespace LockSystem

/-! ## The single moves -/

variable {s : LockSystem}

@[simp] theorem attempts_setAttempt_self (s : LockSystem) (i : Nat) (a : Attempt) :
    (s.setAttempt i a).attempts i = a := by
  simp [setAttempt]

theorem attempts_setAttempt_of_ne (s : LockSystem) {i j : Nat} (h : j ≠ i) (a : Attempt) :
    (s.setAttempt i a).attempts j = s.attempts j := by
  simp [setAttempt, h]

theorem step_read {i : Nat} (hi : s.attempts i = .idle) (name : String) (lease : Duration) :
    s.step (.read i name lease) = s.setAttempt i (.clocked name lease s.clock) := by
  simp [step, hi]

theorem step_draw {i : Nat} {name : String} {lease : Duration} {now : Instant}
    (hi : s.attempts i = .clocked name lease now) :
    s.step (.draw i) = match now.later? lease with
      | some expiresAt =>
          s.drawToken.2.setAttempt i (.drawn name now ⟨s.drawToken.1, expiresAt⟩)
      | none => s.drawToken.2.setAttempt i .idle := by
  simp [step, hi]

/-- A thread that finds the name held at its reading gives up. -/
theorem step_enter_of_isHeld {i : Nat} {name : String} {now : Instant} {h : Holding}
    (hi : s.attempts i = .drawn name now h) (hheld : s.table.isHeld name now = true) :
    s.step (.enter i) = s.setAttempt i .idle := by
  simp [step, hi, setAttempt, LeaseTable.enter_of_isHeld hheld]

/-- A thread that finds the name free at its reading is granted the lease. -/
theorem step_enter_of_not_isHeld {i : Nat} {name : String} {now : Instant} {h : Holding}
    (hi : s.attempts i = .drawn name now h) (hheld : s.table.isHeld name now = false) :
    s.step (.enter i) = (s.setAttempt i .idle).grant name h := by
  obtain ⟨tookOver, henter⟩ := LeaseTable.enter_of_not_isHeld hheld h
  simp [step, hi, setAttempt, grant, henter]

theorem step_drop {g : Grant} (hg : g ∈ s.grants) :
    s.step (.drop g) =
      { s with table := s.table.release g.name g.token, grants := s.grants.erase g } := by
  simp [step, hg, LeaseTable.giveBack]

/-- A step changes only the thread that takes it. -/
theorem attempts_step {m : Move} {i : Nat} (h : m.thread? ≠ some i) :
    (s.step m).attempts i = s.attempts i := by
  cases m with
  | pass d => rfl
  | read j name lease =>
      have hne : i ≠ j := fun heq => h (heq ▸ rfl)
      simp only [step]
      split <;> simp [setAttempt, hne]
  | draw j =>
      have hne : i ≠ j := fun heq => h (heq ▸ rfl)
      simp only [step, drawToken]
      repeat' split
      all_goals simp [setAttempt, hne]
  | enter j =>
      have hne : i ≠ j := fun heq => h (heq ▸ rfl)
      simp only [step]
      repeat' split
      all_goals simp [setAttempt, hne]
  | drop g =>
      simp only [step]
      split <;> rfl

/-- Undisturbed, the three steps of a thread do to the table what an acquisition does. -/
theorem table_acquire {i : Nat} (hi : s.attempts i = .idle) (name : String)
    (lease : Duration) :
    (s.run [.read i name lease, .draw i, .enter i]).table =
      (s.table.tryAcquire name s.clock lease).2 := by
  rw [run_cons, run_cons, run_cons, run_nil, step_read hi,
    step_draw (attempts_setAttempt_self s i _), LeaseTable.tryAcquire]
  cases hl : s.clock.later? lease with
  | none => simp [step, setAttempt, drawToken]
  | some expiresAt =>
      simp only [step, setAttempt, drawToken, Function.update_self]
      split <;> simp_all

end LockSystem

end JobSupervisor
