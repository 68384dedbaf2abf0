import JobSupervisor.NameMap
import JobSupervisor.Time

/-!
# Leases on job names

A lease lets one holder run a job until it is given back or expires.  The table has at
most one entry for each name: the token of the holder and the instant of expiry.  An
acquisition reads the clock, draws a token, and enters the table; only the last of these
steps looks at the entry, and it compares with the clock reading taken before.  An entry
that expires exactly at that reading counts as free.  Giving a lease back removes the
entry only if it still has the lease's token, so a holder that was taken over cannot free
the name of its successor.

## Main definitions

* `LeaseTable` — the entries and the next token.
* `LeaseTable.draw`, `LeaseTable.enter` — the steps of an acquisition, and
  `LeaseTable.tryAcquire`, which takes them at once.
* `LeaseTable.release`, `LeaseTable.isHeld`.
* `Lease`, `LockPolicy` — what holders keep, and which lock a scheduler uses.
-/

namespace JobSupervisor

/-- Tokens come from a 64-bit counter. -/
abbrev Token := UInt64

/-- An entry of the lease table. -/
structure Holding where
  token : Token
  expiresAt : Instant
  deriving DecidableEq

/-- Whether an entry is unexpired at an instant. -/
def Holding.liveAt (h : Holding) (now : Instant) : Bool := now < h.expiresAt

/-- The entries by name, and the token that the next acquisition draws. -/
structure LeaseTable where
  held : NameMap Holding
  next : Token

/-- What came of entering the table. -/
inductive Admission where
  | denied
  | granted (tookOver : Bool)
  deriving DecidableEq, Repr

/-- What came of an acquisition. -/
inductive Acquisition where
  /-- The expiry lies beyond what the clock can hold. -/
  | overflow
  | denied
  | granted (token : Token) (tookOver : Bool)
  deriving DecidableEq

namespace LeaseTable

/-- The table without entries. -/
def empty : LeaseTable := ⟨.empty, 0⟩

/-- Draws a token. -/
def draw (t : LeaseTable) : Token × LeaseTable :=
  (t.next, { t with next := t.next + 1 })

/-- Enters a holding for a name, unless the name has an entry that is unexpired at the
clock reading `now`. -/
def enter (t : LeaseTable) (name : String) (now : Instant) (h : Holding) :
    Admission × LeaseTable :=
  match t.held.get? name with
  | some old =>
      if old.liveAt now then (.denied, t)
      else (.granted true, { t with held := t.held.insert name h })
  | none => (.granted false, { t with held := t.held.insert name h })

/-- An acquisition at a clock reading: draws a token, computes the expiry, and enters the
table.  A lease too long for the clock ends the acquisition before the table is reached. -/
def tryAcquire (t : LeaseTable) (name : String) (now : Instant) (lease : Duration) :
    Acquisition × LeaseTable :=
  let (token, t) := t.draw
  match now.later? lease with
  | none => (.overflow, t)
  | some expiresAt =>
      match t.enter name now ⟨token, expiresAt⟩ with
      | (.denied, t) => (.denied, t)
      | (.granted tookOver, t) => (.granted token tookOver, t)

/-- Removes the entry of a name if it has this token. -/
def release (t : LeaseTable) (name : String) (token : Token) : LeaseTable :=
  match t.held.get? name with
  | some h => if h.token = token then { t with held := t.held.erase name } else t
  | none => t

/-- Whether a name has an unexpired entry. -/
def isHeld (t : LeaseTable) (name : String) (now : Instant) : Bool :=
  match t.held.get? name with
  | some h => h.liveAt now
  | none => false

/-! ## What the steps do to the entries -/

/-- A name is refused exactly while it is held at the clock reading. -/
theorem enter_denied_iff (t : LeaseTable) (name : String) (now : Instant) (h : Holding) :
    (t.enter name now h).1 = .denied ↔ t.isHeld name now = true := by
  unfold enter isHeld
  cases t.held.get? name with
  | none => simp
  | some old => by_cases hl : old.liveAt now = true <;> simp [hl]

/-- A refusal changes nothing. -/
theorem enter_of_isHeld {t : LeaseTable} {name : String} {now : Instant}
    (h : t.isHeld name now = true) (g : Holding) : t.enter name now g = (.denied, t) := by
  unfold isHeld at h
  unfold enter
  cases hg : t.held.get? name with
  | none => simp [hg] at h
  | some old => simp [hg] at h; simp [h]

/-- Entering the table does not touch the other names. -/
theorem get?_enter_of_ne (t : LeaseTable) {name other : String} (h : name ≠ other)
    (now : Instant) (g : Holding) :
    (t.enter name now g).2.held.get? other = t.held.get? other := by
  unfold enter
  split
  · split
    · rfl
    · exact NameMap.get?_insert_of_ne t.held h g
  · exact NameMap.get?_insert_of_ne t.held h g

/-- Giving a lease back does not touch the other names. -/
theorem get?_release_of_ne (t : LeaseTable) {name other : String} (h : name ≠ other)
    (token : Token) : (t.release name token).held.get? other = t.held.get? other := by
  unfold release
  split
  · split
    · simp [NameMap.get?_erase, h]
    · rfl
  · rfl

/-- The holder that stands in the table frees the name. -/
theorem get?_release_self {t : LeaseTable} {name : String} {g : Holding}
    (h : t.held.get? name = some g) : (t.release name g.token).held.get? name = none := by
  simp [release, h]

/-- A holder that was taken over changes nothing. -/
theorem release_of_ne {t : LeaseTable} {name : String} {g : Holding} {token : Token}
    (h : t.held.get? name = some g) (hne : g.token ≠ token) : t.release name token = t := by
  simp [release, h, hne]

end LeaseTable

/-- What the holder of a granted lease keeps. -/
inductive Lease where
  /-- A lease with nothing to give back. -/
  | detached
  /-- A lease that stands in the table. -/
  | attached (name : String) (token : Token)
  /-- A lease that stands in the table and whose return fails after the entry is gone. -/
  | faulty (name : String) (token : Token)
  deriving DecidableEq

namespace Lease

/-- Whether there is something to give back. -/
def isAttached : Lease → Bool
  | .detached => false
  | .attached .. | .faulty .. => true

/-- Whether giving the lease back fails. -/
def returnFails : Lease → Bool
  | .faulty .. => true
  | .detached | .attached .. => false

/-- The text of a lease. -/
def text (l : Lease) : String :=
  "LockLease \x7b attached: " ++ (if l.isAttached then "true" else "false") ++ " \x7d"

end Lease

/-- Gives a lease back. -/
def LeaseTable.giveBack (t : LeaseTable) : Lease → LeaseTable
  | .detached => t
  | .attached name token | .faulty name token => t.release name token

/-- The lock that a scheduler asks before each run. -/
inductive LockPolicy where
  /-- Leases are entered into the table. -/
  | table
  /-- Every request is granted and nothing is entered. -/
  | unlocked
  /-- Leases are entered into the table, and giving them back fails. -/
  | faultyReturn
  deriving DecidableEq, Repr

end JobSupervisor
