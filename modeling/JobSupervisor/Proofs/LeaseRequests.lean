import JobSupervisor.Proofs.LeaseExclusion

/-!
# What a request for a lease is answered

A request that reads the clock, draws a token and enters the table without being interrupted is
decided by the entry of its name alone, in whatever state other threads, holders and the clock
have brought the table.  If the clock cannot hold the expiry, the request ends before the table
is reached; apart from that it is granted exactly if the name is not held at its reading.  A
request that is not granted leaves only the counter of tokens changed, which no other request
looks at, so that the next one is decided as if there had not been one.

The counter gives out its first values in their order, so a token is new until the counter wraps
around.

## Main definitions

* `LeaseTable.tryAcquire_cases` — the three ways in which a request ends.
* `LockSystem.tokens` — the tokens that were drawn during some moves.
* `LockSystem.exists_acquire` — a request is made of moves.
* `LockSystem.decided` — requests and returns of leases, in every reachable state.
-/

namespace JobSupervisor

/-! ## The table -/

namespace LeaseTable

variable {t t' : LeaseTable} {name : String} {now : Instant} {lease : Duration}

/-- A name is held while its entry expires later than the clock reading; an entry that expires
just then no longer counts. -/
theorem isHeld_iff :
    t.isHeld name now = true ↔ ∃ h, t.held.get? name = some h ∧ now < h.expiresAt := by
  unfold isHeld
  cases hget : t.held.get? name with
  | none => simp
  | some h => simp [Holding.liveAt]

/-- Tables with the same entries hold the same names. -/
theorem isHeld_congr (h : t'.held = t.held) (name : String) (now : Instant) :
    t'.isHeld name now = t.isHeld name now := by
  simp only [isHeld, h]

/-- A lease too long for the clock ends the request, and only the token is gone. -/
theorem tryAcquire_of_overflow (h : now.later? lease = none) :
    t.tryAcquire name now lease = (.overflow, t.draw.2) := by
  simp only [tryAcquire, h]

/-- A request for a name that is held is denied, and only the token is gone. -/
theorem tryAcquire_of_isHeld {expiresAt : Instant} (hlater : now.later? lease = some expiresAt)
    (hheld : t.isHeld name now = true) :
    t.tryAcquire name now lease = (.denied, t.draw.2) := by
  have hdrawn : t.draw.2.isHeld name now = true := hheld
  simp only [tryAcquire, hlater, enter_of_isHeld hdrawn]

/-- A request for a name that is not held is granted, with an entry for the token that is drawn
and the expiry that was computed from the reading. -/
theorem tryAcquire_of_not_isHeld {expiresAt : Instant}
    (hlater : now.later? lease = some expiresAt) (hheld : t.isHeld name now = false) :
    ∃ tookOver, t.tryAcquire name now lease =
      (.granted t.next tookOver,
        { held := t.held.insert name ⟨t.next, expiresAt⟩, next := t.next + 1 }) := by
  have hdrawn : t.draw.2.isHeld name now = false := hheld
  obtain ⟨tookOver, henter⟩ := enter_of_not_isHeld hdrawn ⟨t.next, expiresAt⟩
  refine ⟨tookOver, ?_⟩
  simp only [tryAcquire, hlater]
  rw [show t.draw.1 = t.next from rfl, henter]
  rfl

/-- The three ways in which a request ends. -/
theorem tryAcquire_cases (t : LeaseTable) (name : String) (now : Instant) (lease : Duration) :
    (now.later? lease = none ∧ t.tryAcquire name now lease = (.overflow, t.draw.2)) ∨
    (now.later? lease ≠ none ∧ t.isHeld name now = true ∧
      t.tryAcquire name now lease = (.denied, t.draw.2)) ∨
    (now.later? lease ≠ none ∧ t.isHeld name now = false ∧
      ∃ tookOver, t.tryAcquire name now lease =
        (.granted t.next tookOver,
          { held := t.held.insert name ⟨t.next, now.after lease⟩, next := t.next + 1 })) := by
  cases hlater : now.later? lease with
  | none => exact .inl ⟨rfl, tryAcquire_of_overflow hlater⟩
  | some expiresAt =>
      have hne : some expiresAt ≠ none := Option.some_ne_none expiresAt
      cases hheld : t.isHeld name now with
      | true => exact .inr (.inl ⟨hne, rfl, tryAcquire_of_isHeld hlater hheld⟩)
      | false =>
          have hgranted := tryAcquire_of_not_isHeld hlater hheld
          obtain ⟨rfl, -⟩ := Instant.later?_eq_some_iff.1 hlater
          exact .inr (.inr ⟨hne, rfl, hgranted⟩)

/-- A request is granted exactly if the clock can hold the expiry and the name is not held. -/
theorem granted_iff :
    (∃ token tookOver, (t.tryAcquire name now lease).1 = .granted token tookOver) ↔
      now.later? lease ≠ none ∧ t.isHeld name now = false := by
  rcases tryAcquire_cases t name now lease with
    ⟨hlater, h⟩ | ⟨-, hheld, h⟩ | ⟨hlater, hheld, _, h⟩
  · simp [h, hlater]
  · simp [h, hheld]
  · simp [h, hlater, hheld]

theorem overflow_iff :
    (t.tryAcquire name now lease).1 = .overflow ↔ now.later? lease = none := by
  rcases tryAcquire_cases t name now lease with
    ⟨hlater, h⟩ | ⟨hlater, -, h⟩ | ⟨hlater, -, _, h⟩
  · simp [h, hlater]
  · simp [h, hlater]
  · simp [h, hlater]

/-- A granted request changes the entry of its name and no other. -/
theorem held_of_granted {token : Token} {tookOver : Bool}
    (hgranted : (t.tryAcquire name now lease).1 = .granted token tookOver) :
    token = t.next ∧
      (t.tryAcquire name now lease).2.held =
        t.held.insert name ⟨token, now.after lease⟩ := by
  rcases tryAcquire_cases t name now lease with ⟨-, h⟩ | ⟨-, -, h⟩ | ⟨-, -, _, h⟩
  · simp [h] at hgranted
  · simp [h] at hgranted
  · rw [h] at hgranted ⊢
    obtain ⟨rfl, -⟩ := Acquisition.granted.inj hgranted
    exact ⟨rfl, rfl⟩

/-- A request that is not granted leaves all entries as they were. -/
theorem held_of_not_granted
    (hrefused : ∀ token tookOver, (t.tryAcquire name now lease).1 ≠ .granted token tookOver) :
    (t.tryAcquire name now lease).2.held = t.held := by
  rcases tryAcquire_cases t name now lease with ⟨-, h⟩ | ⟨-, -, h⟩ | ⟨-, -, _, h⟩
  · rw [h]
    rfl
  · rw [h]
    rfl
  · exact absurd (congrArg Prod.fst h) (hrefused _ _)

/-- A request that is not granted does not stand in the way of later ones. -/
theorem granted_iff_of_held_eq (h : t'.held = t.held) :
    (∃ token tookOver, (t'.tryAcquire name now lease).1 = .granted token tookOver) ↔
      now.later? lease ≠ none ∧ t.isHeld name now = false := by
  rw [granted_iff, isHeld_congr h]

end LeaseTable

namespace LockSystem

variable {s : LockSystem}

/-! ## The tokens that were drawn -/

/-- The token that a move draws, if it draws one. -/
def drawnBy (m : Move) (s : LockSystem) : Option Token :=
  match m with
  | .draw i =>
      match s.attempts i with
      | .clocked .. => some s.table.next
      | .idle | .drawn .. => none
  | .pass _ | .read .. | .enter _ | .drop _ => none

/-- The tokens that are drawn during some moves, in their order. -/
def tokens : List Move → LockSystem → List Token
  | [], _ => []
  | m :: moves, s => (s.drawnBy m).toList ++ tokens moves (s.step m)

/-- The counter shows how many tokens were drawn, up to its size. -/
def Counts (s : LockSystem) : Prop := s.table.next = UInt64.ofNat s.draws

/-- A move draws the token that the counter shows, or none. -/
theorem drawnBy_cases (m : Move) (s : LockSystem) :
    (s.drawnBy m = some s.table.next ∧ (s.step m).draws = s.draws + 1 ∧
      (s.step m).table.next = s.table.next + 1) ∨
    (s.drawnBy m = none ∧ (s.step m).draws = s.draws ∧
      (s.step m).table.next = s.table.next) := by
  cases m with
  | pass d => exact .inr ⟨rfl, rfl, rfl⟩
  | read i name lease =>
      refine .inr ⟨rfl, ?_⟩
      simp only [step]
      split <;> exact ⟨rfl, rfl⟩
  | draw i =>
      cases hi : s.attempts i with
      | clocked name lease now =>
          refine .inl ⟨by simp [drawnBy, hi], ?_⟩
          rw [step_draw hi]
          split <;> exact ⟨rfl, rfl⟩
      | idle | drawn => right; simp [drawnBy, step, hi]
  | enter i =>
      right
      cases hi : s.attempts i with
      | drawn name now h =>
          cases hheld : s.table.isHeld name now with
          | true => rw [step_enter_of_isHeld hi hheld]; exact ⟨rfl, rfl, rfl⟩
          | false => rw [step_enter_of_not_isHeld hi hheld]; exact ⟨rfl, rfl, rfl⟩
      | idle | clocked => simp [drawnBy, step, hi]
  | drop g =>
      refine .inr ⟨rfl, ?_⟩
      simp only [step]
      split
      · exact ⟨rfl, LeaseTable.next_release _ _ _⟩
      · exact ⟨rfl, rfl⟩

theorem counts_start (now : Instant) : (start now).Counts := rfl

theorem Counts.step (h : s.Counts) (m : Move) : (s.step m).Counts := by
  rw [Counts] at h ⊢
  obtain ⟨-, hdraws, hnext⟩ | ⟨-, hdraws, hnext⟩ := drawnBy_cases m s
  · rw [hdraws, hnext, h, UInt64.ofNat_add]
    rfl
  · rw [hdraws, hnext, h]

theorem Counts.run (h : s.Counts) (moves : List Move) : (s.run moves).Counts := by
  induction moves generalizing s with
  | nil => exact h
  | cons m moves ih => exact ih (h.step m)

/-- **Every token that is drawn is a value that the counter showed before.** -/
theorem Counts.of_mem_tokens (h : s.Counts) {moves : List Move} {token : Token}
    (hmem : token ∈ tokens moves s) :
    ∃ k, k < (s.run moves).draws ∧ token = UInt64.ofNat k := by
  induction moves generalizing s with
  | nil => simp [tokens] at hmem
  | cons m moves ih =>
      rw [tokens, List.mem_append] at hmem
      rcases hmem with hmem | hmem
      · obtain ⟨hdrawn, hdraws, -⟩ | ⟨hdrawn, -, -⟩ := drawnBy_cases m s
        · obtain rfl : token = s.table.next := by simpa [hdrawn] using hmem
          refine ⟨s.draws, ?_, h⟩
          have hle := draws_le_run (s.step m) moves
          rw [run_cons]
          omega
        · simp [hdrawn] at hmem
      · exact ih (h.step m) hmem

/-- The token that is drawn next is new, as long as the counter has not wrapped around. -/
theorem Counts.next_notMem_tokens {moves : List Move} (h : s.Counts)
    (hlt : (s.run moves).draws < UInt64.size) : (s.run moves).table.next ∉ tokens moves s := by
  intro hmem
  obtain ⟨k, hk, heq⟩ := h.of_mem_tokens hmem
  rw [h.run moves] at heq
  have hnat := congrArg UInt64.toNat heq
  rw [UInt64.toNat_ofNat_of_lt' hlt, UInt64.toNat_ofNat_of_lt' (by omega)] at hnat
  omega

/-! ## Requests as moves -/

theorem run_append (moves moves' : List Move) (s : LockSystem) :
    s.run (moves ++ moves') = (s.run moves).run moves' :=
  List.foldl_append

/-- Only finitely many threads are in the middle of a request. -/
theorem exists_idle (now : Instant) (moves : List Move) :
    ∃ n, ∀ i, n ≤ i → ((start now).run moves).attempts i = .idle := by
  suffices ∀ s : LockSystem, (∃ n, ∀ i, n ≤ i → s.attempts i = .idle) →
      ∃ n, ∀ i, n ≤ i → (s.run moves).attempts i = .idle from
    this (start now) ⟨0, fun _ _ => rfl⟩
  induction moves with
  | nil => exact fun _ h => h
  | cons m moves ih =>
      intro s hidle
      obtain ⟨n, hn⟩ := hidle
      apply ih
      -- The thread of the move may be busy afterwards, the ones behind it are not.
      refine ⟨max n (m.thread?.elim 0 (· + 1)), ?_⟩
      intro i hi
      rw [attempts_step]
      · exact hn i (by omega)
      · intro hthread
        rw [hthread] at hi
        simp only [Option.elim_some] at hi
        omega

/-- A request that reads the present clock is made of moves, so that what it leaves can come up
as well. -/
theorem exists_acquire (start₀ : Instant) (moves : List Move) (name : String)
    (lease : Duration) :
    let s := (start start₀).run moves
    ∃ moves', ((start start₀).run (moves ++ moves')).table =
      (s.table.tryAcquire name s.clock lease).2 := by
  intro s
  obtain ⟨n, hn⟩ := exists_idle start₀ moves
  refine ⟨[.read n name lease, .draw n, .enter n], ?_⟩
  rw [run_append]
  exact table_acquire (hn n (Nat.le_refl n)) name lease

/-! ## Returns -/

/-- The lease that stands in the table under its name has the expiry of its entry. -/
theorem Sound.entry_eq (hs : s.Sound) {g : Grant} (hg : g ∈ s.grants) {h : Holding}
    (hget : s.table.held.get? g.name = some h) (htoken : h.token = g.token) :
    h = ⟨g.token, g.expiresAt⟩ := by
  have hentry := hs.entry_granted g.name h hget
  have heq := hs.eq_of_token_eq hentry hg htoken
  rw [← heq]

/-- A lease that stands in the table is taken out by its return. -/
theorem giveBack_of_entry {g : Grant}
    (h : s.table.held.get? g.name = some ⟨g.token, g.expiresAt⟩) :
    s.table.giveBack (.attached g.name g.token) =
      { s.table with held := s.table.held.erase g.name } := by
  simp [LeaseTable.giveBack, LeaseTable.release, h]

/-- A lease that does not stand in the table any more leaves it as it is. -/
theorem Sound.giveBack_of_ne (hs : s.Sound) {g : Grant} (hg : g ∈ s.grants)
    (hne : s.table.held.get? g.name ≠ some ⟨g.token, g.expiresAt⟩) :
    s.table.giveBack (.attached g.name g.token) = s.table := by
  simp only [LeaseTable.giveBack]
  cases hget : s.table.held.get? g.name with
  | none => simp [LeaseTable.release, hget]
  | some h =>
      apply LeaseTable.release_of_ne hget
      intro htoken
      rw [hs.entry_eq hg hget htoken] at hget
      exact hne hget

/-! ## The decision -/

/-- **A request is decided by the entry of its name.**  In every state that threads, holders and
the clock can bring about, and at every clock reading, a request ends before the table if the
clock cannot hold the expiry, and is otherwise granted exactly if the name is not held at the
reading.  A grant changes the entry of its name alone, which gets a token that was never drawn
before and the expiry counted from the reading.  Every other request leaves all entries as they
are, and the next one is decided as if it had not been made.  The return of a lease takes out the
entry of that lease, changes nothing if the entry is no longer there, and never touches another
name.  (Tokens are new and tell leases apart as long as the counter of tokens has not wrapped
around.) -/
theorem decided (start₀ : Instant) (moves : List Move) (name : String) (now : Instant)
    (lease : Duration) :
    let s := (start start₀).run moves
    let answer := (s.table.tryAcquire name now lease).1
    let after := (s.table.tryAcquire name now lease).2
    (s.table.isHeld name now = true ↔
      ∃ h, s.table.held.get? name = some h ∧ now < h.expiresAt) ∧
    (answer = .overflow ↔ now.later? lease = none) ∧
    (now.later? lease ≠ none →
      ((∃ token tookOver, answer = .granted token tookOver) ↔
        s.table.isHeld name now = false)) ∧
    (∀ token tookOver, answer = .granted token tookOver →
      (∀ other, after.held.get? other =
        if name = other then some ⟨token, now.after lease⟩ else s.table.held.get? other) ∧
      (s.draws < UInt64.size → token ∉ tokens moves (start start₀))) ∧
    ((∀ token tookOver, answer ≠ .granted token tookOver) →
      after.held = s.table.held ∧
      ∀ other now' lease', now'.later? lease' ≠ none →
        ((∃ token tookOver, (after.tryAcquire other now' lease').1 = .granted token tookOver) ↔
          s.table.isHeld other now' = false)) ∧
    (now = s.clock → ∃ moves', ((start start₀).run (moves ++ moves')).table = after) ∧
    ∀ g ∈ s.grants,
      let returned := s.table.giveBack (.attached g.name g.token)
      (s.table.held.get? g.name = some ⟨g.token, g.expiresAt⟩ →
        returned.held.get? g.name = none) ∧
      (∀ other, g.name ≠ other → returned.held.get? other = s.table.held.get? other) ∧
      (s.draws < UInt64.size → s.table.held.get? g.name ≠ some ⟨g.token, g.expiresAt⟩ →
        returned = s.table) := by
  intro s answer after
  refine ⟨LeaseTable.isHeld_iff, LeaseTable.overflow_iff, ?_, ?_, ?_, ?_, ?_⟩
  · intro hlater
    rw [LeaseTable.granted_iff]
    exact and_iff_right hlater
  · intro token tookOver hgranted
    obtain ⟨rfl, hheld⟩ := LeaseTable.held_of_granted hgranted
    constructor
    · intro other
      rw [hheld, NameMap.get?_insert]
    · exact (counts_start start₀).next_notMem_tokens
  · intro hrefused
    have hheld := LeaseTable.held_of_not_granted hrefused
    refine ⟨hheld, ?_⟩
    intro other now' lease' hlater
    rw [LeaseTable.granted_iff_of_held_eq hheld]
    exact and_iff_right hlater
  · rintro rfl
    exact exists_acquire start₀ moves name lease
  · intro g hg returned
    refine ⟨?_, ?_, ?_⟩
    · intro hentry
      rw [show returned = _ from giveBack_of_entry hentry]
      exact NameMap.get?_erase_self _ _
    · intro other hne
      exact LeaseTable.get?_release_of_ne s.table hne g.token
    · intro hlt
      have hreachable : s.Reachable := ⟨start₀, moves, rfl⟩
      exact (hreachable.sound hlt).giveBack_of_ne hg

/-- A lease that expires at the instant of the next request for its name is taken over; after
that another name is free, and the return of the old lease changes nothing. -/
theorem decided_takeover :
    let moves : List Move := [.read 0 "sync" ⟨5⟩, .draw 0, .enter 0, .pass ⟨5⟩,
      .read 1 "sync" ⟨5⟩, .draw 1, .enter 1]
    let s := (start ⟨0⟩).run moves
    let stale : Grant := ⟨"sync", 0, ⟨5⟩⟩
    s.draws < UInt64.size ∧ stale ∈ s.grants ∧
      (s.table.tryAcquire "export" ⟨5⟩ ⟨7⟩).1 = .granted 2 false ∧
      2 ∉ tokens moves (start ⟨0⟩) ∧
      s.table.giveBack (.attached stale.name stale.token) = s.table := by
  intro moves s stale
  have hlt : s.draws < UInt64.size := by decide
  have hstale : stale ∈ s.grants := by decide
  have hgranted : (s.table.tryAcquire "export" ⟨5⟩ ⟨7⟩).1 = .granted 2 false := by decide
  obtain ⟨-, -, -, hnew, -, -, hreturn⟩ := decided ⟨0⟩ moves "export" ⟨5⟩ ⟨7⟩
  exact ⟨hlt, hstale, hgranted, (hnew 2 false hgranted).2 hlt,
    (hreturn stale hstale).2.2 hlt (by decide)⟩

end LockSystem

end JobSupervisor
