import JobSupervisor.Proofs.RunVerdict
import JobSupervisor.Proofs.TextPrefixes
import JobSupervisor.Proofs.TrimmedTexts

/-!
# The reasons that failed commands leave

What a command fails with, for every way in which a host can start programs: any exit code, any
signal, and any bytes of error output.  The trimmed text of the output is cut to the limit
unless nothing is left of it, and then the exit status takes its place.

A reason has to survive the test for blank texts that a record makes.  A text that is not empty
after trimming begins with a character that is no white space, and the cut keeps the first
character; the other texts have a fixed part.  So no failure of a command is blank, and a run
within its budget leaves the text of the failure in the record as it is.

## Main definitions

* `Command.IsReason` — the text that a failed command gives as its reason.
* `Session.Body.ofCommand` — a job body that runs a command.
* `Session.Body.command_failure_reason` — what a command fails with, and what its run records.
-/

namespace JobSupervisor

/-! ## Texts that are not blank -/

namespace Text

/-- A trimmed text that was cut to four bytes or more is not blank. -/
theorem IsCut.not_isBlank {limit : Nat} {s m : String} (h : IsCut limit (trim s) m)
    (hlimit : 4 ≤ limit) (hs : trim s ≠ "") : ¬ IsBlank m := by
  obtain ⟨c, rest, hlist, hwhite⟩ := exists_head_trim hs
  intro hblank
  have := hblank c (h.head_mem hlimit hlist)
  simp [this] at hwhite

end Text

/-! ## Why a command failed -/

namespace Command

open Host (Completion ExitStatus)

/-- The text that is left of the error output of a process. -/
def errorText (c : Completion) : String := Text.trim (Text.Utf8.decodeLossy c.errors)

/-- The text that a failed command gives as its reason: the exit status if nothing is left of its
error output, and otherwise as much of that as fits into 512 bytes. -/
structure IsReason (program : String) (c : Completion) (m : String) : Prop where
  silent : errorText c = "" → m = program ++ " exited with " ++ c.status.text
  told : errorText c ≠ "" → Text.IsCut 512 (errorText c) m

variable {start : Starter} {program : String} {args : List String}

theorem reason_eq (program : String) (c : Completion) :
    reason program c.status c.errors =
      if (errorText c).isEmpty then program ++ " exited with " ++ c.status.text
      else Text.truncate 512 (errorText c) := rfl

theorem isReason_reason (program : String) (c : Completion) :
    IsReason program c (reason program c.status c.errors) := by
  rw [reason_eq]
  constructor
  · intro h
    rw [if_pos (String.isEmpty_iff.mpr h)]
  · intro h
    rw [if_neg (mt String.isEmpty_iff.mp h)]
    exact Text.isCut_truncate 512 (errorText c)

/-- **No reason of a failed command is blank.** -/
theorem IsReason.not_isBlank {c : Completion} {m : String} (h : IsReason program c m) :
    ¬ Text.IsBlank m := by
  by_cases htext : errorText c = ""
  · rw [h.silent htext]
    have hpart : ¬ Text.IsBlank " exited with " := by decide
    exact Text.not_isBlank_append_left (Text.not_isBlank_append_right program hpart) _
  · exact (h.told htext).not_isBlank (by decide) htext

theorem succeeded_iff (status : ExitStatus) : status.succeeded = true ↔ status = .code 0 := by
  simp [ExitStatus.succeeded]

/-! ## What a command comes to -/

theorem fst_runOn_of_error {e : Host.IoError} (h : start program args = .error e)
    (s : Supervisor) : (runOn start program args s).1 = .error (.io e) := by
  simp [runOn, h]

theorem fst_runOn_of_ok {c : Completion} {d : Duration} (h : start program args = .ok (c, d))
    (s : Supervisor) :
    (runOn start program args s).1 = result program c.status c.errors := by
  simp [runOn, h]

/-- A command succeeds exactly if its process ended with the exit code zero. -/
theorem result_eq_ok_iff (c : Completion) :
    result program c.status c.errors = .ok () ↔ c.status = .code 0 := by
  rw [result, ← succeeded_iff]
  split <;> simp_all

theorem result_of_failed {c : Completion} (h : c.status ≠ .code 0) :
    result program c.status c.errors = .error (.failed (reason program c.status c.errors)) := by
  rw [result, if_neg (by rwa [succeeded_iff])]

/-- What a command comes to does not depend on the supervisor. -/
theorem fst_runOn_eq (s s' : Supervisor) :
    (runOn start program args s).1 = (runOn start program args s').1 := by
  cases h : start program args with
  | error e => rw [fst_runOn_of_error h, fst_runOn_of_error h]
  | ok r => rw [fst_runOn_of_ok h, fst_runOn_of_ok h]

/-- **No error of a command has a blank text.** -/
theorem message_not_isBlank {s : Supervisor} {e : JobError}
    (h : (runOn start program args s).1 = .error e) : ¬ Text.IsBlank e.message := by
  cases hstart : start program args with
  | error io =>
      rw [fst_runOn_of_error hstart] at h
      obtain rfl := Except.error.inj h
      exact Text.not_isBlank_append_left (by decide) _
  | ok r =>
      obtain ⟨c, d⟩ := r
      rw [fst_runOn_of_ok hstart] at h
      have hfailed : c.status ≠ .code 0 := by
        intro hcode
        rw [(result_eq_ok_iff c).mpr hcode] at h
        contradiction
      rw [result_of_failed hfailed] at h
      obtain rfl := Except.error.inj h
      exact (isReason_reason program c).not_isBlank

end Command

/-! ## Runs of commands -/

namespace Session.Body

open Command

/-- How a job body that runs a command ends. -/
def commandEnding : Except JobError Unit → Ending Unit
  | .ok () => .value ()
  | .error e => .error e.message

/-- A job body that runs a command, and then lets time pass. -/
def ofCommand (start : Starter) (program : String) (args : List String) (pause : Duration) :
    Body Unit where
  act x :=
    let (r, x) := x.ask (runOn start program args)
    (commandEnding r, x.elapse pause)
  leads x := leads_of_registry_eq (by simp)

/-- The body of a configured job with a command is such a body. -/
theorem work_configured (name : String) {j : Config.JobEntry} {program : String}
    {args : List String} (h : j.command = program :: args) (x : Session) :
    work name (.configured j) x = (ofCommand Host.Program.run program args ⟨0⟩).act x := by
  have hbody : j.body = Command.run program args := by
    funext s
    simp [Config.JobEntry.body, h]
  simp only [work, hbody, ofCommand]
  rfl

variable {start : Starter} {program : String} {args : List String}

/-- The body ends as the command does, whatever the state it starts in. -/
theorem ending_ofCommand (pause : Duration) (job : Descriptor) (x : Session) (s : Supervisor) :
    (ofCommand start program args pause).ending job x =
      commandEnding (runOn start program args s).1 :=
  congrArg commandEnding (fst_runOn_eq _ s)

/-- A run within its budget around a command that fails leaves the text of the failure in the
record. -/
theorem snapshot_ofCommand {s : Supervisor} {e : JobError}
    (h : (runOn start program args s).1 = .error e) (pause : Duration) (job : Descriptor)
    {x : Session} (hx : x.supervisor.registry.Reachable)
    (hbudget : ¬ job.budget < (ofCommand start program args pause).elapsed job x) :
    ((ofCommand start program args pause).recordAfter job x).snapshot =
      ⟨.degraded, some e.message⟩ := by
  have hfailure : ((ofCommand start program args pause).ending job x).failure? =
      some e.message := by
    rw [ending_ofCommand pause job x s, h]
    rfl
  have hoverran : (ofCommand start program args pause).overran job x = false := by
    simpa [overran] using hbudget
  rw [recordAfter_eq _ job hx, hfailure, hoverran, Health.Record.after_closing_failed,
    Health.Record.snapshot_failed,
    Health.usableReason_of_not_isBlank (message_not_isBlank h)]

/-- **The reason of a failed command.**  On every host, a command that starts succeeds exactly if
its process ends with the exit code zero; otherwise it fails with the exit status or with what
fits of the error output.  No error of a command has a blank text, one that keeps it from
starting included, and every run within its budget leaves that very text in the record of its
job.  The body of a configured job with a command is one that runs it on the host. -/
theorem command_failure_reason (start : Starter) (program : String) (args : List String)
    (s : Supervisor) :
    (∀ e, start program args = .error e →
      (runOn start program args s).1 = .error (.io e)) ∧
    (∀ c d, start program args = .ok (c, d) →
      ((runOn start program args s).1 = .ok () ↔ c.status = .code 0) ∧
      (c.status ≠ .code 0 →
        ∃ m, (runOn start program args s).1 = .error (.failed m) ∧ IsReason program c m)) ∧
    (∀ e, (runOn start program args s).1 = .error e →
      ¬ Text.IsBlank e.message ∧
      ∀ (pause : Duration) (job : Descriptor) (x : Session),
        x.supervisor.registry.Reachable →
        ¬ job.budget < (ofCommand start program args pause).elapsed job x →
        ((ofCommand start program args pause).recordAfter job x).snapshot =
          ⟨.degraded, some e.message⟩) ∧
    (∀ (name : String) (j : Config.JobEntry), j.command = program :: args → ∀ x : Session,
      work name (.configured j) x = (ofCommand Host.Program.run program args ⟨0⟩).act x) := by
  refine ⟨?_, ?_, ?_, fun name j hcommand x => work_configured name hcommand x⟩
  · intro e h
    exact fst_runOn_of_error h s
  · intro c d h
    rw [fst_runOn_of_ok h]
    refine ⟨result_eq_ok_iff c, ?_⟩
    intro hfailed
    exact ⟨_, result_of_failed hfailed, isReason_reason program c⟩
  · intro e h
    refine ⟨message_not_isBlank h, ?_⟩
    intro pause job x hx hbudget
    exact snapshot_ofCommand h pause job hx hbudget

/-- A host on which every program ends with the exit code three after one second.  Its error
output is a space, a byte that is no character, the two bytes of `é`, and a line end. -/
def failingHost : Starter :=
  fun _ _ => .ok (⟨.code 3, [], [0x20, 0xFF, 0xC3, 0xA9, 0x0A]⟩, .ofSecs 1)

theorem command_failure_reason_ill_formed :
    ((ofCommand failingHost "sync" [] ⟨0⟩).recordAfter ⟨"sync", .ofSecs 60⟩
      Session.initial).snapshot = ⟨.degraded, some "\uFFFDé"⟩ := by
  have hx : Session.initial.supervisor.registry.Reachable := Health.Registry.Leads.refl _
  have hfailed : (runOn failingHost "sync" [] Supervisor.initial).1 =
      .error (.failed "\uFFFDé") := by
    decide +kernel
  have hbudget : ¬ (⟨"sync", .ofSecs 60⟩ : Descriptor).budget <
      (ofCommand failingHost "sync" [] ⟨0⟩).elapsed ⟨"sync", .ofSecs 60⟩ Session.initial := by
    decide +kernel
  obtain ⟨-, hrecord⟩ :=
    (command_failure_reason failingHost "sync" [] Supervisor.initial).2.2.1 _ hfailed
  exact hrecord ⟨0⟩ ⟨"sync", .ofSecs 60⟩ Session.initial hx hbudget

end Session.Body

end JobSupervisor
