import JobSupervisor.NameMap
import JobSupervisor.Text.Blank

/-!
# The diagnostic context of a thread

Every thread has a map of diagnostics and a count of open scopes.  The outermost scope
puts a correlation identifier into the diagnostics, and closing it takes the identifier
out again; scopes in between keep the identifier of the outermost one.  Closing without
an open scope does nothing.

## Main definitions

* `Context` — the diagnostics of a thread and the depth of its scopes.
* `Context.enter`, `Context.exit` — opening and closing a scope.
* `Context.current` — the identifier in effect.
-/

namespace JobSupervisor.Context

/-- The key of the diagnostics under which the correlation identifier lies. -/
def correlationKey : String := "correlation_id"

/-- The identifier that a caller supplied, if something is left of it after trimming. -/
def usable? : Option String → Option String
  | some text =>
      let trimmed := Text.trim text
      if trimmed.isEmpty then none else some trimmed
  | none => none

end JobSupervisor.Context

namespace JobSupervisor

/-- The diagnostics of a thread and the number of its open scopes. -/
structure Context where
  depth : Nat
  diagnostics : NameMap String

namespace Context

/-- The context of a thread that has done nothing yet. -/
def initial : Context := ⟨0, .empty⟩

/-- Whether opening a scope takes a fresh identifier from the supply. -/
def drawsFresh (c : Context) (supplied : Option String) : Bool :=
  c.depth = 0 && (usable? supplied).isNone

/-- Opens a scope.  At depth zero the identifier becomes the supplied one if it is usable
and the fresh one otherwise, and the answer is `true`. -/
def enter (c : Context) (supplied : Option String) (fresh : String) : Bool × Context :=
  if c.depth = 0 then
    (true, ⟨1, c.diagnostics.insert correlationKey ((usable? supplied).getD fresh)⟩)
  else (false, { c with depth := c.depth + 1 })

/-- Closes a scope.  The answer is `true` when the depth came back to zero. -/
def exit (c : Context) : Bool × Context :=
  match c.depth with
  | 0 => (false, c)
  | 1 => (true, ⟨0, c.diagnostics.erase correlationKey⟩)
  | n + 2 => (false, { c with depth := n + 1 })

/-- The identifier in effect. -/
def current (c : Context) : Option String :=
  c.diagnostics.get? correlationKey

/-- The identifier of an open scope, empty if there is none. -/
def currentText (c : Context) : String := c.current.getD ""

/-- Sets a diagnostic. -/
def put (c : Context) (key value : String) : Context :=
  { c with diagnostics := c.diagnostics.insert key value }

/-- Removes a diagnostic; the answer is its value. -/
def remove (c : Context) (key : String) : Option String × Context :=
  (c.diagnostics.get? key, { c with diagnostics := c.diagnostics.erase key })

/-- The diagnostics in ascending order of the keys. -/
def snapshot (c : Context) : List (String × String) := c.diagnostics.toList

@[simp] theorem depth_put (c : Context) (key value : String) :
    (c.put key value).depth = c.depth := rfl

@[simp] theorem depth_remove (c : Context) (key : String) :
    (c.remove key).2.depth = c.depth := rfl

/-- Opening a scope adds one to the depth. -/
@[simp] theorem depth_enter (c : Context) (supplied : Option String) (fresh : String) :
    (c.enter supplied fresh).2.depth = c.depth + 1 := by
  by_cases h : c.depth = 0 <;> simp [enter, h]

/-- Closing a scope takes one from the depth, down to zero. -/
@[simp] theorem depth_exit (c : Context) : c.exit.2.depth = c.depth - 1 := by
  unfold exit
  split <;> simp_all

/-- The outermost scope decides the identifier. -/
theorem current_enter_outermost {c : Context} (h : c.depth = 0) (supplied : Option String)
    (fresh : String) :
    (c.enter supplied fresh).2.current = some ((usable? supplied).getD fresh) := by
  simp [enter, h, current]

/-- A scope within another one keeps the identifier. -/
theorem current_enter_inner {c : Context} (h : c.depth ≠ 0) (supplied : Option String)
    (fresh : String) : (c.enter supplied fresh).2.current = c.current := by
  simp [enter, h, current]

/-- Closing the outermost scope takes the identifier away. -/
theorem current_exit_outermost {c : Context} (h : c.depth = 1) : c.exit.2.current = none := by
  simp [exit, h, current]

/-- Closing a scope within another one keeps the identifier. -/
theorem current_exit_inner {c : Context} (h : c.depth ≠ 1) :
    c.exit.2.current = c.current := by
  unfold exit
  split
  · rfl
  · contradiction
  · rfl

end Context

end JobSupervisor
