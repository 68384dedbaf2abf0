/-!
# Patterns of the shell

In a pattern an asterisk stands for any characters, a question mark for one, and brackets
for one of a set, unless they are quoted.

## Main definitions

* `Pattern.matches` — whether a pattern matches a whole text.
* `Pattern.withoutStart`, `Pattern.withoutEnd` — what is left beside a match.
-/

namespace JobSupervisor.Host.Shell

/-- The items of a pattern. -/
inductive Pattern.Item where
  | literal (c : Char)
  | anything
  | one
  | oneOf (negated : Bool) (ranges : List (Char × Char))
  deriving DecidableEq, Repr

/-- A pattern. -/
abbrev Pattern := List Pattern.Item

namespace Pattern

/-- The ranges of a set. -/
def ranges : List Char → List (Char × Char)
  | a :: '-' :: b :: rest => (a, b) :: ranges rest
  | a :: rest => (a, a) :: ranges rest
  | [] => []

/-- A character and whether it is quoted. -/
abbrev Marked := Bool × Char

/-- The set in brackets, and what follows; a closing bracket at the front belongs to it. -/
def set? (cs : List Marked) : Option (Item × List Marked) :=
  let isPlain (c : Char) (m : Marked) : Bool := m = (false, c)
  let (negated, cs) := match cs with
    | (false, '!') :: rest => (true, rest)
    | cs => (false, cs)
  let (first, cs) := match cs with
    | (false, ']') :: rest => ([']'], rest)
    | cs => ([], cs)
  let inner := cs.takeWhile fun m => !isPlain ']' m
  match cs.drop inner.length with
  | _ :: rest => some (.oneOf negated (ranges (first ++ inner.map Prod.snd)), rest)
  | [] => none

/-- The pattern of some characters, of which quoted ones match only themselves. -/
def ofMarked : Nat → List Marked → Pattern
  | 0, _ | _, [] => []
  | fuel + 1, (false, '*') :: rest => .anything :: ofMarked fuel rest
  | fuel + 1, (false, '?') :: rest => .one :: ofMarked fuel rest
  | fuel + 1, (false, '[') :: rest =>
      match set? rest with
      | some (item, rest) => item :: ofMarked fuel rest
      | none => .literal '[' :: ofMarked fuel rest
  | fuel + 1, (false, '\\') :: (_, c) :: rest | fuel + 1, (_, c) :: rest =>
      .literal c :: ofMarked fuel rest

/-- The characters of a text. -/
def mark (quoted : Bool) (s : String) : List Marked := s.toList.map fun c => (quoted, c)

/-- The pattern of characters. -/
def ofChars (cs : List Marked) : Pattern := ofMarked (cs.length + 1) cs

/-- Whether an item matches a character. -/
def Item.matchesChar (i : Item) (c : Char) : Bool :=
  match i with
  | .literal d => c = d
  | .anything | .one => true
  | .oneOf negated rs => (rs.any fun (a, b) => a ≤ c && c ≤ b) != negated

/-- Whether a pattern matches all of some characters. -/
def matchesChars (p : Pattern) (cs : List Char) : Bool :=
  match p, cs with
  | [], cs => cs.isEmpty
  | .anything :: p, [] => matchesChars p []
  | .anything :: p, c :: cs => matchesChars p (c :: cs) || matchesChars (.anything :: p) cs
  | _ :: _, [] => false
  | i :: p, c :: cs => i.matchesChar c && matchesChars p cs
termination_by p.length + cs.length

/-- Whether a pattern matches a whole text. -/
def matchesText (p : Pattern) (s : String) : Bool := p.matchesChars s.toList

/-- The lengths from none to all of some characters, the greatest first if `longest`. -/
def lengths (longest : Bool) (cs : List Char) : List Nat :=
  let up := List.range (cs.length + 1)
  if longest then up.reverse else up

/-- A text without the shortest or longest match at its start. -/
def withoutStart (longest : Bool) (p : Pattern) (s : String) : String :=
  let cs := s.toList
  match (lengths longest cs).find? fun n => p.matchesChars (cs.take n) with
  | some n => String.ofList (cs.drop n)
  | none => s

/-- A text without the shortest or longest match at its end. -/
def withoutEnd (longest : Bool) (p : Pattern) (s : String) : String :=
  let cs := s.toList
  match (lengths longest cs).find? fun n => p.matchesChars (cs.drop (cs.length - n)) with
  | some n => String.ofList (cs.take (cs.length - n))
  | none => s

end Pattern

end JobSupervisor.Host.Shell
