import JobSupervisor.Decimal.Binary64

/-!
# TOML documents

A document is a table of values.  While a text is read, tables are still being built, and
it matters how a table came about: by a header, implicitly on the way to another table,
or by a dotted key.  The building rules of TOML forbid to define a table twice and to
extend a finished value.

## Main definitions

* `Value` — the values of a finished document.
* `Item` — a value or table while the document is built.
* `Builder` — the document so far and the table that is being filled.
* `Builder.openTable`, `Builder.openElement`, `Builder.assign` — the three kinds of lines.
-/

namespace JobSupervisor.Toml

/-- The values of a document.  Dates and times are not told apart. -/
inductive Value where
  | string (s : String)
  | integer (n : Int)
  | float (x : Decimal.Binary64)
  | boolean (b : Bool)
  | datetime
  | array (items : List Value)
  | table (entries : List (String × Value))
  deriving Repr

/-- How a table came about. -/
inductive Origin where
  /-- A header or an inline table. -/
  | defined
  /-- A header of a table further down. -/
  | passed
  /-- A dotted key. -/
  | dotted
  deriving DecidableEq, Repr

/-- A part of a document under construction. -/
inductive Item where
  | value (v : Value)
  | table (origin : Origin) (entries : List (String × Item))
  | elements (tables : List Item)

/-- The entries of a table in the order of their first appearance. -/
abbrev Entries := List (String × Item)

namespace Entries

/-- The entry of a key. -/
def get? (es : Entries) (key : String) : Option Item :=
  (es.find? (·.1 = key)).map Prod.snd

/-- Replaces the entry of a key in its place, or adds it at the end. -/
def set (es : Entries) (key : String) (i : Item) : Entries :=
  if es.any (·.1 = key) then es.map fun e => if e.1 = key then (key, i) else e
  else es ++ [(key, i)]

/-- The entries without a key. -/
def remove (es : Entries) (key : String) : Entries := es.filter (·.1 ≠ key)

end Entries

mutual

/-- The finished value of an item. -/
def Item.finish : Item → Value
  | .value v => v
  | .table _ es => .table (finishEntries es)
  | .elements ts => .array (finishItems ts)

/-- The finished values of items. -/
def finishItems : List Item → List Value
  | [] => []
  | i :: rest => i.finish :: finishItems rest

/-- The finished values of entries. -/
def finishEntries : List (String × Item) → List (String × Value)
  | [] => []
  | (k, i) :: rest => (k, i.finish) :: finishEntries rest

end

/-- A table that a path leads to, as a change of the tables above it needs it. -/
structure Spot where
  origin : Origin
  entries : Entries

/-- Walks down a path from a table, creating missing tables, and changes the table at its
end.  A path of headers may pass through every table and through the last element of an
array of tables; a dotted key may not pass through a table that a header defined. -/
def descend {α : Type} (dotted : Bool) (change : Spot → Option (α × Entries)) :
    List String → Spot → Option (α × Entries)
  | [], spot => change spot
  | key :: path, spot =>
      match (spot.entries.get? key).getD (.table (if dotted then .dotted else .passed) []) with
      | .value _ => none
      | .table origin es =>
          if dotted && origin = .defined then none
          else
            (descend dotted change path ⟨origin, es⟩).map fun (a, es) =>
              (a, spot.entries.set key (.table origin es))
      | .elements ts =>
          match ts.reverse with
          | .table origin es :: before =>
              (descend dotted change path ⟨origin, es⟩).map fun (a, es) =>
                (a, spot.entries.set key (.elements (before.reverse ++ [.table origin es])))
          | _ => none

/-- Puts a value at a key that does not exist yet.  Behind a dotted key the table has to
stem from dotted keys, and a plain key may not reach into such a table. -/
def assignAt (plain : Bool) (key : String) (v : Item) (spot : Spot) :
    Option (Unit × Entries) :=
  if (spot.origin == .dotted) == plain then none
  else if (spot.entries.get? key).isSome then none
  else some ((), spot.entries ++ [(key, v)])

/-- The value of a key line within a table that is being filled. -/
def assignPath (path : List String) (v : Item) (es : Entries) : Option Entries :=
  match path.reverse with
  | [] => none
  | key :: above =>
      (descend true (assignAt above.isEmpty key v) above.reverse ⟨.defined, es⟩).map Prod.snd

/-- The table that is being filled: the root table before the first header, the table of
a header, or a new element of an array of tables. -/
inductive Filling where
  | root
  | header (path : List String)
  | element (path : List String)

/-- The document so far, the entries of the table that is being filled, and where that
table belongs. -/
structure Builder where
  root : Entries
  current : Entries
  filling : Filling

namespace Builder

/-- Nothing has been read. -/
def start : Builder := ⟨[], [], .root⟩

/-- Splits a path into the tables above and the last key. -/
def splitLast (path : List String) : Option (List String × String) :=
  match path.reverse with
  | [] => none
  | key :: above => some (above.reverse, key)

/-- Puts the table that was being filled into the document. -/
def close (b : Builder) : Option Entries :=
  match b.filling with
  | .root => some b.current
  | .header path => do
      let (above, key) ← splitLast path
      let add (spot : Spot) : Option (Unit × Entries) :=
        if (spot.entries.get? key).isSome then none
        else some ((), spot.entries ++ [(key, .table .defined b.current)])
      (descend false add above ⟨.defined, b.root⟩).map Prod.snd
  | .element path => do
      let (above, key) ← splitLast path
      let add (spot : Spot) : Option (Unit × Entries) :=
        match (spot.entries.get? key).getD (.elements []) with
        | .elements ts =>
            some ((), spot.entries.set key (.elements (ts ++ [.table .defined b.current])))
        | _ => none
      (descend false add above ⟨.defined, b.root⟩).map Prod.snd

/-- A header of a table.  A table that was only passed on the way to another one is taken
out of the document and filled further. -/
def openTable (b : Builder) (path : List String) : Option Builder := do
  let root ← b.close
  let (above, key) ← splitLast path
  let take (spot : Spot) : Option (Entries × Entries) :=
    match spot.entries.get? key with
    | none => some ([], spot.entries)
    | some (.table .passed es) => some (es, spot.entries.remove key)
    | some _ => none
  let (es, root) ← descend false take above ⟨.defined, root⟩
  return ⟨root, es, .header path⟩

/-- A header of an element of an array of tables. -/
def openElement (b : Builder) (path : List String) : Option Builder := do
  let root ← b.close
  let (above, key) ← splitLast path
  let check (spot : Spot) : Option (Unit × Entries) :=
    match (spot.entries.get? key).getD (.elements []) with
    | .elements ts => some ((), spot.entries.set key (.elements ts))
    | _ => none
  let (_, root) ← descend false check above ⟨.defined, root⟩
  return ⟨root, [], .element path⟩

/-- A key and its value. -/
def assign (b : Builder) (path : List String) (v : Value) : Option Builder :=
  (assignPath path (.value v) b.current).map fun es => { b with current := es }

/-- The finished document. -/
def finish (b : Builder) : Option Value :=
  b.close.map fun es => .table (finishEntries es)

end Builder

/-- The value of an inline table from its keys and values in order. -/
def inlineTable (pairs : List (List String × Value)) : Option Value :=
  (pairs.foldlM (fun es (path, v) => assignPath path (.value v) es) []).map fun es =>
    .table (finishEntries es)

end JobSupervisor.Toml
