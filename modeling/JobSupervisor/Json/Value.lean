import JobSupervisor.NameMap
import JobSupervisor.Text.Quoted

/-!
# JSON values and their texts

Values keep the members of an object in the order in which they are listed and numbers in
the text in which they are written.  The compact text has no spaces; the indented text
lists the members of an object in ascending order of the names, one on each line.

## Main definitions

* `Json` — the values.
* `Json.compact` — the text without spaces, in the order of the members.
* `Json.indented` — the text over several lines, with sorted members.
-/

namespace JobSupervisor

/-- A JSON value. -/
inductive Json where
  | null
  | bool (b : Bool)
  | number (text : String)
  | string (s : String)
  | array (items : List Json)
  | object (members : List (String × Json))
  deriving Repr

namespace Json

instance : Inhabited Json := ⟨.null⟩

/-- A number of two hexadecimal digits. -/
def twoDigits (n : Nat) : String :=
  String.ofList [Nat.digitChar (n / 16 % 16), Nat.digitChar (n % 16)]

/-- How a character is written inside a JSON string. -/
def escapedChar (c : Char) : String :=
  if c = '"' then "\\\""
  else if c = '\\' then "\\\\"
  else if c = '\n' then "\\n"
  else if c = '\r' then "\\r"
  else if c = '\t' then "\\t"
  else if c.toNat = 8 then "\\b"
  else if c.toNat = 12 then "\\f"
  else if c.toNat < 0x20 then "\\u00" ++ twoDigits c.toNat
  else String.singleton c

/-- A text as a JSON string. -/
def escaped (s : String) : String :=
  "\"" ++ String.join (s.toList.map escapedChar) ++ "\""

/-- The name and the text of a member. -/
def memberText (name text : String) : String := escaped name ++ ":" ++ text

mutual

/-- The text without spaces. -/
def compact : Json → String
  | .null => "null"
  | .bool b => if b then "true" else "false"
  | .number text => text
  | .string s => escaped s
  | .array items => "[" ++ String.intercalate "," (compactItems items) ++ "]"
  | .object members => "\x7b" ++ String.intercalate "," (compactMembers members) ++ "\x7d"

/-- The texts of the items of an array. -/
def compactItems : List Json → List String
  | [] => []
  | x :: rest => compact x :: compactItems rest

/-- The texts of the members of an object. -/
def compactMembers : List (String × Json) → List String
  | [] => []
  | (name, x) :: rest => memberText name (compact x) :: compactMembers rest

end

/-- A line break followed by the indentation of a nesting depth. -/
def lineBreak (depth : Nat) : String :=
  "\n" ++ String.ofList (List.replicate (2 * depth) ' ')

/-- Items on lines of their own between an opening and a closing bracket. -/
def bracketed (opening closing : String) (depth : Nat) (items : List String) : String :=
  if items.isEmpty then opening ++ closing
  else
    opening ++ lineBreak (depth + 1) ++
      String.intercalate ("," ++ lineBreak (depth + 1)) items ++ lineBreak depth ++ closing

mutual

/-- The text over several lines at a nesting depth. -/
def indentedAt (depth : Nat) : Json → String
  | .null => "null"
  | .bool b => if b then "true" else "false"
  | .number text => text
  | .string s => escaped s
  | .array items => bracketed "[" "]" depth (indentedItems (depth + 1) items)
  | .object members =>
      bracketed "\x7b" "\x7d" depth
        ((indentedMembers (depth + 1) members).toList.map fun e => escaped e.1 ++ ": " ++ e.2)

/-- The texts of the items of an array. -/
def indentedItems (depth : Nat) : List Json → List String
  | [] => []
  | x :: rest => indentedAt depth x :: indentedItems depth rest

/-- The texts of the members of an object by name; of members with one name the last one
counts. -/
def indentedMembers (depth : Nat) : List (String × Json) → NameMap String
  | [] => .empty
  | (name, x) :: rest =>
      let later := indentedMembers depth rest
      if later.contains name then later else later.insert name (indentedAt depth x)

end

/-- The text over several lines. -/
def indented (j : Json) : String := indentedAt 0 j

end Json

end JobSupervisor
