/-!
# Shell arithmetic

Expressions over integers with the usual operators, of which the left one of two with
equal precedence is applied first.  A name stands for the value of the variable.

## Main definitions

* `evaluate?` — the value of an expression.
-/

namespace JobSupervisor.Host.Shell.Arithmetic

/-- The binary operators, those that bind least first; of two with one beginning the
longer one stands first. -/
def levels : List (List String) := [
  ["||"], ["&&"], ["==", "!="], ["<=", ">=", "<", ">"], ["+", "-"], ["*", "/", "%"]]

/-- What follows the white space at the front. -/
def skipSpace (cs : List Char) : List Char := cs.dropWhile Char.isWhitespace

/-- One and zero for the truth values. -/
def ofBool (b : Bool) : Int := if b then 1 else 0

/-- A binary operator; there is no quotient by zero. -/
def apply (operator : String) (a b : Int) : Option Int :=
  match operator with
  | "||" => some (ofBool (a ≠ 0 || b ≠ 0))
  | "&&" => some (ofBool (a ≠ 0 && b ≠ 0))
  | "==" => some (ofBool (a = b))
  | "!=" => some (ofBool (a ≠ b))
  | "<=" => some (ofBool (a ≤ b))
  | ">=" => some (ofBool (b ≤ a))
  | "<" => some (ofBool (a < b))
  | ">" => some (ofBool (b < a))
  | "+" => some (a + b)
  | "-" => some (a - b)
  | "*" => some (a * b)
  | "/" => if b = 0 then none else some (a.tdiv b)
  | "%" => if b = 0 then none else some (a.tmod b)
  | _ => none

/-- Whether a character may stand in a name or a number. -/
def isAtomChar (c : Char) : Bool := c.isAlphanum || c = '_'

/-- The value of a text that names a variable or is a number. -/
def atom? (value : String → String) (s : String) : Option Int :=
  match s.toInt? with
  | some n => some n
  | none =>
      if s.isEmpty || s.front.isDigit then none
      else
        let v := value s
        if v.isEmpty then some 0 else v.toInt?

mutual

/-- An expression with the operators of some levels. -/
def level? (value : String → String) : Nat → List (List String) → List Char →
    Option (Int × List Char)
  | 0, _, _ => none
  | fuel + 1, [], cs => unary? value fuel (skipSpace cs)
  | fuel + 1, ops :: higher, cs => do
      let (a, rest) ← level? value fuel higher cs
      levelRest? value fuel ops higher a rest

/-- The rest of an expression after its first operand. -/
def levelRest? (value : String → String) : Nat → List String → List (List String) → Int →
    List Char → Option (Int × List Char)
  | 0, _, _, _, _ => none
  | fuel + 1, ops, higher, a, cs =>
      let cs := skipSpace cs
      match ops.find? fun o => o.toList.isPrefixOf cs with
      | none => some (a, cs)
      | some o => do
          let (b, rest) ← level? value fuel higher (cs.drop o.length)
          let c ← apply o a b
          levelRest? value fuel ops higher c rest

/-- An operand, perhaps after signs. -/
def unary? (value : String → String) : Nat → List Char → Option (Int × List Char)
  | 0, _ => none
  | fuel + 1, cs =>
      match cs with
      | '-' :: rest => do
          let (a, rest) ← unary? value fuel (skipSpace rest)
          return (-a, rest)
      | '+' :: rest => unary? value fuel (skipSpace rest)
      | '!' :: rest => do
          let (a, rest) ← unary? value fuel (skipSpace rest)
          return (ofBool (a = 0), rest)
      | '(' :: rest => do
          let (a, rest) ← level? value fuel levels rest
          match skipSpace rest with
          | ')' :: rest => return (a, rest)
          | _ => none
      | '$' :: rest => unary? value fuel rest
      | cs => do
          let a ← atom? value (String.ofList (cs.takeWhile isAtomChar))
          return (a, cs.dropWhile isAtomChar)

end

/-- The value of an expression; the empty one is zero. -/
def evaluate? (value : String → String) (expression : String) : Option Int :=
  let cs := skipSpace expression.toList
  if cs.isEmpty then some 0
  else
    match level? value (20 * cs.length + 20) levels cs with
    | some (n, rest) => if (skipSpace rest).isEmpty then some n else none
    | none => none

end JobSupervisor.Host.Shell.Arithmetic
