import JobSupervisor.Host.Shell.Syntax

/-!
# The tokens of shell scripts

A script is cut into words, operators, and redirection operators.  A text that cannot be
cut is a mistake, which has a text of its own.

## Main definitions

* `Token`, `tokens` — the tokens of a script.
* `Mistake` — what is wrong with a script.
-/

namespace JobSupervisor.Host.Shell

/-- A token of a script. -/
inductive Token where
  | word (w : Word)
  | operator (s : String)
  | redirection (descriptor : Option Nat) (operator : String)
  deriving DecidableEq, Repr

/-- What is wrong with a script: a text that cannot be cut, or tokens at a place where they
cannot stand, perhaps with the token that should. -/
inductive Mistake where
  | lexical (text : String)
  | unexpected (found : List Token) (expected : Option String)
  deriving Repr

/-- What is read from a script. -/
abbrev Reading (α : Type) := Except Mistake α

/-- A quotation without an end. -/
def Mistake.unterminated : Mistake := .lexical "Unterminated quoted string"

/-- Whether a character ends a word. -/
def endsWord (c : Char) : Bool :=
  [' ', '\t', '\n', ';', '&', '|', '(', ')', '<', '>'].contains c

/-- Whether a character may stand in a name. -/
def isNameChar (c : Char) : Bool := c.isAlphanum || c = '_'

/-- The text up to the bracket that closes the one before it, and what follows. -/
def enclosed? (opening closing : Char) : Nat → List Char → Option (List Char × List Char)
  | _, [] => none
  | depth, c :: rest =>
      if c = closing then
        match depth with
        | 0 => some ([], rest)
        | d + 1 => (enclosed? opening closing d rest).map fun (a, b) => (c :: a, b)
      else
        let depth := if c = opening then depth + 1 else depth
        (enclosed? opening closing depth rest).map fun (a, b) => (c :: a, b)

/-- The text up to a bracket, or a mistake. -/
def enclosed (opening closing : Char) (mistake : Mistake) (cs : List Char) :
    Reading (List Char × List Char) :=
  match enclosed? opening closing 0 cs with
  | some found => .ok found
  | none => .error mistake

/-- The text of an expression that stands in two pairs of parentheses, if it does. -/
def inParentheses? (cs : List Char) : Option String :=
  match cs, cs.reverse with
  | '(' :: _, ')' :: _ => some (String.ofList (cs.drop 1).dropLast)
  | _, _ => none

/-- The form after the name of a parameter in braces. -/
def formOf (cs : List Char) : Form :=
  let (ifEmpty, cs) := match cs with
    | ':' :: rest => (true, rest)
    | cs => (false, cs)
  match cs with
  | '-' :: rest => .fallback ifEmpty (String.ofList rest)
  | '=' :: rest => .assigned ifEmpty (String.ofList rest)
  | '+' :: rest => .alternative ifEmpty (String.ofList rest)
  | '?' :: rest => .required ifEmpty (String.ofList rest)
  | '#' :: '#' :: rest => .withoutStart true (String.ofList rest)
  | '#' :: rest => .withoutStart false (String.ofList rest)
  | '%' :: '%' :: rest => .withoutEnd true (String.ofList rest)
  | '%' :: rest => .withoutEnd false (String.ofList rest)
  | [] => if ifEmpty then .senseless else .plain
  | _ => .senseless

/-- The parameter in braces. -/
def braced (quoted : Bool) (cs : List Char) : Part :=
  match cs with
  | '#' :: c :: rest => .length quoted (String.ofList (c :: rest))
  | cs =>
      let name := if (cs.head?.map isNameChar).getD false then cs.takeWhile isNameChar
        else cs.take 1
      .parameter quoted (String.ofList name) (formOf (cs.drop name.length))

/-- The part after a dollar sign, and what follows. -/
def dollar (quoted : Bool) (cs : List Char) : Reading (Part × List Char) :=
  match cs with
  | '(' :: rest => do
      let mistake : Mistake := if rest.head? = some '(' then .lexical "Missing '))'"
        else .unexpected [] (some "\")\"")
      let (inner, rest) ← enclosed '(' ')' mistake rest
      match inParentheses? inner with
      | some e => return (.arithmetic quoted e, rest)
      | none => return (.output quoted (String.ofList inner), rest)
  | c :: rest =>
      if c = '\x7b' then do
        let (inner, rest) ← enclosed '\x7b' '\x7d' (.lexical "Missing '\x7d'") rest
        return (braced quoted inner, rest)
      else if c.isDigit || ['?', '#', '$', '*', '@', '!', '-'].contains c then
        .ok (.parameter quoted (String.singleton c) .plain, rest)
      else if isNameChar c then
        let name := (c :: rest).takeWhile isNameChar
        .ok (.parameter quoted (String.ofList name) .plain, (c :: rest).dropWhile isNameChar)
      else .ok (.text quoted "$", cs)
  | [] => .ok (.text quoted "$", [])

/-- The script in backquotes, and what follows. -/
def backquoted (quoted : Bool) (cs : List Char) : Reading (Part × List Char) := do
  let (inner, rest) ← enclosed '\x60' '\x60' (.lexical "EOF in backquote substitution") cs
  return (.output quoted (String.ofList inner), rest)

/-- The parts of a text in double quotes, and what follows the closing one. -/
def doubleQuoted : Nat → List Char → Reading (Word × List Char)
  | 0, _ | _, [] => .error .unterminated
  | _ + 1, '"' :: rest => .ok ([], rest)
  | fuel + 1, '\\' :: c :: rest => do
      let (w, rest) ← doubleQuoted fuel rest
      if c = '\n' then return (w, rest)
      let s := if ['"', '\\', '$', '\x60'].contains c then [c] else ['\\', c]
      return (.text true (String.ofList s) :: w, rest)
  | fuel + 1, c :: rest => do
      let (p, rest) ← if c = '$' then dollar true rest
        else if c = '\x60' then backquoted true rest
        else .ok (.text true (String.singleton c), rest)
      let (w, rest) ← doubleQuoted fuel rest
      return (p :: w, rest)

/-- The word at the front, and what follows. -/
def word : Nat → List Char → Reading (Word × List Char)
  | 0, cs => .ok ([], cs)
  | _ + 1, [] => .ok ([], [])
  | fuel + 1, '\'' :: rest => do
      let inner := rest.takeWhile (· ≠ '\'')
      match rest.drop inner.length with
      | _ :: rest => do
          let (w, rest) ← word fuel rest
          return (.text true (String.ofList inner) :: w, rest)
      | [] => .error .unterminated
  | fuel + 1, '"' :: rest => do
      let (inner, rest) ← doubleQuoted (rest.length + 1) rest
      let (w, rest) ← word fuel rest
      return (.text true "" :: inner ++ w, rest)
  | fuel + 1, '\\' :: '\n' :: rest => word fuel rest
  | fuel + 1, '\\' :: c :: rest => do
      let (w, rest) ← word fuel rest
      return (.text true (String.singleton c) :: w, rest)
  | fuel + 1, c :: rest =>
      if endsWord c then .ok ([], c :: rest)
      else do
        let (p, rest) ← if c = '$' then dollar false rest
          else if c = '\x60' then backquoted false rest
          else .ok (.text false (String.singleton c), rest)
        let (w, rest) ← word fuel rest
        return (p :: w, rest)

/-- The operators that separate commands, longer ones first. -/
def operators : List String := ["&&", "||", ";;", ";", "&", "|", "(", ")", "\n"]

/-- The operators of redirections, longer ones first. -/
def redirectionOperators : List String := [">>", ">&", "<&", ">|", ">", "<"]

/-- The first of some operators that stands at the front, and what follows. -/
def operatorAt (among : List String) (cs : List Char) : Option (String × List Char) :=
  (among.find? fun s => s.toList.isPrefixOf cs).map fun s => (s, cs.drop s.length)

/-- A redirection operator with its descriptor, and what follows. -/
def redirectionAt (cs : List Char) : Option (Token × List Char) :=
  let ds := cs.takeWhile Char.isDigit
  (operatorAt redirectionOperators (cs.dropWhile Char.isDigit)).map fun (s, rest) =>
    (.redirection (String.ofList ds).toNat? s, rest)

/-- The tokens of some characters. -/
def tokensOf : Nat → List Char → Reading (List Token)
  | 0, _ | _, [] => .ok []
  | fuel + 1, ' ' :: rest | fuel + 1, '\t' :: rest | fuel + 1, '\\' :: '\n' :: rest =>
      tokensOf fuel rest
  | fuel + 1, '#' :: rest => tokensOf fuel (rest.dropWhile (· ≠ '\n'))
  | fuel + 1, cs =>
      match redirectionAt cs with
      | some (t, rest) => (tokensOf fuel rest).map (t :: ·)
      | none =>
          match operatorAt operators cs with
          | some (s, rest) => (tokensOf fuel rest).map (.operator s :: ·)
          | none => do
              let (w, rest) ← word (cs.length + 1) cs
              let ts ← tokensOf fuel rest
              return .word w :: ts

/-- The tokens of a script. -/
def tokens (script : String) : Reading (List Token) :=
  tokensOf (script.length + 1) script.toList

/-- The text of a word without quotes and expansions, if it is one. -/
def plain? (w : Word) : Option String :=
  (w.mapM fun p => match p with
    | Part.text false s => some s
    | _ => none).map String.join

/-- The words that have a meaning of their own where a command may begin. -/
def reservedWords : List String := ["if", "then", "else", "elif", "fi", "while", "until", "for",
  "do", "done", "case", "esac", "in", "\x7b", "\x7d", "!"]

/-- How a token is named in a mistake. -/
def Token.shown : Token → String
  | .operator "\n" => "newline"
  | .operator s => "\"" ++ s ++ "\""
  | .redirection .. => "redirection"
  | .word w =>
      match plain? w with
      | some s => if reservedWords.contains s then "\"" ++ s ++ "\"" else "word"
      | none => "word"

/-- The text of a mistake. -/
def Mistake.message : Mistake → String
  | .lexical text => "Syntax error: " ++ text
  | .unexpected found expected =>
      let place := match found with
        | [] => "end of file"
        | t :: _ => t.shown
      "Syntax error: " ++ place ++ " unexpected" ++ match expected with
        | some e => " (expecting " ++ e ++ ")"
        | none => ""

end JobSupervisor.Host.Shell
