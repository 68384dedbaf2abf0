import JobSupervisor.Toml.Number

/-!
# Reading TOML texts

A text is read line by line into a builder.  Values nest at most 79 levels deep, and a
dotted key has at most 79 parts.  A byte order mark at the very front is skipped; a
carriage return counts only as part of a line end.

## Main definitions

* `parse? text` — the document of a text, or nothing if the text is not TOML.
* `value?` — a value at the front of a text.
-/

namespace JobSupervisor.Toml

/-- The number of nesting levels, and of parts of a key, that is refused. -/
def depthLimit : Nat := 80

/-- What follows the spaces and tabs at the front. -/
def skipBlanks (cs : List Char) : List Char := cs.dropWhile fun c => c = ' ' || c = '\t'

/-- What follows a line end at the front. -/
def lineEnd? : List Char → Option (List Char)
  | '\n' :: rest => some rest
  | '\r' :: '\n' :: rest => some rest
  | _ => none

/-- Whether a character may stand in a comment. -/
def isCommentChar (c : Char) : Bool := c = '\t' || (0x20 ≤ c.toNat && c.toNat ≠ 0x7F)

/-- What follows a comment at the front, if there is one. -/
def skipComment : List Char → List Char
  | '#' :: rest => rest.dropWhile isCommentChar
  | cs => cs

/-- What follows blanks, an optional comment and the end of a line or of the text. -/
def restOfLine? (cs : List Char) : Option (List Char) :=
  match skipComment (skipBlanks cs) with
  | [] => some []
  | cs => lineEnd? cs

/-- What follows blanks, line ends and whole-line comments; `fuel` bounds the lines. -/
def skipLines : Nat → List Char → List Char
  | 0, cs => cs
  | fuel + 1, cs =>
      let cs := skipBlanks cs
      match lineEnd? (skipComment cs) with
      | some rest => skipLines fuel rest
      | none => cs

/-! ## Strings -/

/-- Whether a character may stand in a string as it is. -/
def isPlainChar (c : Char) : Bool := c = '\t' || (0x20 ≤ c.toNat && c.toNat ≠ 0x7F)

/-- The character of an escape of `n` hexadecimal digits. -/
def numberedChar (n : Nat) (cs : List Char) : Option (Char × List Char) :=
  let ds := cs.take n
  if ds.length = n ∧ ds.all isHexDigit then
    let v := numeral 16 ds
    if v < 0xD800 ∨ (0xDFFF < v ∧ v < 0x110000) then some (Char.ofNat v, cs.drop n) else none
  else none

/-- The character of an escape after its backslash. -/
def escape? : List Char → Option (Char × List Char)
  | 'b' :: rest => some (Char.ofNat 8, rest)
  | 't' :: rest => some ('\t', rest)
  | 'n' :: rest => some ('\n', rest)
  | 'f' :: rest => some (Char.ofNat 12, rest)
  | 'r' :: rest => some ('\r', rest)
  | '"' :: rest => some ('"', rest)
  | '\\' :: rest => some ('\\', rest)
  | 'u' :: rest => numberedChar 4 rest
  | 'U' :: rest => numberedChar 8 rest
  | _ => none

/-- A basic string after its quote, collected in reverse. -/
def basicString? : Nat → List Char → List Char → Option (String × List Char)
  | 0, _, _ => none
  | fuel + 1, acc, cs =>
      match cs with
      | '"' :: rest => some (String.ofList acc.reverse, rest)
      | '\\' :: rest =>
          match escape? rest with
          | some (c, rest) => basicString? fuel (c :: acc) rest
          | none => none
      | c :: rest => if isPlainChar c then basicString? fuel (c :: acc) rest else none
      | [] => none

/-- A literal string after its apostrophe. -/
def literalString? (cs : List Char) : Option (String × List Char) :=
  let body := cs.takeWhile fun c => isPlainChar c && c ≠ '\''
  match cs.dropWhile fun c => isPlainChar c && c ≠ '\'' with
  | '\'' :: rest => some (String.ofList body, rest)
  | _ => none

/-- What follows the line end right after the opening of a string over several lines. -/
def skipFirstLineEnd (cs : List Char) : List Char := (lineEnd? cs).getD cs

/-- The closing of a string over several lines: three quotes, before which one or two more
may belong to the string. -/
def closing? (quote : Char) (cs : List Char) : Option (List Char × List Char) :=
  let n := (cs.takeWhile (· = quote)).length
  if n < 3 then none
  else
    let own := min (n - 3) 2
    some (List.replicate own quote, cs.drop (own + 3))

/-- What follows the blanks and line ends after a backslash at the end of a line. -/
def continuation? (cs : List Char) : Option (List Char) :=
  (lineEnd? (skipBlanks cs)).map fun rest =>
    rest.dropWhile fun c => c = ' ' || c = '\t' || c = '\n' || c = '\r'

/-- Whether each carriage return of the first part of a text is followed by a line feed. -/
def carriageReturnsPaired : List Char → Bool
  | [] => true
  | '\r' :: '\n' :: rest => carriageReturnsPaired rest
  | '\r' :: _ => false
  | _ :: rest => carriageReturnsPaired rest

/-- A basic string over several lines after its opening, collected in reverse. -/
def longBasicString? : Nat → List Char → List Char → Option (String × List Char)
  | 0, _, _ => none
  | fuel + 1, acc, cs =>
      match closing? '"' cs with
      | some (own, rest) => some (String.ofList (acc.reverse ++ own), rest)
      | none =>
          match lineEnd? cs with
          | some rest => longBasicString? fuel ('\n' :: acc) rest
          | none =>
              match cs with
              | '\\' :: rest =>
                  match continuation? rest with
                  | some after =>
                      let skipped := rest.take (rest.length - after.length)
                      if carriageReturnsPaired skipped then longBasicString? fuel acc after
                      else none
                  | none =>
                      match escape? rest with
                      | some (c, rest) => longBasicString? fuel (c :: acc) rest
                      | none => none
              | c :: rest => if isPlainChar c then longBasicString? fuel (c :: acc) rest else none
              | [] => none

/-- A literal string over several lines after its opening, collected in reverse. -/
def longLiteralString? : Nat → List Char → List Char → Option (String × List Char)
  | 0, _, _ => none
  | fuel + 1, acc, cs =>
      match closing? '\'' cs with
      | some (own, rest) => some (String.ofList (acc.reverse ++ own), rest)
      | none =>
          match lineEnd? cs with
          | some rest => longLiteralString? fuel ('\n' :: acc) rest
          | none =>
              match cs with
              | c :: rest =>
                  if isPlainChar c then longLiteralString? fuel (c :: acc) rest else none
              | [] => none

/-- A string of any of the four forms. -/
def string? : List Char → Option (String × List Char)
  | '"' :: '"' :: '"' :: rest =>
      let body := skipFirstLineEnd rest
      longBasicString? (body.length + 1) [] body
  | '"' :: rest => basicString? (rest.length + 1) [] rest
  | '\'' :: '\'' :: '\'' :: rest =>
      let body := skipFirstLineEnd rest
      longLiteralString? (body.length + 1) [] body
  | '\'' :: rest => literalString? rest
  | _ => none

/-! ## Keys -/

/-- Whether a character may stand in a key without quotes. -/
def isKeyChar (c : Char) : Bool := c.isAlphanum || c = '_' || c = '-'

/-- One part of a key; a string over several lines is none. -/
def keyPart? : List Char → Option (String × List Char)
  | '"' :: rest => basicString? (rest.length + 1) [] rest
  | '\'' :: rest => literalString? rest
  | cs =>
      match cs.takeWhile isKeyChar with
      | [] => none
      | ds => some (String.ofList ds, cs.dropWhile isKeyChar)

/-- The parts of a key, which may be surrounded by blanks. -/
def keyParts? : Nat → List Char → Option (List String × List Char)
  | 0, _ => none
  | fuel + 1, cs => do
      let (part, rest) ← keyPart? (skipBlanks cs)
      match skipBlanks rest with
      | '.' :: rest => do
          let (parts, rest) ← keyParts? fuel rest
          return (part :: parts, rest)
      | rest => return ([part], rest)

/-- A key with fewer parts than the limit. -/
def key? (cs : List Char) : Option (List String × List Char) :=
  match keyParts? (cs.length + 1) cs with
  | some (parts, rest) => if parts.length < depthLimit then some (parts, rest) else none
  | none => none

/-! ## Values -/

/-- The values of an array after its opening bracket; a comma may follow the last one. -/
def arrayItems? (value : List Char → Option (Value × List Char)) :
    Nat → List Char → Option (List Value × List Char)
  | 0, _ => none
  | fuel + 1, cs =>
      match skipLines cs.length cs with
      | ']' :: rest => some ([], rest)
      | cs => do
          let (v, rest) ← value cs
          match skipLines rest.length rest with
          | ',' :: rest => do
              let (vs, rest) ← arrayItems? value fuel rest
              return (v :: vs, rest)
          | ']' :: rest => return ([v], rest)
          | _ => none

/-- The keys and values of an inline table after its opening brace; no comma may follow
the last one. -/
def tablePairs? (value : List Char → Option (Value × List Char)) :
    Nat → List Char → Option (List (List String × Value) × List Char)
  | 0, _ => none
  | fuel + 1, cs => do
      let (path, rest) ← key? cs
      match rest with
      | '=' :: rest => do
          let (v, rest) ← value (skipBlanks rest)
          match skipBlanks rest with
          | ',' :: rest => do
              let (ps, rest) ← tablePairs? value fuel rest
              return ((path, v) :: ps, rest)
          | c :: rest => if c = '\x7d' then return ([(path, v)], rest) else none
          | [] => none
      | _ => none

/-- A value at the front of a text; `depth` is the nesting that is still allowed. -/
def value? : Nat → List Char → Option (Value × List Char)
  | depth, cs =>
      match cs with
      | [] => none
      | c :: rest =>
          if c = '"' || c = '\'' then (string? cs).map fun (s, rest) => (.string s, rest)
          else if c = '[' then
            match depth with
            | 0 => none
            | depth + 1 =>
                (arrayItems? (value? depth) (rest.length + 1) rest).map
                  fun (vs, rest) => (.array vs, rest)
          else if c = '\x7b' then
            match depth with
            | 0 => none
            | depth + 1 =>
                match skipBlanks rest with
                | '\x7d' :: rest => some (.table [], rest)
                | _ => do
                    let (pairs, rest) ← tablePairs? (value? depth) (rest.length + 1) rest
                    let v ← inlineTable pairs
                    return (v, rest)
          else if c = '+' || c = '-' || c.isDigit then scalar? cs
          else
            match cs with
            | 't' :: 'r' :: 'u' :: 'e' :: rest => some (.boolean true, rest)
            | 'f' :: 'a' :: 'l' :: 's' :: 'e' :: rest => some (.boolean false, rest)
            | 'i' :: 'n' :: 'f' :: rest => some (.float (.infinite false), rest)
            | 'n' :: 'a' :: 'n' :: rest => some (.float .nan, rest)
            | _ => none

/-! ## Lines -/

/-- The path of a header between its brackets, and what follows on the line. -/
def header? (closing : List Char) (cs : List Char) : Option (List String × List Char) := do
  let (path, rest) ← key? cs
  if closing.isPrefixOf rest then
    let rest ← restOfLine? (rest.drop closing.length)
    return (path, rest)
  else none

/-- One line: nothing, a comment, a header, or a key with its value. -/
def line? (b : Builder) (cs : List Char) : Option (Builder × List Char) :=
  match cs with
  | '#' :: _ => (restOfLine? cs).map fun rest => (b, rest)
  | '[' :: '[' :: rest => do
      let (path, rest) ← header? [']', ']'] rest
      let b ← b.openElement path
      return (b, rest)
  | '[' :: rest => do
      let (path, rest) ← header? [']'] rest
      let b ← b.openTable path
      return (b, rest)
  | cs =>
      match lineEnd? cs with
      | some rest => some (b, rest)
      | none => do
          let (path, rest) ← key? cs
          match rest with
          | '=' :: rest => do
              let (v, rest) ← value? (depthLimit - 1) (skipBlanks rest)
              let rest ← restOfLine? rest
              let b ← b.assign path v
              return (b, rest)
          | _ => none

/-- All lines; `fuel` bounds their number. -/
def lines? : Nat → Builder → List Char → Option Builder
  | 0, _, _ => none
  | fuel + 1, b, cs =>
      match skipBlanks cs with
      | [] => some b
      | cs => do
          let (b, rest) ← line? b cs
          lines? fuel b rest

/-- The text without a byte order mark at its front. -/
def skipMark : List Char → List Char
  | '\uFEFF' :: rest => rest
  | cs => cs

/-- The document of a text. -/
def parse? (text : String) : Option Value :=
  let cs := skipMark text.toList
  match lines? (cs.length + 1) Builder.start cs with
  | some b => b.finish
  | none => none

end JobSupervisor.Toml
