import JobSupervisor.Text.Printable

/-!
# Quoted texts

The quoted form of a text stands in double quotes, writes a quote, a backslash and the
common control characters with a backslash, and writes every other character without a
shape of its own by its number in hexadecimal.  Lists of quoted texts and of pairs of
them are the field values of log events.

## Main definitions

* `quoted s` — the quoted form of a text.
* `listed xs` — rendered items in square brackets, separated by commas.
* `quotedPair p` — a pair of texts in parentheses.
-/

namespace JobSupervisor.Text

/-- The hexadecimal digits of a number, in lower case. -/
def hexadecimal (n : Nat) : String :=
  String.ofList (Nat.toDigits 16 n)

/-- The number of a character in braces after `\u`. -/
def numbered (c : Char) : String :=
  "\\u\x7b" ++ hexadecimal c.toNat ++ "\x7d"

/-- How a character is written inside quotes. -/
def quotedChar (c : Char) : String :=
  if c = '"' then "\\\""
  else if c = '\\' then "\\\\"
  else if c = '\n' then "\\n"
  else if c = '\r' then "\\r"
  else if c = '\t' then "\\t"
  else if c.toNat = 0 then "\\0"
  else if c.toNat < 0x20 || c.toNat = 0x7F then numbered c
  else if c.toNat < 0x7F || hasShape c then String.singleton c
  else numbered c

/-- The quoted form of a text. -/
def quoted (s : String) : String :=
  "\"" ++ String.join (s.toList.map quotedChar) ++ "\""

/-- Rendered items in square brackets. -/
def listed (items : List String) : String :=
  "[" ++ String.intercalate ", " items ++ "]"

/-- A pair of texts in parentheses, each in quoted form. -/
def quotedPair (p : String × String) : String :=
  "(" ++ quoted p.1 ++ ", " ++ quoted p.2 ++ ")"

end JobSupervisor.Text
