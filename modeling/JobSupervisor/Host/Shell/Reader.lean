import JobSupervisor.Host.Shell.Token

/-!
# Reading shell scripts

The tokens of a script are read as a command.  Reserved words count only where a command
may begin and only if no part of them is quoted.

## Main definitions

* `parse` — the command of a script.
-/

namespace JobSupervisor.Host.Shell

/-- The reserved word at the front. -/
def reserved? : List Token → Option String
  | .word w :: _ => plain? w
  | _ => none

/-- The words that end a list of commands. -/
def closingWords : List String := ["then", "else", "elif", "fi", "do", "done", "esac", "\x7d"]

/-- Whether the tokens begin with a reserved word. -/
def beginsWith (s : String) (ts : List Token) : Bool := reserved? ts = some s

/-- The tokens after a reserved word. -/
def expectWord (s : String) (ts : List Token) : Reading (List Token) :=
  if beginsWith s ts then .ok ts.tail else .error (.unexpected ts (some ("\"" ++ s ++ "\"")))

/-- The tokens after an operator. -/
def expectOperator (s : String) : List Token → Reading (List Token)
  | .operator t :: rest =>
      if s = t then .ok rest
      else .error (.unexpected (.operator t :: rest) (some ("\"" ++ s ++ "\"")))
  | ts => .error (.unexpected ts (some ("\"" ++ s ++ "\"")))

/-- The tokens after the line ends at the front. -/
def skipLineEnds (ts : List Token) : List Token := ts.dropWhile (· = .operator "\n")

/-- Whether a list of commands ends here. -/
def listEnds (ts : List Token) : Bool :=
  ts.isEmpty || ts.head? = some (.operator ")") || ts.head? = some (.operator ";;") ||
    ((reserved? ts).map closingWords.contains).getD false

/-- The name and the value of an assignment. -/
def assignment? (w : Word) : Option (String × Word) :=
  let letters := w.takeWhile fun p => match p with
    | .text false s => s ≠ "="
    | _ => false
  match plain? letters, w.drop letters.length with
  | some name, .text false "=" :: value =>
      if !name.isEmpty && name.toList.all isNameChar && !name.front.isDigit then
        some (name, value)
      else none
  | _, _ => none

/-- A redirection from its operator and its word. -/
def redirectionOf (descriptor : Option Nat) (operator : String) (w : Word) : Redirection :=
  let reading := operator = "<" || operator = "<&"
  let target := if operator = ">&" || operator = "<&" then Target.descriptor w else .file w
  ⟨descriptor.getD (if reading then 0 else 1), reading, target⟩

/-- A simple command: its assignments, its words and its redirections. -/
def simple : Nat → List (String × Word) → List Word → List Redirection → List Token →
    Reading (Command × List Token)
  | 0, _, _, _, ts => .error (.unexpected ts none)
  | fuel + 1, as, ws, rs, ts =>
      match ts with
      | .redirection d op :: .word w :: rest =>
          simple fuel as ws (rs ++ [redirectionOf d op w]) rest
      | .redirection _ _ :: rest => .error (.unexpected rest none)
      | .word w :: rest =>
          match if ws.isEmpty then assignment? w else none with
          | some a => simple fuel (as ++ [a]) ws rs rest
          | none => simple fuel as (ws ++ [w]) rs rest
      | ts =>
          if as.isEmpty && ws.isEmpty && rs.isEmpty then .error (.unexpected ts none)
          else .ok (.simple as ws rs, ts)

/-- The redirections after a compound command. -/
def trailing : Nat → List Redirection → List Token → List Redirection × List Token
  | fuel + 1, rs, .redirection d op :: .word w :: rest =>
      trailing fuel (rs ++ [redirectionOf d op w]) rest
  | _, rs, ts => (rs, ts)

/-- The words at the front. -/
def wordsAt (ts : List Token) : List Word × List Token :=
  let word? (t : Token) : Option Word := match t with
    | .word w => some w
    | _ => none
  let ws := ts.takeWhile fun t => (word? t).isSome
  (ws.filterMap word?, ts.drop ws.length)

/-- The tokens after a separator and the line ends that follow it. -/
def expectSeparator : List Token → Reading (List Token)
  | .operator ";" :: rest | .operator "\n" :: rest => .ok (skipLineEnds rest)
  | ts => .error (.unexpected ts none)

/-- The words of a loop over words, which are the parameters if none are given. -/
def loopWords (ts : List Token) : Reading (List Word × List Token) :=
  if beginsWith "in" ts then
    let (ws, rest) := wordsAt ts.tail
    (expectSeparator rest).map fun rest => (ws, rest)
  else .ok ([[.parameter true "@" .plain]], (expectSeparator ts).toOption.getD ts)

/-- The patterns before a closing parenthesis, with bars in between. -/
def patterns : Nat → List Token → Reading (List Word × List Token)
  | fuel + 1, .word w :: .operator "|" :: rest => do
      let (ws, rest) ← patterns fuel rest
      return (w :: ws, rest)
  | _ + 1, .word w :: rest => do return ([w], ← expectOperator ")" rest)
  | _, ts => .error (.unexpected ts (some "\")\""))

/-- The name of a function that is defined here, and what follows. -/
def definition? : List Token → Option (String × List Token)
  | .word w :: .operator "(" :: .operator ")" :: rest =>
      (plain? w).map fun name => (name, skipLineEnds rest)
  | _ => none

/-- The words that begin a compound command. -/
def openingWords : List String := ["if", "while", "until", "for", "case", "\x7b"]

/-- Whether a compound command begins here. -/
def beginsCompound (ts : List Token) : Bool :=
  ts.head? = some (.operator "(") || ((reserved? ts).map openingWords.contains).getD false

mutual

/-- A list of commands up to a closing word. -/
def list : Nat → List Token → Reading (Command × List Token)
  | 0, ts => .error (.unexpected ts none)
  | fuel + 1, ts =>
      let ts := skipLineEnds ts
      if listEnds ts then .ok (.nothing, ts)
      else do
        let (a, rest) ← chain fuel ts
        match rest with
        | .operator s :: rest' =>
            if s = ";" || s = "\n" || s = "&" then
              let (b, rest) ← list fuel rest'
              return (.sequence a b, rest)
            else return (a, rest)
        | rest => return (a, rest)

/-- Pipelines with conjunctions and disjunctions in between, which group to the left. -/
def chain : Nat → List Token → Reading (Command × List Token)
  | 0, ts => .error (.unexpected ts none)
  | fuel + 1, ts => do
      let (a, rest) ← pipeline fuel ts
      chainRest fuel a rest

/-- The rest of a chain after its first part. -/
def chainRest : Nat → Command → List Token → Reading (Command × List Token)
  | 0, _, ts => .error (.unexpected ts none)
  | fuel + 1, a, ts =>
      match ts with
      | .operator s :: rest =>
          if s = "&&" then do
            let (b, rest) ← pipeline fuel (skipLineEnds rest)
            chainRest fuel (.both a b) rest
          else if s = "||" then do
            let (b, rest) ← pipeline fuel (skipLineEnds rest)
            chainRest fuel (.either a b) rest
          else .ok (a, ts)
      | ts => .ok (a, ts)

/-- Commands with pipes in between, perhaps negated. -/
def pipeline : Nat → List Token → Reading (Command × List Token)
  | 0, ts => .error (.unexpected ts none)
  | fuel + 1, ts =>
      if beginsWith "!" ts then do
        let (a, rest) ← pipeline fuel ts.tail
        return (.negation a, rest)
      else do
        let (a, rest) ← command fuel ts
        match rest with
        | .operator s :: rest' =>
            if s = "|" then
              let (b, rest) ← pipeline fuel (skipLineEnds rest')
              return (.pipe a b, rest)
            else return (a, rest)
        | rest => return (a, rest)

/-- The branches of a conditional after its first word. -/
def branches : Nat → List Token → Reading (Command × List Token)
  | 0, ts => .error (.unexpected ts none)
  | fuel + 1, ts => do
      let (test, rest) ← list fuel ts
      let (yes, rest) ← list fuel (← expectWord "then" rest)
      if beginsWith "elif" rest then
        let (no, rest) ← branches fuel rest.tail
        return (.conditional test yes no, rest)
      else if beginsWith "else" rest then
        let (no, rest) ← list fuel rest.tail
        return (.conditional test yes no, ← expectWord "fi" rest)
      else return (.conditional test yes .nothing, ← expectWord "fi" rest)

/-- The test and the body of a loop. -/
def loop : Nat → Bool → List Token → Reading (Command × List Token)
  | 0, _, ts => .error (.unexpected ts none)
  | fuel + 1, expected, ts => do
      let (test, rest) ← list fuel ts
      let (body, rest) ← list fuel (← expectWord "do" rest)
      return (.loop expected test body, ← expectWord "done" rest)

/-- The name, the words and the body of a loop over words. -/
def each : Nat → List Token → Reading (Command × List Token)
  | 0, ts => .error (.unexpected ts none)
  | fuel + 1, ts =>
      match reserved? ts with
      | none => .error (.lexical "Bad for loop variable")
      | some name => do
          let (ws, rest) ← loopWords (skipLineEnds ts.tail)
          let (body, rest) ← list fuel (← expectWord "do" rest)
          return (.each name ws body, ← expectWord "done" rest)

/-- The branches of a selection. -/
def selection : Nat → Word → List Token → Reading (Command × List Token)
  | 0, _, ts => .error (.unexpected ts none)
  | fuel + 1, subject, ts =>
      let ts := skipLineEnds ts
      if beginsWith "esac" ts then .ok (.nothing, ts.tail)
      else do
        let ts := if ts.head? = some (.operator "(") then ts.tail else ts
        let (ws, rest) ← patterns ts.length ts
        let (yes, rest) ← list fuel rest
        match rest with
        | .operator ";;" :: rest => do
            let (no, rest) ← selection fuel subject rest
            return (.select subject ws yes no, rest)
        | rest => return (.select subject ws yes .nothing, ← expectWord "esac" rest)

/-- A compound command without its redirections. -/
def compound : Nat → List Token → Reading (Command × List Token)
  | 0, ts => .error (.unexpected ts none)
  | fuel + 1, ts =>
      match ts with
      | .operator "(" :: rest => do
          let (c, rest) ← list fuel rest
          return (.subshell c, ← expectOperator ")" rest)
      | ts =>
          if beginsWith "if" ts then branches fuel ts.tail
          else if beginsWith "while" ts then loop fuel true ts.tail
          else if beginsWith "until" ts then loop fuel false ts.tail
          else if beginsWith "for" ts then each fuel ts.tail
          else if beginsWith "case" ts then
            match ts.tail with
            | .word subject :: rest => do
                selection fuel subject (← expectWord "in" (skipLineEnds rest))
            | rest => .error (.unexpected rest (some "word"))
          else do
            let (c, rest) ← list fuel ts.tail
            return (c, ← expectWord "\x7d" rest)

/-- A command. -/
def command : Nat → List Token → Reading (Command × List Token)
  | 0, ts => .error (.unexpected ts none)
  | fuel + 1, ts =>
      if beginsCompound ts then do
        let (c, rest) ← compound fuel ts
        let (rs, rest) := trailing rest.length [] rest
        return (if rs.isEmpty then c else .redirected c rs, rest)
      else if listEnds ts then .error (.unexpected ts none)
      else
        match definition? ts, ts with
        | some (name, rest), _ => do
            let (body, rest) ← command fuel rest
            return (.define name body, rest)
        | none, .word w :: .operator "(" :: rest =>
            if (assignment? w).isSome then .error (.unexpected (.operator "(" :: rest) none)
            else .error (.unexpected rest (some "\")\""))
        | none, ts => simple (ts.length + 1) [] [] [] ts

end

/-- The command of a script. -/
def parse (script : String) : Reading Command := do
  let ts ← tokens script
  let (c, rest) ← list (10 * ts.length + 10) ts
  if rest.isEmpty then return c else .error (.unexpected rest none)

end JobSupervisor.Host.Shell
