import JobSupervisor.Host.Format
import JobSupervisor.Host.Shell.Machine

/-!
# The programs of the host

What the small programs do that job commands use.  A program reads the input of the shell
it runs in and writes to its descriptors.

## Main definitions

* `Builtin.find?` — a program by its name.
-/

namespace JobSupervisor.Host.Shell.Builtin

/-- What a program does with its arguments. -/
abbrev Program := List String → Machine → Machine

/-- A signal by its number or its name; zero also stands for the end of a shell. -/
def signal? (s : String) : Option Nat :=
  match s.toNat? with
  | some n => if n ≤ 64 then some n else none
  | none =>
      if s.toUpper = "EXIT" then some 0
      else ((signalNames.filter (·.1 ≠ 16)).find? (·.2 = s.toUpper)).map Prod.fst

/-- The signals about which nothing can be arranged. -/
def finalSignals : List Nat := [9, 19]

/-- Receives a signal; no process leaves a core dump. -/
def receive (n : Nat) (m : Machine) : Machine :=
  match if n = 0 || finalSignals.contains n then none else m.traps.lookup n with
  | some action => { m with pending := m.pending ++ [action], status := 0 }
  | none => if harmlessSignals.contains n then m.done 0 else m.leave (.signal n false)

/-- How signals are sent. -/
def killUsage : String :=
  "kill: Usage: kill [-s sigspec | -signum | -sigspec] [pid | job]... or\nkill -l [exitstatus]"

/-- Sends a signal, which can only reach the shell itself. -/
def sendSignal (n : Nat) (targets : List String) (m : Machine) : Machine :=
  match targets with
  | [] => m.complain killUsage 2
  | target :: _ =>
      if target = Machine.process then receive n m
      else if target.toNat?.isSome then m.complain "kill: No such process" 1
      else
        let number := if target.startsWith "-" then (target.drop 1).toString else target
        m.complain ("kill: Illegal number: " ++ number) 2

/-- Sends a signal by its name. -/
def sendNamed (name : String) (targets : List String) (m : Machine) : Machine :=
  match signal? name with
  | some n => sendSignal n targets m
  | none => m.complain ("kill: invalid signal number or name: " ++ name) 2

/-- The program that sends signals. -/
def kill : Program := fun args m =>
  match args with
  | "-s" :: name :: targets => sendNamed name targets m
  | "-l" :: _ => m.done 0
  | first :: targets =>
      match first.toList with
      | '-' :: c :: rest =>
          match signal? (String.ofList (c :: rest)) with
          | some n => sendSignal n targets m
          | none =>
              if c = 's' then sendNamed (String.ofList rest) targets m
              else m.complain ("kill: Illegal option -" ++ String.singleton c) 2
      | _ => sendSignal 15 args m
  | [] => m.complain killUsage 2

/-- The number of a status, if it is one. -/
def statusNumber? (s : String) : Option Nat :=
  let blankless := s.toList.dropWhile Char.isWhitespace
  let digits := if blankless.head? = some '+' then blankless.drop 1 else blankless
  (String.ofList digits).toNat?.bind fun n => if n < 2147483648 then some n else none

/-- Ends the shell. -/
def exit : Program := fun args m =>
  match args with
  | [] => m.leave (.code m.status)
  | code :: _ =>
      match statusNumber? code with
      | some n => m.leave (.code (n % 256))
      | none => m.fail ("exit: Illegal number: " ++ code)

/-- Leaves a function. -/
def returnFrom : Program := fun args m =>
  match args with
  | [] => { m with halt := some .function }
  | code :: _ =>
      match statusNumber? code with
      | some n => { m.done n with halt := some .function }
      | none => m.fail ("return: Illegal number: " ++ code)

/-- Leaves loops, perhaps to go on with the outermost of them. -/
def leaveLoops (again : Bool) : Program := fun args m =>
  let levels := min ((args.head?.bind String.toNat?).getD 1) m.loops
  if levels = 0 then m.done 0
  else { m.done 0 with halt := some (.loop (levels - 1) again) }

/-- Sets options or parameters. -/
def set : Program := fun args m =>
  match args with
  | [] => m.done 0
  | "--" :: rest => { m.done 0 with parameters := rest }
  | first :: _ =>
      match first.toList with
      | '-' :: flags => { m.done 0 with strict := m.strict || flags.contains 'e' }
      | '+' :: flags => { m.done 0 with strict := m.strict && !flags.contains 'e' }
      | _ => { m.done 0 with parameters := args }

/-- Takes variables away. -/
def unset : Program := fun args m =>
  { m.done 0 with bindings := args.foldl NameMap.erase m.bindings
                  functions := args.foldl NameMap.erase m.functions }

/-- The name and the value in an argument with an equals sign. -/
def namedValue? (arg : String) : Option (String × String) :=
  match arg.splitOn "=" with
  | name :: rest@(_ :: _) => some (name, String.intercalate "=" rest)
  | _ => none

/-- Gives variables values. -/
def assignAll : Program := fun args m =>
  args.foldl (fun m arg => match namedValue? arg with
    | some (name, value) => m.assign name value
    | none => m) (m.done 0)

/-- Hands variables on to the programs that are run. -/
def exportAll : Program := fun args m =>
  let names := args.map fun arg => ((namedValue? arg).map Prod.fst).getD arg
  let m := assignAll args m
  { m with exported := m.exported ++ names }

/-- Goes to another directory. -/
def changeDirectory (directories : List String) : Program := fun args m =>
  match args with
  | path :: _ =>
      if directories.contains path then m.done 0
      else m.complain ("cd: can't cd to " ++ path) 2
  | [] => m.done 0

/-- Arranges what is done on signals. -/
def trap : Program := fun args m =>
  match args with
  | action :: names@(_ :: _) =>
      let numbers := names.filterMap signal?
      let kept := m.traps.filter fun t => !numbers.contains t.1
      let added := if action = "-" then [] else numbers.map fun n => (n, action)
      { m.done 0 with traps := kept ++ added }
  | _ => m.done 0

/-- Writes its arguments with blanks in between. -/
def echo : Program := fun args m =>
  let (ending, args) : List UInt8 × List String := match args with
    | "-n" :: args => ([], args)
    | args => ([10], args)
  let line := String.intercalate " " args
  let (bytes, stop) := Format.escaped 4 (line.length + 1) line.toList
  (m.write 1 (if stop then bytes else bytes ++ ending)).done 0

/-- The format and its arguments among the arguments of a program, or the letter of an
option that there is not. -/
def formatArguments : List String → Except Char (List String)
  | "--" :: args => .ok args
  | first :: args =>
      match first.toList with
      | '-' :: c :: _ => .error c
      | _ => .ok (first :: args)
  | [] => .ok []

/-- Writes formatted output. -/
def printf : Program := fun args m =>
  match formatArguments args with
  | .error c => m.complain ("printf: Illegal option -" ++ String.singleton c) 2
  | .ok [] => m.complain "printf: usage: printf format [arg ...]" 2
  | .ok (format :: args) =>
      let (bytes, complaints) := Format.render format args
      let m := complaints.foldl (fun m c => m.complain ("printf: " ++ c) 1) m
      (m.write 1 bytes).done (if complaints.isEmpty then 0 else 1)

/-- The words of a line by the names that they are read into; the last name takes what is
left of the line. -/
def distribute : List String → List Char → List (String × String)
  | [], _ => []
  | [name], line =>
      let blankless := (line.dropWhile Char.isWhitespace).reverse.dropWhile Char.isWhitespace
      [(name, String.ofList blankless.reverse)]
  | name :: names, line =>
      let line := line.dropWhile Char.isWhitespace
      let word := line.takeWhile fun c => !c.isWhitespace
      (name, String.ofList word) :: distribute names (line.drop word.length)

/-- Reads a line of the input into variables. -/
def read : Program := fun args m =>
  let line := m.input.takeWhile (· ≠ 10)
  let rest := m.input.drop line.length
  let values := distribute (args.filter (· ≠ "-r")) (Text.Utf8.decodeLossy line).toList
  let m := values.foldl (fun m (name, value) => m.assign name value) { m with input := rest.drop 1 }
  m.done (if rest.isEmpty then 1 else 0)

/-- What a test says: true, false, or that it makes no sense. -/
inductive Verdict where
  | truth (b : Bool)
  | senseless (text : String)

/-- Compares two numbers. -/
def compare (operator : String) (a b : String) : Verdict :=
  match a.toInt?, b.toInt? with
  | some x, some y =>
      match operator with
      | "-eq" => .truth (x = y)
      | "-ne" => .truth (x ≠ y)
      | "-lt" => .truth (x < y)
      | "-le" => .truth (x ≤ y)
      | "-gt" => .truth (y < x)
      | "-ge" => .truth (y ≤ x)
      | _ => .senseless (operator ++ ": unexpected operator")
  | none, _ => .senseless ("Illegal number: " ++ a)
  | _, none => .senseless ("Illegal number: " ++ b)

/-- The files that every host has. -/
def directories : List String := ["/", "/bin", "/dev", "/etc", "/tmp", "/usr", "/usr/bin"]

/-- Whether a file is there and is no directory. -/
def isFile (path : String) : Bool := path = "/etc/passwd" || path = "/bin/sh"

/-- Whether there is something at a path. -/
def isThere (path : String) : Bool :=
  directories.contains path || isFile path || path = "/dev/null"

/-- What a test with one operand says. -/
def judgeOne (operator s : String) : Verdict :=
  match operator with
  | "!" => .truth s.isEmpty
  | "-n" => .truth (!s.isEmpty)
  | "-z" => .truth s.isEmpty
  | "-d" => .truth (directories.contains s)
  | "-f" | "-s" => .truth (isFile s)
  | "-e" | "-r" | "-w" => .truth (isThere s)
  | "-x" => .truth (directories.contains s || s = "/bin/sh")
  | "-t" | "-h" | "-L" => .truth false
  | operator => .senseless (operator ++ ": unexpected operator")

/-- The negation of a verdict. -/
def Verdict.not : Verdict → Verdict
  | .truth b => .truth (!b)
  | .senseless text => .senseless text

/-- Two verdicts as one. -/
def Verdict.combine (f : Bool → Bool → Bool) : Verdict → Verdict → Verdict
  | .truth a, .truth b => .truth (f a b)
  | .senseless text, _ | _, .senseless text => .senseless text

/-- What a test with two operands says. -/
def judgeTwo (a operator b : String) : Verdict :=
  match operator with
  | "=" => .truth (a = b)
  | "!=" => .truth (a ≠ b)
  | "-a" => .truth (!a.isEmpty && !b.isEmpty)
  | "-o" => .truth (!a.isEmpty || !b.isEmpty)
  | operator => if a = "!" then (judgeOne operator b).not else compare operator a b

/-- What some arguments of a test say. -/
def judge : List String → Verdict
  | [] => .truth false
  | [s] => .truth (!s.isEmpty)
  | [operator, s] => judgeOne operator s
  | [a, operator, b] => judgeTwo a operator b
  | "!" :: rest => (judge rest).not
  | a :: operator :: b :: "-a" :: rest => (judgeTwo a operator b).combine and (judge rest)
  | a :: operator :: b :: "-o" :: rest => (judgeTwo a operator b).combine or (judge rest)
  | operator :: s :: "-a" :: rest => (judgeOne operator s).combine and (judge rest)
  | operator :: s :: "-o" :: rest => (judgeOne operator s).combine or (judge rest)
  | s :: _ => .senseless (s ++ ": unexpected operator")

/-- Sets the status by a test. -/
def test (name : String) : Program := fun args m =>
  match judge args with
  | .truth b => m.done (if b then 0 else 1)
  | .senseless text => m.complain (name ++ ": " ++ text) 2

/-- The test in brackets. -/
def bracket : Program := fun args m =>
  match args.reverse with
  | "]" :: rest => test "[" rest.reverse m
  | _ => m.complain "[: missing ]" 2

/-- Copies files, or the input if there are none, to the output. -/
def cat : Program := fun args m =>
  if args.isEmpty || args = ["-"] then { m.write 1 m.input with input := [], status := 0 }
  else
    args.foldl (fun m file =>
      if file = "/dev/null" then m
      else
        let reason := if directories.contains file then ": Is a directory\n"
          else ": No such file or directory\n"
        (m.print 2 ("cat: " ++ file ++ reason)).done 1) (m.done 0)

/-- The units of time by their letters, in nanoseconds. -/
def timeUnits : List (Char × Nat) := [('s', 1000000000), ('m', 60000000000), ('h', 3600000000000)]

/-- A number with a fraction, as a multiple of a unit. -/
def multiple? (unit : Nat) (s : String) : Option Nat :=
  match s.splitOn "." with
  | [whole] => whole.toNat?.map (· * unit)
  | [whole, fraction] => do
      let w ← if whole.isEmpty then some 0 else whole.toNat?
      let f ← if fraction.isEmpty then some 0 else fraction.toNat?
      return w * unit + f * unit / Nat.pow 10 fraction.length
  | _ => none

/-- A length of time in nanoseconds; without a letter it counts seconds. -/
def seconds? (s : String) : Option Nat :=
  match s.toList.getLast?.bind fun c => timeUnits.lookup c with
  | some unit => multiple? unit (String.ofList s.toList.dropLast)
  | none => multiple? 1000000000 s

/-- Complains under a name of its own, with a hint. -/
def complainWithHint (name text : String) (m : Machine) : Machine :=
  (m.print 2 (name ++ ": " ++ text ++ "\nTry '" ++ name ++
    " --help' for more information.\n")).done 1

/-- Lets time pass. -/
def sleep : Program := fun args m =>
  match args, args.mapM seconds? with
  | [], _ => complainWithHint "sleep" "missing operand" m
  | _, some ns => { m with elapsed := ⟨ns.foldl (· + ·) m.elapsed.nanos⟩, status := 0 }
  | first :: _, none =>
      complainWithHint "sleep" ("invalid time interval '" ++ first ++ "'") m

/-- How much of the input is wanted: a number of bytes or of lines. -/
inductive Extent where
  | bytes (n : Nat)
  | lines (n : Nat)

/-- The first lines of some bytes. -/
def firstLines : Nat → List UInt8 → List UInt8
  | 0, _ => []
  | n + 1, bytes =>
      let line := bytes.takeWhile (· ≠ 10)
      match bytes.drop line.length with
      | [] => line
      | ending :: rest => line ++ ending :: firstLines n rest

/-- The part of some bytes that is wanted. -/
def Extent.of (e : Extent) (bytes : List UInt8) : List UInt8 :=
  match e with
  | .bytes n => bytes.take n
  | .lines n => firstLines n bytes

/-- The extent in the arguments of a program, and its files. -/
def extent? : List String → Option (Extent × List String)
  | "-c" :: n :: files => n.toNat?.map fun k => (.bytes k, files)
  | "-n" :: n :: files => n.toNat?.map fun k => (.lines k, files)
  | first :: files =>
      match first.toList with
      | '-' :: 'c' :: n => (String.ofList n).toNat?.map fun k => (.bytes k, files)
      | '-' :: 'n' :: n => (String.ofList n).toNat?.map fun k => (.lines k, files)
      | '-' :: n => (String.ofList n).toNat?.map fun k => (.lines k, files)
      | _ => some (.lines 10, first :: files)
  | [] => some (.lines 10, [])

/-- The first part of the input or of a file. -/
def head : Program := fun args m =>
  match extent? args with
  | some (e, []) => { m.write 1 (e.of m.input) with input := [], status := 0 }
  | some (.bytes n, "/dev/zero" :: _) => (m.write 1 (List.replicate n 0)).done 0
  | some (_, "/dev/null" :: _) => m.done 0
  | some (_, file :: _) =>
      (m.print 2 ("head: cannot open '" ++ file ++
        "' for reading: No such file or directory\n")).done 1
  | none => complainWithHint "head" "invalid number" m

/-- How many bytes a program writes that would write without end. -/
def endlessLength : Nat := 65536

/-- Writes a line again and again. -/
def yes : Program := fun args m =>
  let line := (if args.isEmpty then "y" else String.intercalate " " args) ++ "\n"
  let times := endlessLength / line.utf8ByteSize + 1
  (m.print 1 (String.join (List.replicate times line))).done 0

/-- The number of bytes or lines of the input. -/
def count : Program := fun args m =>
  let n := if args = ["-l"] then m.input.count 10 else m.input.length
  { m.print 1 (toString n ++ "\n") with input := [], status := 0 }

/-- The bytes of a set, in which two bytes with a hyphen in between stand for a range. -/
def spread : List UInt8 → List UInt8
  | a :: 45 :: b :: rest =>
      (List.range (b.toNat + 1 - a.toNat)).map (fun i => a + i.toUInt8) ++ spread rest
  | a :: rest => a :: spread rest
  | [] => []

/-- The bytes of a set in an argument. -/
def byteSet (arg : String) : List UInt8 :=
  spread (Format.escaped 3 (arg.length + 1) arg.toList).1

/-- Replaces each byte of one set by the byte of the other at its place, or drops it. -/
def replaceCharacters : Program := fun args m =>
  let copied (f : List UInt8 → List UInt8) : Machine :=
    { m.write 1 (f m.input) with input := [], status := 0 }
  match args with
  | ["-d", old] =>
      let olds := byteSet old
      copied fun bytes => bytes.filter fun b => !olds.contains b
  | [old, new] =>
      let olds := byteSet old
      let news := byteSet new
      let replaced (b : UInt8) : UInt8 := match olds.idxOf? b with
        | some i => (news[i]?.or news.getLast?).getD b
        | none => b
      copied (·.map replaced)
  | _ => complainWithHint "tr" "missing operand" m

/-- Complains about a path that is not there, or passes over it. -/
def listFiles : Program := fun args m =>
  args.foldl (fun m path =>
    if directories.contains path || path.startsWith "-" then m
    else
      (m.print 2 ("ls: cannot access '" ++ path ++ "': No such file or directory\n")).done 2)
    (m.done 0)

/-- Writes the numbers from one to another. -/
def sequence : Program := fun args m =>
  let lines (low step high : Nat) : Machine :=
    let times := if high < low then 0 else (high - low) / step + 1
    (m.print 1 (String.join ((List.range times).map fun i =>
      toString (low + i * step) ++ "\n"))).done 0
  match args.mapM String.toNat? with
  | some [high] => lines 1 1 high
  | some [low, high] => lines low 1 high
  | some [low, step + 1, high] => lines low (step + 1) high
  | _ => complainWithHint "seq" "invalid argument" m

/-- Drops parameters from the front. -/
def shift : Program := fun args m =>
  let n := (args.head?.bind String.toNat?).getD 1
  if m.parameters.length < n then m.fail "shift: can't shift that many"
  else { m.done 0 with parameters := m.parameters.drop n }

/-- The programs that exist as files. -/
def files : List (String × Program) := [
  ("true", fun _ m => m.done 0), ("false", fun _ m => m.done 1), ("echo", echo),
  ("printf", printf), ("kill", kill), ("test", test "test"), ("[", bracket), ("cat", cat),
  ("sleep", sleep), ("head", head), ("tr", replaceCharacters), ("seq", sequence), ("yes", yes),
  ("wc", count), ("ls", listFiles)]

/-- The programs that are part of the shell only. -/
def internal : List (String × Program) := [
  (":", fun _ m => m.done 0), ("exit", exit), ("return", returnFrom),
  ("break", leaveLoops false), ("continue", leaveLoops true), ("read", read),
  ("shift", shift), ("set", set), ("unset", unset), ("export", exportAll),
  ("readonly", assignAll), ("local", assignAll), ("cd", changeDirectory directories),
  ("trap", trap), ("umask", fun _ m => m.done 0), ("ulimit", fun _ m => m.done 0),
  ("wait", fun _ m => m.done 0)]

/-- The name of a program without its directory, if that is searched. -/
def bareName (s : String) : String :=
  match s.splitOn "/" with
  | ["", "bin", name] | ["", "usr", "bin", name] => name
  | _ => s

/-- A program by its name or its path. -/
def find? (name : String) : Option Program :=
  match internal.find? (·.1 = name) with
  | some (_, p) => some p
  | none => (files.find? (·.1 = bareName name)).map Prod.snd

end JobSupervisor.Host.Shell.Builtin
