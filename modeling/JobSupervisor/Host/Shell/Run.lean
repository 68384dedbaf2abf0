import JobSupervisor.Host.Shell.Builtin
import JobSupervisor.Host.Shell.Reader

/-!
# Running shell commands

Every command is run for its effects on the state of the shell.  A program that is run by
the shell is a process of its own; a subshell and the parts of a pipeline are not, as far
as signals are concerned.  The number of steps is bounded; a script that needs more of them
is left where it stands.

## Main definitions

* `Shell.run` — the state after a command.
* `Shell.become` — a program in the place of a process.
* `Shell.process?` — a whole process.
-/

namespace JobSupervisor.Host.Shell

/-- The directory of a path. -/
def directoryOf (path : String) : String :=
  match (path.toList.reverse.dropWhile (· ≠ '/')).reverse with
  | [] => "."
  | ['/'] => "/"
  | cs => String.ofList cs.dropLast

/-- Why a file cannot be written, if it cannot. -/
def obstacle? (path : String) : Option String :=
  if Builtin.directories.contains path then some "Is a directory"
  else if directoryOf path = "." || Builtin.directories.contains (directoryOf path) then none
  else some "Directory nonexistent"

/-- Leads a descriptor to a file, if it can be opened. -/
def redirectFile (m : Machine) (r : Redirection) (path : String) : Bool × Machine :=
  if r.reading then
    if path = "/dev/null" then (true, { m with input := [] })
    else (false, m.complain ("cannot open " ++ path ++ ": No such file") 2)
  else if path = "/dev/stdout" then (true, m.lead r.descriptor (m.sink 1))
  else if path = "/dev/stderr" then (true, m.lead r.descriptor (m.sink 2))
  else
    match obstacle? path with
    | some reason => (false, m.complain ("cannot create " ++ path ++ ": " ++ reason) 2)
    | none => (true, m.lead r.descriptor .nowhere)

/-- Leads descriptors where redirections say; the answer is whether that worked. -/
def redirect (capture : Machine.Capture) (m : Machine) : List Redirection → Bool × Machine
  | [] => (true, m)
  | r :: rest =>
      let (opened, m) := match r.target with
        | .descriptor w =>
            let (s, m) := m.text capture w
            (true, m.lead r.descriptor ((s.toNat?.map m.sink).getD .nowhere))
        | .file w =>
            let (s, m) := m.text capture w
            redirectFile m r s
      if opened && m.halt.isNone then redirect capture m rest else (false, m)

/-- Runs something with redirections, which end with it. -/
def withRedirections (capture : Machine.Capture) (m : Machine) (rs : List Redirection)
    (body : Machine → Machine) : Machine :=
  let (opened, redirected) := redirect capture m rs
  { (if opened then body redirected else redirected) with sinks := m.sinks }

/-- The state of the shell after a part of it ended on its own: its status counts, and a
signal reaches the shell itself. -/
def rejoin (m inner : Machine) : Machine :=
  let m := { m with output := inner.output, errors := inner.errors, elapsed := inner.elapsed }
  match inner.halt with
  | some (.process (.code n)) => m.done n
  | some (.process (.signal n dumped)) => m.leave (.signal n dumped)
  | _ => m.done inner.status

/-- What a shell says about a process that a signal ended. -/
def deathTexts : List (Nat × String) := [
  (1, "Hangup"), (3, "Quit"), (4, "Illegal instruction"), (5, "Trace/breakpoint trap"),
  (6, "Aborted"), (7, "Bus error"), (8, "Floating point exception"), (9, "Killed"),
  (10, "User defined signal 1"), (11, "Segmentation fault"), (12, "User defined signal 2"),
  (14, "Alarm clock"), (15, "Terminated"), (24, "CPU time limit exceeded"),
  (25, "File size limit exceeded"), (26, "Virtual timer expired"),
  (27, "Profiling timer expired"), (29, "I/O possible"), (30, "Power failure"),
  (31, "Bad system call")]

/-- The state of the shell after a process of its own. -/
def awaitProcess (m inner : Machine) : Machine :=
  match inner.halt with
  | some (.process (.signal n dumped)) =>
      let m := rejoin m { inner with halt := none }
      let m := match deathTexts.lookup n with
        | some text => m.print 2 (text ++ (if dumped then " (core dumped)" else "") ++ "\n")
        | none => m
      m.done (128 + n)
  | _ => { rejoin m inner with input := inner.input }

/-- Collects what a part of the shell writes to its first descriptor. -/
def collecting (m : Machine) (body : Machine → Machine) : List UInt8 × Machine :=
  let inner := body ({ m with output := #[] }.lead 1 .output)
  (inner.output.toList, rejoin m { inner with output := m.output })

/-- A text without the line ends at its end. -/
def withoutLineEnds (s : String) : String :=
  String.ofList (s.toList.reverse.dropWhile (· = '\n')).reverse

/-- A machine as it is at the start of another process. -/
def Machine.fork (m : Machine) : Machine :=
  { m with halt := none, loops := 0, strict := false, tested := false, traps := [],
           pending := [], functions := .empty,
           bindings := m.exported.foldl (fun vs name => match m.bindings.get? name with
             | some v => vs.insert name v
             | none => vs) .empty }

/-- Ends a strict shell after a failure that is not tested for. -/
def checked (m : Machine) : Machine :=
  if m.strict && !m.tested && m.status ≠ 0 && m.halt.isNone then m.leave (.code m.status)
  else m

/-- The arguments of a shell: whether it is strict, the script if one is given, and what
follows. -/
def shellArguments : List String → Bool × Bool × List String
  | first :: rest =>
      match first.toList with
      | '-' :: flags =>
          let (strict, scripted, rest) := shellArguments rest
          (strict || flags.contains 'e', scripted || flags.contains 'c', rest)
      | _ => (false, false, first :: rest)
  | [] => (false, false, [])

/-- What happens after the body of a loop, which may have been left. -/
inductive AfterBody where
  | again
  | stop
  deriving DecidableEq

/-- Comes back to a loop after its body. -/
def afterBody (m : Machine) : AfterBody × Machine :=
  match m.halt with
  | none => (.again, m)
  | some (.loop 0 again) => (if again then .again else .stop, { m with halt := none })
  | some (.loop (n + 1) again) => (.stop, { m with halt := some (.loop n again) })
  | some _ => (.stop, m)

/-- The names of programs that run the program in their arguments. -/
def wrappers : List String := ["env", "nice", "nohup"]

mutual

/-- The output of a script inside a word. -/
def capture : Nat → Machine.Capture
  | 0 => fun _ m => ("", m)
  | fuel + 1 => fun s m =>
      let (bytes, m) := collecting m (interpret fuel s)
      (withoutLineEnds (Text.Utf8.decodeLossy (bytes.filter (· ≠ 0))), m)

/-- The state after a script. -/
def interpret : Nat → String → Machine → Machine
  | 0, _, m => m
  | fuel + 1, s, m =>
      match parse s with
      | .ok c => run fuel c m
      | .error e => m.fail e.message

/-- The state after what is to be done because of signals. -/
def settle : Nat → Machine → Machine
  | 0, m => m
  | fuel + 1, m =>
      match m.pending with
      | [] => m
      | action :: rest =>
          let status := m.status
          let m := interpret fuel action { m with pending := rest }
          settle fuel (m.done (if m.halt.isSome then m.status else status))

/-- The state at the end of a shell, after what is to be done then. -/
def finish : Nat → Machine → Machine
  | 0, m => m
  | fuel + 1, m =>
      match m.halt, m.traps.lookup 0 with
      | some (.process (.signal ..)), _ | _, none => m
      | halt, some action =>
          let status := m.status
          let traps := m.traps.filter (·.1 ≠ 0)
          let m := interpret fuel action { m with halt := none, traps := traps }
          if m.halt.isSome then m else { m.done status with halt := halt }

/-- A shell with its arguments in the place of a process. -/
def becomeShell : Nat → String → List String → Machine → Machine
  | 0, _, _, m => m
  | fuel + 1, name, args, m =>
      let m := { m with name := name }
      match shellArguments args with
      | (_, true, []) => (m.print 2 (name ++ ": 0: -c requires an argument\n")).leave (.code 2)
      | (strict, true, script :: rest) =>
          let m := { m with name := rest.headD name, parameters := rest.tail, strict := strict }
          finish fuel (interpret fuel script m)
      | (_, false, []) => m.done 0
      | (_, false, file :: _) =>
          (m.print 2 (name ++ ": 0: cannot open " ++ file ++ ": No such file\n")).leave (.code 2)

/-- A program in the place of a process, if there is such a program. -/
def become : Nat → String → List String → Machine → Option Machine
  | 0, _, _, _ => none
  | fuel + 1, name, args, m =>
      let bare := Builtin.bareName name
      if ["sh", "dash", "bash"].contains bare then some (becomeShell fuel name args m)
      else if wrappers.contains bare then
        match args.dropWhile fun a => (Builtin.namedValue? a).isSome with
        | name :: args => become fuel name args m
        | [] => some (m.done 0)
      else if bare = "timeout" then
        match args with
        | limit :: name :: args => do
            let allowed ← Builtin.seconds? limit
            let inner ← become fuel name args m
            if inner.elapsed.nanos - m.elapsed.nanos ≤ allowed then return inner
            return { m.leave (.code 124) with elapsed := ⟨m.elapsed.nanos + allowed⟩ }
        | _ => some (m.leave (.code 125))
      else
        (Builtin.files.find? (·.1 = bare)).map fun (_, program) =>
          program args { m with name := name }

/-- The state after a program that is a process of its own. -/
def external : Nat → String → List String → Machine → Machine
  | 0, _, _, m => m
  | fuel + 1, name, args, m =>
      match become fuel name args m.fork with
      | some inner => awaitProcess m inner
      | none =>
          if name.isEmpty || name = "/etc/passwd" || Builtin.directories.contains name then
            m.complain (name ++ ": Permission denied") 126
          else m.complain (name ++ ": not found") 127

/-- The state after the program of a name and its arguments. -/
def invoke : Nat → String → List String → Machine → Machine
  | 0, _, _, m => m
  | fuel + 1, name, args, m =>
      match name, args with
      | "eval", args => if args.isEmpty then m.done 0
          else interpret fuel (String.intercalate " " args) m
      | "exec", name :: args =>
          match become fuel name args m.fork with
          | some inner =>
              { inner with halt := some (inner.halt.getD (.process (.code inner.status))) }
          | none => (m.complain ("exec: " ++ name ++ ": not found") 127).leave (.code 127)
      | "exec", [] => m.done 0
      | "command", "-v" :: name :: _ =>
          if (Builtin.internal.lookup name).isSome then (m.print 1 (name ++ "\n")).done 0
          else if (become fuel name [] m.fork).isSome then
            (m.print 1 ("/usr/bin/" ++ name ++ "\n")).done 0
          else m.done 127
      | "command", name :: args => invoke fuel name args { m with functions := .empty }
      | ".", path :: _ => m.fail (".: cannot open " ++ path ++ ": No such file")
      | name, args =>
          match Builtin.internal.lookup name, m.functions.get? name with
          | some program, none => program args m
          | _, some body =>
              let inner := run fuel body { m with parameters := args }
              let halt := if inner.halt = some .function then none else inner.halt
              { inner with halt := halt, parameters := m.parameters }
          | none, none =>
              if ["echo", "printf", "kill", "test", "[", "true", "false"].contains name then
                ((Builtin.files.lookup name).map fun program => program args m).getD m
              else external fuel name args m

/-- The state after a loop. -/
def runLoop : Nat → Bool → Command → Command → Nat → Machine → Machine
  | 0, _, _, _, _, m => m
  | fuel + 1, expected, test, body, last, m =>
      let tested := m.tested
      let m := { run fuel test { m with tested := true } with tested := tested }
      match afterBody m with
      | (.stop, m) => m
      | (.again, m) =>
          if (m.status = 0) = expected then
            match afterBody (run fuel body m) with
            | (.stop, m) => m
            | (.again, m) => runLoop fuel expected test body m.status m
          else m.done last

/-- The state after a loop over words. -/
def runEach : Nat → String → Command → List String → Machine → Machine
  | 0, _, _, _, m => m
  | _ + 1, _, _, [], m => m
  | fuel + 1, name, body, s :: rest, m =>
      match afterBody (run fuel body (m.assign name s)) with
      | (.stop, m) => m
      | (.again, m) => runEach fuel name body rest m

/-- The state after a command whose failure is tested for. -/
def runTested : Nat → Command → Machine → Machine
  | 0, _, m => m
  | fuel + 1, c, m => { run fuel c { m with tested := true } with tested := m.tested }

/-- The state after a simple command. -/
def runSimple :
    Nat → List (String × Word) → List Word → List Redirection → Machine → Machine
  | 0, _, _, _, m => m
  | fuel + 1, assignments, words, redirections, m =>
      let bindings := m.bindings
      let exported := m.exported
      let (args, m) := m.fields (capture fuel) words
      let m := assignments.foldl (fun m (name, w) =>
        let (s, m) := m.text (capture fuel) w
        m.assign name s) m
      if m.halt.isSome then m
      else
        match args with
        | [] =>
            let m := if words.isEmpty && assignments.isEmpty then m.done 0 else m
            withRedirections (capture fuel) m redirections id
        | ["exec"] =>
            let (opened, m) := redirect (capture fuel) m redirections
            if opened then m.done 0 else m.leave (.code 2)
        | name :: args =>
            let m := if assignments.isEmpty then m
              else { m with exported := m.exported ++ assignments.map Prod.fst }
            let m := withRedirections (capture fuel) m redirections (invoke fuel name args)
            let m := if assignments.isEmpty then m
              else { m with bindings := bindings, exported := exported }
            settle fuel m

/-- The state after a command. -/
def run : Nat → Command → Machine → Machine
  | 0, _, m => m
  | fuel + 1, c, m =>
      if m.halt.isSome then m
      else
        match c with
        | .simple assignments words redirections =>
            checked (runSimple fuel assignments words redirections m)
        | .negation c =>
            let m := runTested fuel c m
            if m.halt.isSome then m else m.done (if m.status = 0 then 1 else 0)
        | .pipe a b =>
            let (bytes, m) := collecting m (run fuel a)
            if m.halt.isSome then m
            else
              let inner := run fuel b { m with input := bytes }
              checked { rejoin m inner with input := m.input }
        | .both a b =>
            let m := runTested fuel a m
            if m.status = 0 then run fuel b m else m
        | .either a b =>
            let m := runTested fuel a m
            if m.status = 0 then m else run fuel b m
        | .sequence a b =>
            let m := run fuel a m
            match b with
            | .simple [] [] [] => m
            | b => run fuel b m
        | .conditional test yes no =>
            let m := runTested fuel test m
            if m.halt.isSome then m
            else if m.status = 0 then run fuel yes m else run fuel no (m.done 0)
        | .select subject patterns yes no =>
            let (s, m) := m.text (capture fuel) subject
            let (selected, m) := Machine.selects (capture fuel) s patterns m
            if selected then run fuel yes m else run fuel no (m.done 0)
        | .loop expected test body =>
            let inner := runLoop fuel expected test body 0 { m with loops := m.loops + 1 }
            { inner with loops := m.loops }
        | .each name words body =>
            let (ss, m) := m.fields (capture fuel) words
            let inner := runEach fuel name body ss { m.done 0 with loops := m.loops + 1 }
            { inner with loops := m.loops }
        | .subshell c =>
            let inner := finish fuel (run fuel c { m with traps := [] })
            checked { rejoin m inner with input := m.input }
        | .redirected c rs => withRedirections (capture fuel) m rs (run fuel c)
        | .define name body => { m.done 0 with functions := m.functions.insert name body }

end

/-- The most steps of a process. -/
def stepLimit : Nat := 100000

/-- A machine that has stopped, as a process that ended. -/
def Machine.completion (m : Machine) : Completion × Duration :=
  let status := match m.halt with
    | some (.process s) => s
    | _ => .code m.status
  (⟨status, m.output.toList, m.errors.toList⟩, m.elapsed)

/-- A whole process with nothing to read, if there is such a program. -/
def process? (name : String) (args : List String) : Option (Completion × Duration) :=
  (become stepLimit name args (Machine.start name [] [])).map Machine.completion

end JobSupervisor.Host.Shell
