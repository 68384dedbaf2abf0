/-!
# Options on a command line

A program takes at most one option with a value, in front of its operands.  The value is
an argument of its own or stands in the argument of the option.  Arguments are read from
left to right, and the first one that cannot stand where it stands decides, unless help
was asked for before it.

## Main definitions

* `ValuedOption` — an option with its long and its short name.
* `Leading.parse?` — reads what stands before the operands.
-/

namespace JobSupervisor.Arguments

/-- An option with a value. -/
structure ValuedOption where
  long : String
  short : String
  acceptsEmpty : Bool
  deriving DecidableEq, Repr

/-- Whether an argument has the form of an option.  Two hyphens count as one, and a single
hyphen does not. -/
def isOption (arg : String) : Bool := arg.startsWith "-" && arg ≠ "-"

/-- Whether an argument asks for help. -/
def isHelp (arg : String) : Bool :=
  arg = "--help" || (arg.startsWith "-h" && !arg.startsWith "--")

/-- What is left of an argument after some characters at its start. -/
def after? (start : String) (arg : String) : Option String :=
  if arg.startsWith start then some (String.ofList (arg.toList.drop start.length)) else none

namespace ValuedOption

/-- Whether an argument is the option without its value. -/
def isBare (o : ValuedOption) (arg : String) : Bool := arg = o.long || arg = o.short

/-- The value in the argument of the option. -/
def attached? (o : ValuedOption) (arg : String) : Option String :=
  match after? (o.long ++ "=") arg with
  | some value => some value
  | none => (after? o.short arg).map fun value => (after? "=" value).getD value

/-- Whether a value may be given. -/
def accepts (o : ValuedOption) (value : String) : Bool := o.acceptsEmpty || !value.isEmpty

end ValuedOption

/-- What stands before the operands. -/
inductive Leading where
  | help
  | options (value : Option String) (operands : List String)
  deriving DecidableEq, Repr

namespace Leading

/-- Reads options after a value may have been given. -/
def parseAfter? (o : ValuedOption) (given : Option String) : List String → Option Leading
  | [] => some (.options given [])
  | [arg] =>
      if o.isBare arg then none
      else match o.attached? arg with
        | some value =>
            if given.isSome || !o.accepts value then none else some (.options (some value) [])
        | none =>
            if isHelp arg then some .help
            else if isOption arg && arg ≠ "--" then none
            else some (.options given [arg])
  | arg :: next :: rest =>
      if o.isBare arg then
        if given.isSome || isOption next || !o.accepts next then none
        else parseAfter? o (some next) rest
      else match o.attached? arg with
        | some value =>
            if given.isSome || !o.accepts value then none
            else parseAfter? o (some value) (next :: rest)
        | none =>
            if isHelp arg then some .help
            else if isOption arg && arg ≠ "--" then none
            else some (.options given (arg :: next :: rest))

/-- Reads what stands before the operands, if the arguments can be understood. -/
def parse? (o : ValuedOption) (args : List String) : Option Leading := parseAfter? o none args

end Leading

/-- Reads operands, at most `room` of them.  The outer answer is missing if an argument
cannot stand there, and the inner one if help is asked for. -/
def operands? : Nat → List String → Option (Option (List String))
  | _, [] => some (some [])
  | room, "--" :: rest => if rest.length ≤ room then some (some rest) else none
  | room, arg :: rest =>
      if isHelp arg then some none
      else if isOption arg then none
      else match room with
        | 0 => none
        | room + 1 => (operands? room rest).map (·.map (arg :: ·))

end JobSupervisor.Arguments
