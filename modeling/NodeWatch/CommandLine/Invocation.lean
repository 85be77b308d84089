import NodeWatch.CommandLine.Help
import NodeWatch.CommandLine.Options
import NodeWatch.CommandLine.Suggestion

/-!
# Reading the command line

The arguments are read from left to right. A flag that takes a value takes
the next argument whatever it is, or what is attached to it: `-p80`,
`--port=80`. The version is printed as soon as its flag is met, and a fault
ends the reading where it stands. An argument that looks like a flag and is
none is kept, with everything that is not understood after it, while the
reading goes on; at the end a kept `--help` asks for the help text, and
otherwise the first of what was kept is refused. After `--` no argument is a
flag. Other arguments have no effect.

## Main definitions

* `CommandLine.Argument`: What an argument may be.
* `CommandLine.scan`: The arguments from left to right.
* `CommandLine.Invocation`, `CommandLine.Fault`: What the user asks for, and
  why it cannot be done.
* `CommandLine.parse`: Reading the command line.
-/

namespace NodeWatch

namespace CommandLine

/-- What an argument may be. -/
inductive Argument where
  /-- The end of the flags. -/
  | stop
  | flag (flag : Flag)
  /-- A flag and its value in one. -/
  | attached (flag : Flag) (value : Text)
  /-- It looks like a flag and is none. -/
  | unknown
  | operand
deriving DecidableEq

/-- A flag with its value after an equals sign. -/
def longWithValue? (arg : Text) : Option Argument :=
  let name := arg.takeWhile (· ≠ ascii '=')
  if name.take 2 = ("--" : Text) ∧ 2 < name.length ∧ name.length < arg.length then
    match Flag.find? name with
    | some f => if f.takesValue then some (.attached f (arg.drop (name.length + 1))) else none
    | none => none
  else none

/-- A flag by its letter, with whatever follows that. A letter that takes no
    value could begin a group; the only one asks for the version, after which
    nothing is read. -/
def shortWithValue? (arg : Text) : Option Argument :=
  match arg with
  | dash :: letter :: next :: rest =>
    if dash = ascii '-' ∧ letter ≠ ascii '-' then
      match Flag.find? [dash, letter] with
      | some f => some (if f.takesValue then .attached f (next :: rest) else .flag f)
      | none => none
    else none
  | _ => none

/-- Whether an argument looks like a flag. -/
def looksLikeFlag (arg : Text) : Bool := 1 < arg.length && arg.head? == some (ascii '-')

/-- What an argument is where a flag may stand. -/
def Argument.ofText (arg : Text) : Argument :=
  if arg = ("--" : Text) then .stop
  else if looksLikeFlag arg then
    match Flag.find? arg with
    | some f => .flag f
    | none => ((shortWithValue? arg).or (longWithValue? arg)).getD .unknown
  else .operand

/-- Why the command line is refused. -/
inductive Fault where
  /-- The value of a flag is missing. -/
  | missing (flag : Flag)
  /-- The value of a flag is refused. -/
  | invalid (flag : Flag) (value : Text) (fault : ValueFault)
  | unknown (arg : Text)
deriving DecidableEq

/-- The wording of the fault. -/
def Fault.message : Fault → Text
  | .missing f => "option '" ++ f.term ++ "' argument missing"
  | .invalid f value fault =>
    "option '" ++ f.term ++ "' argument '" ++ value ++ "' is invalid. " ++ fault.message
  | .unknown arg => "unknown option '" ++ arg ++ "'" ++ suggestion arg

/-- How the reading from left to right ends. -/
inductive Scan where
  /-- The version is asked for. -/
  | version
  /-- All was read, and some arguments were kept. -/
  | read (options : Options) (kept : List Text)
deriving DecidableEq

/-- The options after a flag with a value, if that is accepted. -/
def setFlag (o : Options) (f : Flag) (value : Text) : Except Fault Options :=
  (o.set f value).mapError (.invalid f value)

/-- The arguments from left to right. -/
def scan (o : Options) (kept : List Text) : List Text → Except Fault Scan
  | [] => .ok (.read o kept)
  | arg :: rest =>
    match Argument.ofText arg with
    | .stop => .ok (.read o (if kept = [] then [] else kept ++ arg :: rest))
    | .flag .version => .ok .version
    | .flag f =>
      if f.takesValue then
        match rest with
        | [] => .error (.missing f)
        | value :: rest =>
          match setFlag o f value with
          | .error fault => .error fault
          | .ok o => scan o kept rest
      else scan (o.choose f) kept rest
    | .attached f value =>
      match setFlag o f value with
      | .error fault => .error fault
      | .ok o => scan o kept rest
    | .unknown => scan o (kept ++ [arg]) rest
    | .operand => scan o (if kept = [] then [] else kept ++ [arg]) rest

/-- What the user asks for. -/
inductive Invocation where
  | run (options : Options)
  /-- Only a text is printed. -/
  | print (text : Text)
deriving DecidableEq

/-- Reading the command line. -/
def parse (args : List Text) : Except Fault Invocation :=
  match scan .initial [] args with
  | .error fault => .error fault
  | .ok .version => .ok (.print versionLine)
  | .ok (.read o kept) =>
    if Flag.help.long ∈ kept then .ok (.print help)
    else
      match kept with
      | [] => .ok (.run o)
      | arg :: _ => .error (.unknown arg)

end CommandLine

end NodeWatch
