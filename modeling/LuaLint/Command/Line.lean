/-!
# The command line

What a run does hangs on what its command line asks for (`Line`). This has two stages, because the program
**begins** a run, which sets up its log, once its own options and the name of the command are accepted, and
before the arguments of the command are looked at. A line that fails before that leaves the log as it was.

How a line is read is the matter of a library, and no run looks at the arguments themselves.
`Line.ofArgs` is the reading that the program is called with. The program has one command, `check`.
Options of the program itself come before the command and the options of `check` after it; there they may
be mixed with the paths, and `--` makes everything after it a path. All options are flags: none takes a
value, and short ones may be written together (`-vv`).
-/

namespace LuaLint.Command

/-! ## Lines -/

/-- What the arguments of `check` ask for. -/
inductive CheckLine
  /-- Help or a usage message is shown, with an exit code. -/
  | usage (code : Nat)
  | check (paths : List String) (denyWarnings : Bool)
deriving Repr, DecidableEq

/-- What a command line asks for. -/
inductive Line
  /-- Something else than a run is asked for, such as help, or nothing that is understood. -/
  | usage (code : Nat)
  /-- The run begins. -/
  | begun (verbose : Bool) (command : CheckLine)
deriving Repr, DecidableEq

/-- The paths to check, if it comes to that. -/
def Line.paths : Line → List String
  | .begun _ (.check paths _) => paths
  | _ => []

/-! ## Options -/

/-- The options, all of them flags. -/
inductive Flag
  | help
  /-- A script for the completion of command lines is shown or installed. -/
  | completion
  | verbose
  | denyWarnings
deriving Repr, DecidableEq

/-- The options that may stand at some place, under their long and their short names. -/
structure FlagNames where
  long : List (String × Flag)
  short : List (Char × Flag) := []

/-- The options of the program. -/
def programFlags : FlagNames :=
  { long := [("--verbose", .verbose), ("--install-completion", .completion),
      ("--show-completion", .completion), ("--help", .help)]
    short := [('v', .verbose)] }

/-- The options of `check`. -/
def checkFlags : FlagNames :=
  { long := [("--deny-warnings", .denyWarnings), ("--help", .help)] }

/-- The argument has the form of an option. -/
def isOption (arg : String) : Bool :=
  match arg.toList with
  | '-' :: _ :: _ => true
  | _ => false

/-- The flags that an option sets: one under a long name, or several short ones. -/
def FlagNames.read (names : FlagNames) (option : String) : Option (List Flag) :=
  match names.long.lookup option with
  | some flag => some [flag]
  | none => match option.toList with
    | '-' :: '-' :: _ => none
    | '-' :: letters => letters.mapM fun c => names.short.lookup c
    | _ => none

/-- The flags and the operands among arguments; `none` if there is an option that is not known. Unless
options may be mixed with operands, the first operand ends the options. -/
def FlagNames.readAll (names : FlagNames) (mixed : Bool) :
    List String → Option (List Flag × List String)
  | [] => some ([], [])
  | arg :: rest =>
    if arg = "--" then some ([], rest)
    else if isOption arg then do
      let flags ← names.read arg
      let (more, operands) ← readAll names mixed rest
      return (flags ++ more, operands)
    else if mixed then do
      let (flags, operands) ← readAll names mixed rest
      return (flags, arg :: operands)
    else some ([], arg :: rest)

/-! ## Reading a line -/

/-- The exit code after help, and after a script for completion. -/
def helpCode : Nat := 0

/-- The exit code after a mistake in the command line. -/
def usageCode : Nat := 2

/-- Reads the arguments of `check`. Without any it shows its help as if by mistake. -/
def CheckLine.ofArgs (args : List String) : CheckLine :=
  if args.isEmpty then .usage usageCode
  else match checkFlags.readAll true args with
    | none => .usage usageCode
    | some (flags, paths) =>
      if flags.contains .help then .usage helpCode
      else .check paths (flags.contains .denyWarnings)

/-- The flags of the program ask for something else than a run. -/
def asksAside (flags : List Flag) : Bool := flags.contains .help || flags.contains .completion

/-- The exit code for operands that begin with no command. One that has the form of an option is read
as an option once more, so help is still shown. -/
def unknownCommand (operands : List String) : Nat :=
  match programFlags.readAll false operands with
  | some (flags, _) => if asksAside flags then helpCode else usageCode
  | none => usageCode

/-- Reads a command line. -/
def Line.ofArgs (args : List String) : Line :=
  match programFlags.readAll false args with
  | none => .usage usageCode
  | some (flags, operands) =>
    if asksAside flags then .usage helpCode
    else match operands with
      | [] => .usage usageCode
      | command :: rest =>
        if command = "check" then .begun (flags.contains .verbose) (.ofArgs rest)
        else .usage (unknownCommand operands)

end LuaLint.Command
