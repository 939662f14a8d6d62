import LuaLint.Command.Line
import LuaLint.Command.Logger
import LuaLint.Files.Search
import LuaLint.Linter
import LuaLint.Settings.File

/-!
# Running a command

`check` gathers the files, loads the settings of the working directory, builds the active rules, and
then lints one file after the other. Findings go to standard output, a file that cannot be read is
named on standard error and passed over, and the exit code tells whether any finding is failing.

**What a run writes is a transcript**: reports, errors and log records in the order in which they come
up. Which log records are seen is for the logger to decide; with a verbose run they go to standard
error, between the errors.

**What the program runs on** is an argument: the parser and the limits of the interpreter (`Host`), the
library that keeps the sinks of the log, and the reading of the command line, of which a run only gets what
came of it (`Line`).
-/

namespace LuaLint.Command

/-- Something that a run writes. -/
inductive Message
  /-- A line on standard output. -/
  | report (text : String)
  /-- A line on standard error. -/
  | error (text : String)
  | log (event : LogEvent)
deriving Repr

/-- What ends a run without an exit code. -/
inductive Crash
  /-- No settings come of the file of settings. -/
  | settings (e : Settings.LoadError)
  /-- A rule failed. -/
  | rule (flaw : Malformed)
  /-- The logger lost a sink. -/
  | logger (e : UnknownSink)
deriving Repr, DecidableEq

/-- The wording of the reason. -/
def Crash.message : Crash → String
  | settings e => e.message
  | rule flaw => flaw.message
  | logger e => s!"there is no sink {e.number}"

/-- What the program runs on. -/
structure Host where
  parser : Parser
  limits : Toml.Limits := {}

/-! ## One file -/

/-- Lints one file: what is written, and whether a finding is failing. -/
def checkFile (parser : Parser) (d : Disk) (l : Linter) (denyWarnings : Bool) (file : Path) :
    List Message × Except Crash Bool :=
  match d.read file with
  | .error e => ([.error ("error: " ++ e.message file)], .ok false)
  | .ok source =>
    let (log, found) := l.lint parser source
    match found with
    | .error flaw => (log.map .log, .error (.rule flaw))
    | .ok found =>
      (log.map .log ++ found.map fun d => .report (d.render source file.text),
       .ok (found.any (·.severity.isFailing denyWarnings)))

/-- Lints files one after the other, up to the first that crashes. -/
def checkFiles (parser : Parser) (d : Disk) (l : Linter) (denyWarnings : Bool) :
    List Path → List Message × Except Crash Bool
  | [] => ([], .ok false)
  | file :: rest =>
    let (written, failed) := checkFile parser d l denyWarnings file
    match failed with
    | .error crash => (written, .error crash)
    | .ok failed =>
      let (more, others) := checkFiles parser d l denyWarnings rest
      (written ++ more, others.map (failed || ·))

/-! ## The command -/

/-- The exit code after failing findings. -/
def failureCode : Nat := 1

/-- The exit code after settings that a rule refuses. -/
def configurationCode : Nat := 2

/-- The linter that the settings describe. -/
def linterOf (registry : Registry Toml.Value) (s : Settings) :
    Except ConfigurationError Linter := do
  let rules ← (registry.choose s.selection).instantiate s.options
  return { rules := rules.map (·.2), severities := s.severities
           standardLibrary := s.standardLibrary }

/-- Runs `check`: what is written, and the exit code. The records of the log are taken or not. -/
def check (host : Host) (recorded : Bool) (d : Disk) (registry : Registry Toml.Value)
    (paths : List Path) (denyWarnings : Bool) : List Message × Except Crash Nat :=
  let files := d.filesToCheck paths
  let loading := Settings.load host.limits recorded d (.absolute d.cwd)
  let written := (.filesFound files.length :: loading.log).map Message.log
  match loading.outcome with
  | .error e => (written, .error (.settings e))
  | .ok settings => match linterOf registry settings with
    | .error e => (written ++ [.error ("error: invalid configuration: " ++ e.message)],
        .ok configurationCode)
    | .ok linter =>
      let (more, failed) := checkFiles host.parser d linter denyWarnings files
      (written ++ more, failed.map fun failed => if failed then failureCode else 0)

/-! ## Runs -/

/-- What came of a run. -/
inductive Outcome
  /-- Help or a usage message was shown. -/
  | usage (code : Nat)
  | exit (code : Nat) (written : List Message)
  | crash (reason : Crash) (written : List Message)
deriving Repr

section runs

variable {σ : Type} (lib : LogLibrary σ)

/-- Runs a command line: the logger after the run, and what came of it. -/
def run (host : Host) (d : Disk) (registry : Registry Toml.Value) (l : Logger σ) (line : Line) :
    Logger σ × Outcome :=
  match line with
  | .usage code => (l, .usage code)
  | .begun verbose command => match l.begin lib verbose with
    | .error e => (l, .crash (.logger e) [])
    | .ok l => match command with
      | .usage code => (l, .usage code)
      | .check paths denyWarnings =>
        match check host (l.recorded lib) d registry (paths.map Path.ofText) denyWarnings with
        | (written, .ok code) => (l, .exit code written)
        | (written, .error reason) => (l, .crash reason written)

/-- The lines on standard output. -/
def standardOutput (written : List Message) : List String :=
  written.filterMap fun m => match m with
    | .report text => some text
    | _ => none

/-- The lines on standard error, with log records as `wording` writes them. -/
def standardError (wording : LogEvent → String) (l : Logger σ) (written : List Message) :
    List String :=
  written.flatMap fun m => match m with
    | .report _ => []
    | .error text => [text]
    | .log event => (l.written lib event).map wording

end runs

end LuaLint.Command
