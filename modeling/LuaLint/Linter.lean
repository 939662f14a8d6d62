import LuaLint.Log
import LuaLint.Rule.Basic
import LuaLint.Suppression.Basic
import LuaLint.Table
import LuaLint.Tree.Fault

/-!
# Linting a file

A linter is a list of rules, the user's severities and the standard library that the code is written
for. It runs over one source at a time and keeps no state between two of them.

Each rule has its **turn**, in order. Its effective severity is the user's for the rule's id, or else
its own; a rule that is allowed is passed over, any other is run and its findings take the effective
severity. All findings are then put in the order of their starts, where equal starts keep the order of
the turns, and the directives of the source drop some of them.

A text that the parser finds a fault in has no findings. A rule that fails makes the whole file fail, and
what was logged before it stays in the log.
-/

namespace LuaLint

/-- Rules and how to run them. -/
structure Linter where
  rules : List Rule
  /-- The user's severities by rule id. -/
  severities : Table Severity := []
  standardLibrary : String := "lua51"

/-- What came of a rule's turn. -/
inductive Turn
  /-- The rule is allowed and was not run. -/
  | passedOver
  | findings (found : List Diagnostic)
deriving Repr, DecidableEq

namespace Linter

/-- The linter with some of the user's severities replaced. -/
def override (l : Linter) (changes : Table Severity) : Linter :=
  { l with severities := changes.foldl (fun t (id, s) => Table.put id s t) l.severities }

/-- The severity at which a rule runs. -/
def effective (l : Linter) (r : Rule) : Except Malformed Severity := do
  let own ← r.severity
  return (Table.get? l.severities r.id).getD own

/-- The turn of a rule. -/
def turn (l : Linter) (tree : Node) (context : Context) (r : Rule) : Except Malformed Turn := do
  let severity ← l.effective r
  if severity = .allow then return .passedOver
  else return .findings ((← r.check tree context).map (·.recolour severity))

/-- The log and the findings of the turns of several rules, up to the first that fails. -/
def gather (turnOf : Rule → Except Malformed Turn) :
    List Rule → List LogEvent × Except Malformed (List Diagnostic)
  | [] => ([], .ok [])
  | r :: rest => match turnOf r with
    | .error flaw => ([], .error flaw)
    | .ok .passedOver =>
      let (log, found) := gather turnOf rest
      (.ruleAllowed r.id :: log, found)
    | .ok (.findings first) =>
      let (log, found) := gather turnOf rest
      (log, found.map (first ++ ·))

/-- Diagnostics in the order of their starts; equal starts keep their order. -/
def inOrder (found : List Diagnostic) : List Diagnostic :=
  found.mergeSort fun a b => decide (a.start ≤ b.start)

/-- Lints a source whose tree is known. -/
def lintTree (l : Linter) (source : List UInt8) (tree : Node) :
    List LogEvent × Except Malformed (List Diagnostic) :=
  let (log, found) := gather (l.turn tree ⟨source, l.standardLibrary⟩) l.rules
  (log, found.map fun ds => unsuppressed source (inOrder ds))

/-- Lints a source that the parser reads: what is logged and what is found. -/
def lint (l : Linter) (parser : Parser) (source : List UInt8) :
    List LogEvent × Except Malformed (List Diagnostic) :=
  match parser.read source with
  | .error fault => ([.unparsable fault], .ok [])
  | .ok tree => l.lintTree source tree

end Linter

/-- A diagnostic as a line of a report: where it is, how grave it is, which rule found it, and what
it says. -/
def Diagnostic.render (d : Diagnostic) (source : List UInt8) (path : String) : String :=
  let place := Source.position source d.start
  s!"{path}:{place.line}:{place.column}: {d.severity.word}[{d.ruleId}]: {d.message}"

end LuaLint
