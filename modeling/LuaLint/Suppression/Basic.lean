import LuaLint.Diagnostic.Basic
import LuaLint.Source.Position
import LuaLint.Suppression.Directive

/-!
# Suppression

The directives of a source decide which diagnostics are dropped. A `noqa` drops diagnostics that
start on its own line; a `disable-file` drops diagnostics wherever they are, and **of several such
directives the last one decides**. Everything else is kept, in the order in which it came.
-/

namespace LuaLint

/-- What the directives of a source say. -/
structure Suppressions where
  /-- What holds for the whole file. -/
  file : Option RuleSet
  /-- What holds for each line, from the first on. -/
  lines : List (Option RuleSet)
deriving Repr, DecidableEq

namespace Suppressions

/-- The suppressions in a source. -/
def ofSource (source : List UInt8) : Suppressions :=
  let lines := Source.lines source
  { file := (lines.filterMap (Directive.inLine? .file)).getLast?
    lines := lines.map (Directive.inLine? .line) }

/-- What holds for a line, counted from one. -/
def onLine (s : Suppressions) (line : Nat) : Option RuleSet := (s.lines[line - 1]?).join

/-- A finding of the rule on the line is dropped. -/
def drops (s : Suppressions) (ruleId : String) (line : Nat) : Bool :=
  s.file.any (·.covers ruleId) || (s.onLine line).any (·.covers ruleId)

end Suppressions

/-- The diagnostics that the directives of the source leave. -/
def unsuppressed (source : List UInt8) (found : List Diagnostic) : List Diagnostic :=
  let s := Suppressions.ofSource source
  found.filter fun d => !s.drops d.ruleId (Source.position source d.start).line

end LuaLint
