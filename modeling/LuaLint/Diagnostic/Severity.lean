/-!
# Severities and categories

How much weight a finding carries, and what sort of rule found it. Both are written as single words
wherever they are read or shown; `ofWord?` reads exactly the words that `word` writes.
-/

namespace LuaLint

/-- How much weight a rule's findings carry. -/
inductive Severity
  | error
  | warning
  /-- The rule is switched off. -/
  | allow
deriving Repr, DecidableEq, Inhabited

namespace Severity

/-- The word for the severity. -/
def word : Severity → String
  | error => "error"
  | warning => "warning"
  | allow => "allow"

/-- The severity that a word stands for. -/
def ofWord? : String → Option Severity
  | "error" => some error
  | "warning" => some warning
  | "allow" => some allow
  | _ => none

theorem ofWord?_word (s : Severity) : ofWord? s.word = some s := by
  cases s <;> rfl

/-- The finding makes a check fail: errors always do, warnings on demand. -/
def isFailing (denyWarnings : Bool) : Severity → Bool
  | error => true
  | warning => denyWarnings
  | allow => false

end Severity

/-- What sort of flaw a rule looks for. -/
inductive Category
  | complexity
  | correctness
  | performance
  | style
deriving Repr, DecidableEq, Inhabited

namespace Category

/-- The word for the category. -/
def word : Category → String
  | complexity => "complexity"
  | correctness => "correctness"
  | performance => "performance"
  | style => "style"

/-- The category that a word stands for. -/
def ofWord? : String → Option Category
  | "complexity" => some complexity
  | "correctness" => some correctness
  | "performance" => some performance
  | "style" => some style
  | _ => none

theorem ofWord?_word (c : Category) : ofWord? c.word = some c := by
  cases c <;> rfl

end Category

end LuaLint
