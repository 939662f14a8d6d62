import LuaLint.Diagnostic.Severity
import LuaLint.Text.Quoted

/-!
# Diagnostics

A diagnostic is one finding: the rule that made it, a message, a severity, and one or more labels
that point into the source. The first label is the **primary** one; it says where the finding is.

A span is a half-open range of bytes that starts at or after 0 and does not end before it starts.
Both facts are part of the types, so they hold of every value however it came about. What cannot be
made into a value is `Malformed`, with the reason.
-/

namespace LuaLint

/-- Why a part of a diagnostic cannot be made. -/
inductive Malformed
  /-- A span would start before the source or end before its start. -/
  | span (start stop : Int)
  /-- A diagnostic of the rule would point nowhere. -/
  | unlabelled (ruleId : String)
  /-- The text names no severity. -/
  | severity (text : String)
  /-- The text names no category. -/
  | category (text : String)
deriving Repr, DecidableEq

/-- The wording of the reason. -/
def Malformed.message : Malformed → String
  | span start stop => s!"invalid source range ({start}, {stop})"
  | unlabelled ruleId => s!"diagnostic {Text.quoted ruleId} has no labels"
  | severity text => s!"{Text.quoted text} is not a valid Severity"
  | category text => s!"{Text.quoted text} is not a valid RuleType"

/-- Reads the word for a severity. -/
def Severity.ofWord (text : String) : Except Malformed Severity :=
  match ofWord? text with
  | some s => .ok s
  | none => .error (.severity text)

/-- Reads the word for a category. -/
def Category.ofWord (text : String) : Except Malformed Category :=
  match ofWord? text with
  | some c => .ok c
  | none => .error (.category text)

/-! ## Spans and labels -/

/-- A half-open range of bytes of a source. -/
structure Span where
  start : Nat
  stop : Nat
  start_le_stop : start ≤ stop := by omega
deriving Repr, DecidableEq

/-- The span between two offsets, if they make one. -/
def Span.ofOffsets (start stop : Int) : Except Malformed Span :=
  if _ : 0 ≤ start ∧ start ≤ stop then .ok { start := start.toNat, stop := stop.toNat }
  else .error (.span start stop)

/-- A span, perhaps with a short remark. -/
structure Label where
  span : Span
  message : Option String
deriving Repr, DecidableEq

/-! ## Diagnostics -/

/-- A finding. -/
structure Diagnostic where
  ruleId : String
  message : String
  severity : Severity
  /-- The label that says where the finding is. -/
  primary : Label
  /-- What else it points to. -/
  others : List Label
deriving Repr, DecidableEq

namespace Diagnostic

/-- All labels, the primary one first. -/
def labels (d : Diagnostic) : List Label := d.primary :: d.others

/-- The finding with the given labels. There must be at least one. -/
def ofLabels (ruleId message : String) (severity : Severity) :
    List Label → Except Malformed Diagnostic
  | [] => .error (.unlabelled ruleId)
  | primary :: others => .ok { ruleId, message, severity, primary, others }

/-- The same finding at another severity. -/
def recolour (severity : Severity) (d : Diagnostic) : Diagnostic := { d with severity }

/-- The offset where the finding is. -/
def start (d : Diagnostic) : Nat := d.primary.span.start

end Diagnostic

end LuaLint
