import LuaLint.Rule.Basic
import LuaLint.Tree.Traversal

/-!
# The rule `divide_by_zero`

Flags a division by the literal `0`. **Only the spelling counts**: the divisor is the numeral `0` and
not `0.0`, `0x0` or `(0)`, and the operator is `/` and not `//`. A dividend that is the same numeral
makes the division a deliberate way to write NaN, and it is left alone.

The operator is the first anonymous child, the operands are the children in the roles `left` and
`right`. A node that lacks one of the three is not a division. Comments are named nodes without a
role, so they never stand in for any of them.
-/

namespace LuaLint.ZeroDivisor

/-- The id of the rule. -/
def id : String := "divide_by_zero"

/-- What the rule says about each of its findings. -/
def message : String := "dividing by zero is not allowed, use math.huge instead"

/-- The node is the numeral `0`. -/
def isLiteralZero (n : Node) : Bool :=
  n.kind == "number" && n.text == [0x30]

/-- The operator of a binary operation. -/
def operator? (n : Node) : Option String :=
  (n.children.find? (!·.named)).map (·.kind)

/-- The node divides something else by the literal `0`. -/
def flags (n : Node) : Bool :=
  n.named && n.kind == "binary_expression" && operator? n == some "/" &&
    match n.child? "left", n.child? "right" with
    | some left, some right => isLiteralZero right && !isLiteralZero left
    | _, _ => false

/-- The finding for a node. -/
def finding (n : Node) : Except Malformed Diagnostic := do
  let span ← Span.ofOffsets n.start n.stop
  Diagnostic.ofLabels id message .warning [⟨span, none⟩]

/-- One finding for each flagged node, in the order of a walk. -/
def check (tree : Node) (_ : Context) : Except Malformed (List Diagnostic) :=
  (tree.visited.filter flags).mapM finding

/-- The rule. -/
def rule : Rule :=
  { id, severity := .ok .warning, category := .ok .complexity, check }

/-- The rule has no options. -/
def blueprint {α : Type} : Blueprint α :=
  { id, fields := [], build := fun _ => .ok rule }

end LuaLint.ZeroDivisor
