import LuaLint.Tree.Node

/-!
# Faults in a tree

A tree is accepted when its root carries no mark of damage. Otherwise the fault to report is looked
for from the root down: a node that is itself a fault is the one, else the search goes on in the
first damaged child. A damaged node with neither is its own report, which happens only where the
marks were set by hand and do not add up.

The greedy descent is right for marks that were computed from below, which `Node.Aggregated` says:
the first damaged child holds the first fault in the order of a walk.

Where the trees come from is left open. A **parser** gives every text a tree, and the program accepts the
tree or reports its fault (`Parser.read`); everything that works on texts has the parser as an argument.
-/

namespace LuaLint

/-- Why a tree is not accepted: its first fault starts at this offset. -/
structure SyntaxFault where
  offset : Int
deriving Repr, DecidableEq

/-- The wording of the fault. -/
def SyntaxFault.message (f : SyntaxFault) : String :=
  s!"syntax error at byte {f.offset}"

namespace Node

mutual

/-- The fault that is reported for a damaged tree, after the child indexes that lead to it. -/
def firstFault : Node → List Nat × Node
  | n@⟨kind, _, missing, _, _, _, _, _, children⟩ =>
    if kind == faultKind || missing then ([], n) else (firstFaultAmong 0 children).getD ([], n)

/-- The fault below the first damaged one of several siblings, of which the first has index `i`. -/
def firstFaultAmong (i : Nat) : List Node → Option (List Nat × Node)
  | [] => none
  | n :: rest =>
    if n.damaged then some (i :: n.firstFault.1, n.firstFault.2) else firstFaultAmong (i + 1) rest

end

/-- The tree if nothing in it is marked as damaged, else its first fault. -/
def accept (n : Node) : Except SyntaxFault Node :=
  if n.damaged then .error ⟨n.firstFault.2.start⟩ else .ok n

mutual

/-- Every mark of damage in the tree is the one computed from below. -/
def Aggregated : Node → Prop
  | ⟨kind, _, missing, damaged, _, _, _, _, children⟩ =>
    damaged = damage kind missing children ∧ AllAggregated children

/-- Every mark of damage in several trees is the one computed from below. -/
def AllAggregated : List Node → Prop
  | [] => True
  | n :: rest => n.Aggregated ∧ AllAggregated rest

end

end Node

/-! ## Parsers -/

/-- A parser for the language. It gives every text a tree, in which what does not follow the language is
marked as damage. -/
structure Parser where
  /-- The root of the tree for the bytes of a text. -/
  tree : List UInt8 → Node

/-- Reads a text: its tree if nothing in it is marked as damaged, else the first fault in it. -/
def Parser.read (parser : Parser) (source : List UInt8) : Except SyntaxFault Node :=
  (parser.tree source).accept

end LuaLint
