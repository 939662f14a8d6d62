import LuaLint.Proofs.Source.Lines
import LuaLint.Tree.Fault
import LuaLint.Tree.Traversal

/-!
# What is assumed of a parser

Most of what is stated of the program holds whatever the parser gives for a text. Two results ask for more,
and each names what it asks for.

* **Proper ranges** (`Parser.Proper`): the nodes of a tree that is accepted start at an offset and stop at
  it or behind it. A rule that makes a span of the range of a node fails on nothing else.
* **Comments are nodes** (`Parser.KeepsComments`): in a text that is accepted, every comment is a node of
  kind `comment`. In Lua a comment begins with two dashes, and two dashes begin one wherever they do not
  stand in a string or in the line with a hash sign at the start of a text. So the comments of a text are
  told from its other dashes by the nodes of these two kinds.

The parser of this library has both properties (`Lua.parser_proper`, `Lua.parser_keepsComments`).
-/

namespace LuaLint

/-- The node covers the offset. -/
def Node.Covers (n : Node) (offset : Nat) : Prop := n.start ≤ offset ∧ offset < n.stop

/-- The kinds of the nodes in which two dashes begin no comment: what stands between the quotes or brackets
of a string, and a line with a hash sign. -/
def Node.literalKinds : List String := ["string_content", "hash_bang_line"]

namespace Parser

/-- The nodes of accepted trees have proper ranges. -/
def Proper (parser : Parser) : Prop :=
  ∀ source tree, parser.read source = .ok tree → ∀ n ∈ tree.preorder, 0 ≤ n.start ∧ n.start ≤ n.stop

/-- The comments of accepted texts are nodes of kind `comment`. -/
def KeepsComments (parser : Parser) : Prop :=
  ∀ source tree, parser.read source = .ok tree → ∀ offset, Source.DashesAt source offset →
    (∀ n ∈ tree.preorder, n.kind ∈ Node.literalKinds → ¬ n.Covers offset) →
      ∃ n ∈ tree.preorder, n.kind = "comment" ∧ n.Covers offset

end Parser

end LuaLint
