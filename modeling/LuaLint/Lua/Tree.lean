import LuaLint.Lua.Grammar
import LuaLint.Tree.Fault

/-!
# The tree of a Lua text

`Lua.tree` gives every text a tree. A text that follows the grammar gets its concrete syntax tree,
with each comment in the innermost node that has a token before and after it; the comments outside
everything belong to the root. Any other text gets an `ERROR` node that starts where reading stopped.

`Lua.parser` is the parser that the command line runs with. Nothing that is stated of the program in
general is about this parser in particular.
-/

namespace LuaLint

namespace Node

mutual

/-- Puts comments into the tree of a node that spans them. -/
def weave : Node → List Node → Node
  | n, [] => n
  | ⟨kind, named, missing, damaged, start, stop, text, field, children⟩, comments =>
    ⟨kind, named, missing, damaged, start, stop, text, field, weaveAll children comments⟩

/-- Puts comments between siblings and into them, all in the order of their offsets. -/
def weaveAll : List Node → List Node → List Node
  | [], comments => comments
  | n :: rest, comments =>
    let (before, comments) := comments.span (·.stop ≤ n.start)
    let (inside, comments) := comments.span (·.stop ≤ n.stop)
    before ++ n.weave inside :: weaveAll rest comments

end

end Node

namespace Lua

/-- The node is a comment. -/
def isComment (n : Node) : Bool := n.named && n.kind == "comment"

/-- The root over the given tokens and comments of a text with `length` bytes. It starts at its first
child and stops at the end of the text. -/
def root (length : Nat) (cuts : List Node) : Except Obstacle Node := do
  let (comments, tokens) := cuts.partition isComment
  let children := Node.weaveAll (← chunk tokens) comments
  return { Node.construct "chunk" children with
    start := (children.head?.map (·.start)).getD length
    stop := length }

/-- The tree of a text that does not follow the grammar: one fault from `offset` to the end. -/
def unreadable (source : List UInt8) (offset : Int) : Node :=
  { kind := Node.faultKind, named := true, missing := false, damaged := true
    start := offset, stop := source.length, text := [], field := none, children := [] }

/-- The tree of a text. -/
def tree (source : List UInt8) : Node :=
  match tokens source with
  | .error fault => unreadable source fault.offset
  | .ok cuts => match root source.length cuts with
    | .ok n => n
    | .error (.token offset) => unreadable source offset
    | .error .endOfText => unreadable source source.length

/-- The parser that gives a text its tree. -/
def parser : Parser := ⟨tree⟩

/-- A tree that is read is the root over the tokens and comments of the text. -/
theorem root_of_read {source : List UInt8} {n : Node} (h : parser.read source = .ok n) :
    ∃ cuts, tokens source = .ok cuts ∧ root source.length cuts = .ok n := by
  unfold Parser.read parser Node.accept at h
  split at h
  · cases h
  · rename_i sound
    obtain rfl := Except.ok.inj h
    rcases cut : tokens source with fault | cuts
    · simp [tree, cut, unreadable] at sound
    · rcases rooted : root source.length cuts with obstacle | n
      · cases obstacle <;> simp [tree, cut, rooted, unreadable] at sound
      · exact ⟨cuts, rfl, by simp only [tree, cut, rooted]⟩

end Lua

end LuaLint
