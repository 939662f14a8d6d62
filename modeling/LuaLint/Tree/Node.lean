/-!
# Syntax tree nodes

A **node** is a named construct (`binary_expression`) or an anonymous token (`/`), with the half-open
byte range that it covers and its children from left to right. The same type carries the trees that
a parser builds and trees given as data, so nothing about ranges or shapes is assumed here:
a range may be reversed, a `binary_expression` may have no children at all.

Two marks speak of damage. `missing` says that the node stands for text which is not there, and
`damaged` says that the node or something below it is an `ERROR` node or missing. For a tree whose
marks were computed from below (`Node.Aggregated`) the second one is exact.
-/

namespace LuaLint

/-- A node of a concrete syntax tree. -/
structure Node where
  /-- What the node is: the name of a construct, or the text of a token. -/
  kind : String
  /-- Constructs are named; keywords, operators and punctuation are not. -/
  named : Bool
  /-- The node stands for text that is missing from the source. -/
  missing : Bool
  /-- The node, or one below it, is an `ERROR` node or missing. -/
  damaged : Bool
  /-- Offset of the first byte. -/
  start : Int
  /-- Offset one past the last byte. -/
  stop : Int
  /-- The bytes of a token. It may be empty on nodes that have children. -/
  text : List UInt8
  /-- The role of the node in its parent, such as `left`. -/
  field : Option String
  /-- The children from left to right, tokens and comments included. -/
  children : List Node
deriving Inhabited, Repr, BEq

namespace Node

/-- The kind of a node that stands for text which fits no rule of the language. -/
def faultKind : String := "ERROR"

/-- The node is itself a fault: an `ERROR` node, or missing. -/
def isFault (n : Node) : Bool := n.kind == faultKind || n.missing

/-- The mark `damaged` as it is computed from the node's own marks and its children's. -/
def damage (kind : String) (missing : Bool) (children : List Node) : Bool :=
  kind == faultKind || missing || children.any (·.damaged)

/-- A token: a sound node without children that spells `text`. -/
def token (kind : String) (named : Bool) (start stop : Int) (text : List UInt8) : Node :=
  { kind, named, missing := false, damaged := false, start, stop, text, field := none, children := [] }

/-- A construct: it starts where its first child starts and stops where its last child stops. -/
def construct (kind : String) (children : List Node) : Node :=
  { kind, named := true, missing := false, damaged := damage kind false children
    start := (children.head?.map (·.start)).getD 0
    stop := (children.getLast?.map (·.stop)).getD 0
    text := [], field := none, children }

/-- The same node in the role `name` of its parent. -/
def inField (name : String) (n : Node) : Node := { n with field := some name }

/-- The first child in the role `name`. -/
def child? (n : Node) (name : String) : Option Node :=
  n.children.find? (·.field == some name)

/-- The node that a list of child indexes leads to. -/
def descend? (n : Node) : List Nat → Option Node
  | [] => some n
  | i :: path => match n.children[i]? with
    | some c => c.descend? path
    | none => none

end Node

end LuaLint
