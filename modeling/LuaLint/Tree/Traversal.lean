import LuaLint.Tree.Node

/-!
# Walking a tree

A walk makes one call for each node, a parent before its children and an earlier sibling before a
later one. It is defined twice. `Node.preorder` is the recursive definition. `Cursor` is the machine
that a reader of large trees uses: it stands on a node of a tree and moves to the first child, to the
next sibling or to the parent. A walk goes down if it can, else to the next sibling, else to the next
sibling of the nearest ancestor that has one. **A cursor never climbs above the node where it was
created**, and does not leave it sideways either, so a walk from an inner node stays inside that node.

What is called for a node is its `Call`: tokens are announced as tokens whatever the walker handles,
named nodes go to the handler for their kind if the walker has one.
-/

namespace LuaLint

namespace Node

mutual

/-- The nodes of the tree, a parent before its children, siblings from left to right. -/
def preorder : Node → List Node
  | n@⟨_, _, _, _, _, _, _, _, children⟩ => n :: preorderAll children

/-- The nodes of several trees, one tree after the other. -/
def preorderAll : List Node → List Node
  | [] => []
  | n :: rest => n.preorder ++ preorderAll rest

end

theorem preorder_eq (n : Node) : n.preorder = n :: preorderAll n.children := by
  cases n; simp [preorder]

end Node

/-! ## The cursor -/

/-- A level of a tree above a cursor. -/
structure Level where
  /-- The node whose children form the level. -/
  parent : Node
  /-- Its children to the right of the one that the cursor is at or below. -/
  right : List Node

/-- A place in a tree. -/
structure Cursor where
  /-- The node that the cursor stands on. -/
  node : Node
  /-- The levels up to the root of the tree, the one of the node itself first. -/
  levels : List Level
  /-- How many levels the node lies below the one where the cursor was created. Only these are open to
  it. -/
  depth : Nat

namespace Cursor

/-- A cursor that is created on the root of a tree. -/
def start (n : Node) : Cursor := ⟨n, [], 0⟩

/-! ### Moves -/

/-- Moves to the first child, if there is one. -/
def firstChild? (c : Cursor) : Option Cursor :=
  match c.node.children with
  | [] => none
  | n :: rest => some ⟨n, ⟨c.node, rest⟩ :: c.levels, c.depth + 1⟩

/-- Moves to the next sibling, if there is one. The node where the cursor was created has none. -/
def nextSibling? (c : Cursor) : Option Cursor :=
  match c.depth, c.levels with
  | depth + 1, ⟨parent, n :: rest⟩ :: outer => some ⟨n, ⟨parent, rest⟩ :: outer, depth + 1⟩
  | _, _ => none

/-- Moves to the parent, if there is one. The node where the cursor was created has none. -/
def parent? (c : Cursor) : Option Cursor :=
  match c.depth, c.levels with
  | depth + 1, level :: outer => some ⟨level.parent, outer, depth⟩
  | _, _ => none

theorem depth_of_parent {c d : Cursor} (h : c.parent? = some d) : c.depth = d.depth + 1 := by
  unfold parent? at h
  split at h
  · rename_i depth level outer hd _
    obtain rfl : (⟨level.parent, outer, depth⟩ : Cursor) = d := by simpa using h
    exact hd
  · simp at h

/-- Moves to the nearest node on the right, climbing as far as needed; `none` once the climb has
come back to the node where the cursor was created. -/
def nextRight? (c : Cursor) : Option Cursor :=
  match c.nextSibling? with
  | some d => some d
  | none => match _ : c.parent? with
    | some d => d.nextRight?
    | none => none
termination_by c.depth
decreasing_by rename_i h; have := depth_of_parent h; omega

/-- One move of a walk: down if possible, else to the right. -/
def next? (c : Cursor) : Option Cursor :=
  match c.firstChild? with
  | some d => some d
  | none => c.nextRight?

/-! ### What lies ahead -/

/-- The nodes to the right of the cursor's path, as far as the levels are open to it. -/
def toRight (c : Cursor) : List Node :=
  (c.levels.take c.depth).flatMap fun level => Node.preorderAll level.right

/-- The nodes that a walk has yet to reach, the current one included. -/
def ahead (c : Cursor) : List Node := c.node.preorder ++ c.toRight

theorem ahead_of_firstChild {c d : Cursor} (h : c.firstChild? = some d) :
    c.ahead = c.node :: d.ahead := by
  unfold firstChild? at h
  split at h
  · simp at h
  · rename_i n rest hc
    obtain rfl : (⟨n, ⟨c.node, rest⟩ :: c.levels, c.depth + 1⟩ : Cursor) = d := by simpa using h
    simp [ahead, toRight, Node.preorder_eq c.node, hc, Node.preorderAll]

theorem children_of_no_firstChild {c : Cursor} (h : c.firstChild? = none) : c.node.children = [] := by
  unfold firstChild? at h
  split at h
  · assumption
  · simp at h

theorem toRight_of_nextSibling {c d : Cursor} (h : c.nextSibling? = some d) :
    c.toRight = d.ahead := by
  unfold nextSibling? at h
  split at h
  · rename_i depth parent n rest outer hd hl
    obtain rfl : (⟨n, ⟨parent, rest⟩ :: outer, depth + 1⟩ : Cursor) = d := by simpa using h
    simp [ahead, toRight, hd, hl, Node.preorderAll]
  · simp at h

/-- Climbing from the last of some siblings leaves nothing behind. -/
theorem toRight_of_parent {c d : Cursor} (last : c.nextSibling? = none) (h : c.parent? = some d) :
    c.toRight = d.toRight := by
  unfold parent? at h
  split at h
  · rename_i depth level outer hd hl
    obtain rfl : (⟨level.parent, outer, depth⟩ : Cursor) = d := by simpa using h
    obtain ⟨parent, _ | ⟨n, rest⟩⟩ := level
    · simp [toRight, hd, hl, Node.preorderAll]
    · simp [nextSibling?, hd, hl] at last
  · simp at h

theorem toRight_of_no_parent {c : Cursor} (h : c.parent? = none) : c.toRight = [] := by
  unfold parent? at h
  split at h
  · simp at h
  · rename_i none_open
    rcases hd : c.depth with _ | depth
    · simp [toRight, hd]
    · rcases hl : c.levels with _ | ⟨level, outer⟩
      · simp [toRight, hl]
      · exact absurd hl (none_open depth level outer hd)

theorem toRight_of_nextRight {c d : Cursor} (h : c.nextRight? = some d) : c.toRight = d.ahead := by
  fun_induction nextRight? c with
  | case1 c e sibling =>
    obtain rfl : e = d := by simpa using h
    exact toRight_of_nextSibling sibling
  | case2 c last e parent ih => rw [toRight_of_parent last parent, ih h]
  | case3 => simp at h

theorem toRight_of_no_nextRight {c : Cursor} (h : c.nextRight? = none) : c.toRight = [] := by
  fun_induction nextRight? c with
  | case1 => simp at h
  | case2 c last e parent ih => rw [toRight_of_parent last parent, ih h]
  | case3 c last no_parent => exact toRight_of_no_parent no_parent

/-- **A move uses up the node that it leaves** and nothing else. -/
theorem ahead_of_next {c d : Cursor} (h : c.next? = some d) : c.ahead = c.node :: d.ahead := by
  unfold next? at h
  split at h
  · rename_i e child
    obtain rfl : e = d := by simpa using h
    exact ahead_of_firstChild child
  · rename_i leaf
    rw [ahead, toRight_of_nextRight h, Node.preorder_eq, children_of_no_firstChild leaf]
    rfl

/-- A cursor that cannot move has only its own node ahead. -/
theorem ahead_of_no_next {c : Cursor} (h : c.next? = none) : c.ahead = [c.node] := by
  unfold next? at h
  split at h
  · simp at h
  · rename_i leaf
    rw [ahead, toRight_of_no_nextRight h, Node.preorder_eq, children_of_no_firstChild leaf]
    rfl

/-- The nodes that a walk reaches from the cursor on, in the order in which it reaches them. -/
def walk (c : Cursor) : List Node :=
  match _ : c.next? with
  | none => [c.node]
  | some d => c.node :: d.walk
termination_by c.ahead.length
decreasing_by rename_i h; rw [ahead_of_next h]; exact Nat.lt_succ_self _

end Cursor

/-- The nodes that a walk of the tree visits. -/
def Node.visited (n : Node) : List Node := (Cursor.start n).walk

/-! ## Calls -/

/-- The way in which a walker is told of a node. -/
inductive Call
  /-- An anonymous node. -/
  | token
  /-- A named node of a kind that the walker handles. -/
  | handler
  /-- Any other named node. -/
  | generic
deriving Repr, DecidableEq

/-- The call that a walker which handles the kinds in `handled` gets for a node. The kinds `tree` and
`token`, which no construct has, are not among those that can be handled. -/
def Node.call (handled : List String) (n : Node) : Call :=
  if !n.named then .token
  else if handled.contains n.kind then .handler
  else .generic

/-- All calls of a walk, each with the node that it is about. -/
def Node.calls (handled : List String) (n : Node) : List (Call × Node) :=
  n.visited.map fun m => (m.call handled, m)

end LuaLint
