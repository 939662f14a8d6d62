import LuaLint.Lua.Grammar

/-!
# Grouping

Reading a construct leaves the tokens where they are: some nodes that stand next to each other get a
construct in their place. `Grouped` is this relation between a row of nodes and the row that comes of it,
and says nothing about which constructs there are. One step closes some nodes to a construct, renames a
node, or splits a mark with an angle at its front.

A statement about the trees of Lua texts that does not depend on the grammar is proved by induction on
`Grouped`, without a look at any reader.
-/

namespace LuaLint.Lua

/-- The kind is of no mark that may be split. -/
def Plain (kind : String) : Prop := kind ≠ ">=" ∧ kind ≠ ">>"

instance (kind : String) : Decidable (Plain kind) := inferInstanceAs (Decidable (_ ∧ _))

/-- The first half of a mark that is split. -/
def angle (t : Node) : Node := Node.token ">" false t.start (t.start + 1) (t.text.take 1)

/-- The second half of a mark that is split. -/
def half (kind : String) (t : Node) : Node :=
  Node.token kind false (t.start + 1) t.stop (t.text.drop 1)

/-- **The second row is grouped from the first.** -/
inductive Grouped : List Node → List Node → Prop
  | refl (row : List Node) : Grouped row row
  | trans {a b c : List Node} : Grouped a b → Grouped b c → Grouped a c
  | cons (n : Node) {a b : List Node} : Grouped a b → Grouped (n :: a) (n :: b)
  /-- Nodes at the front become the children of a construct. -/
  | construct {kind : String} {children : List Node} (rest : List Node) :
      Plain kind → children ≠ [] →
      Grouped (children ++ rest) (Node.construct kind children :: rest)
  /-- A node gets another kind or role. -/
  | rename {n m : Node} (rest : List Node) : m.start = n.start → m.stop = n.stop →
      m.children = n.children → (m.kind = n.kind ∨ Plain m.kind) → Grouped (n :: rest) (m :: rest)
  /-- A mark with an angle at its front falls into two. -/
  | split {t : Node} {kind : String} (rest : List Node) : ¬ Plain t.kind → Plain kind →
      Grouped (t :: rest) (angle t :: half kind t :: rest)

namespace Grouped

variable {row children rest : List Node}

/-- Grouping what comes after some nodes. -/
theorem under (before : List Node) {a b : List Node} (h : Grouped a b) :
    Grouped (before ++ a) (before ++ b) := by
  induction before with
  | nil => exact h
  | cons n before ih => exact .cons n ih

/-- Nodes that were grouped become the children of a construct. -/
theorem close (kind : String) (children : List Node) (h : Grouped row (children ++ rest))
    (some : children ≠ [] := by simp)
    (plain : Plain kind := by simp [Plain]) : Grouped row (Node.construct kind children :: rest) :=
  h.trans (construct rest plain some)

/-- A node gets a role. -/
theorem inField (role : String) {n : Node} (h : Grouped row (n :: rest)) :
    Grouped row (n.inField role :: rest) :=
  h.trans (rename rest rfl rfl rfl (.inl rfl))

theorem asLeaf (kind : String) (t : Node) (rest : List Node) (plain : Plain kind := by simp [Plain]) :
    Grouped (t :: rest) (Lua.asLeaf kind t :: rest) :=
  rename rest rfl rfl rfl (.inr plain)

theorem asVariable (t : Node) (rest : List Node) :
    Grouped (t :: rest) (Lua.asVariable t :: rest) := by
  unfold Lua.asVariable
  split
  · exact rename rest rfl rfl rfl (.inr (by simp [Plain]))
  · exact refl _

/-- Statements become the body of a construct. -/
theorem body {statements : List Node} (h : Grouped row (statements ++ rest)) :
    Grouped row (Lua.body statements ++ rest) := by
  unfold Lua.body
  split
  · rename_i empty
    rwa [List.isEmpty_iff.mp empty] at h
  · rename_i some
    exact h.trans (construct rest (by simp [Plain]) (by simpa using some))

end Grouped

end LuaLint.Lua
