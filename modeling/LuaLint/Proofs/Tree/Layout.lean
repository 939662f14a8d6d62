import LuaLint.Proofs.Tree.Traversal

/-!
# Laid out trees

A tree is **laid out** if the range of each child lies inside its parent's, and siblings stand one after
the other and do not overlap. Trees that come from a text are; a tree that is given as data need not be.

A row of siblings is laid out between two offsets (`LaidOutAll`). Rows are put together and taken apart
at any place (`laidOutAll_append`), nodes may be left out (`LaidOutAll.sublist`), and what stands at the
front may be put under one node (`LaidOutAll.construct`). Every node of a laid out row has a range that
does not end before it starts and stays between the two offsets (`LaidOutAll.of_mem`).

So the order of a walk is an order of ranges (`LaidOut.located_leads`): of two places, the one that comes
first encloses the other and stands above it, or ends before the other starts.
-/

namespace LuaLint.Node

mutual

/-- The children of the node stand one after the other inside its range, and so on below them. -/
def LaidOut : Node → Prop
  | ⟨_, _, _, _, start, stop, _, _, children⟩ => start ≤ stop ∧ LaidOutAll start stop children

/-- The nodes are laid out and stand one after the other, between the offsets `low` and `high`. -/
def LaidOutAll : Int → Int → List Node → Prop
  | low, high, [] => low ≤ high
  | low, high, n :: rest => low ≤ n.start ∧ n.LaidOut ∧ LaidOutAll n.stop high rest

end

variable {low high : Int} {n : Node} {children rest row : List Node}

theorem laidOut_iff : n.LaidOut ↔ n.start ≤ n.stop ∧ LaidOutAll n.start n.stop n.children := by
  cases n
  simp only [LaidOut]

@[simp] theorem laidOutAll_nil : LaidOutAll low high [] ↔ low ≤ high := by simp only [LaidOutAll]

@[simp] theorem laidOutAll_cons :
    LaidOutAll low high (n :: rest) ↔ low ≤ n.start ∧ n.LaidOut ∧ LaidOutAll n.stop high rest := by
  simp only [LaidOutAll]

section tokens

variable {kind : String} {named : Bool} {start stop : Int} {text : List UInt8}

@[simp] theorem token_start : (token kind named start stop text).start = start := rfl

@[simp] theorem token_stop : (token kind named start stop text).stop = stop := rfl

@[simp] theorem laidOut_token : (token kind named start stop text).LaidOut ↔ start ≤ stop := by
  simp [token, laidOut_iff]

end tokens

theorem LaidOut.start_le_stop (h : n.LaidOut) : n.start ≤ n.stop := (laidOut_iff.mp h).1

namespace LaidOutAll

theorem low_le_high (h : LaidOutAll low high row) : low ≤ high := by
  induction row generalizing low with
  | nil => simpa using h
  | cons n rest ih =>
    obtain ⟨after, node, later⟩ := laidOutAll_cons.mp h
    have := ih later
    have := node.start_le_stop
    omega

/-- A row may start earlier. -/
theorem of_le {lower : Int} (h : LaidOutAll low high row) (le : lower ≤ low) :
    LaidOutAll lower high row := by
  cases row with
  | nil => simp only [laidOutAll_nil] at *; omega
  | cons n rest => simp only [laidOutAll_cons] at *; exact ⟨by omega, h.2⟩

/-- What stands at the front of a row is laid out as the children of one node. -/
theorem of_append (h : LaidOutAll low high (children ++ rest)) (some : children ≠ []) :
    low ≤ (children.head some).start ∧
      LaidOutAll (children.head some).start (children.getLast some).stop children ∧
      LaidOutAll (children.getLast some).stop high rest := by
  induction children generalizing low with
  | nil => exact absurd rfl some
  | cons n others ih =>
    obtain ⟨after, node, later⟩ := laidOutAll_cons.mp h
    rcases others with _ | ⟨m, others⟩
    · exact ⟨after, by simp [node], later⟩
    · obtain ⟨next, inner, outer⟩ := ih later (List.cons_ne_nil m others)
      refine ⟨after, laidOutAll_cons.mpr ⟨Int.le_refl _, node, ?_⟩, outer⟩
      exact inner.of_le next

/-- **What stands at the front of a row may be put under one node.** -/
theorem construct (kind : String) (h : LaidOutAll low high (children ++ rest))
    (some : children ≠ []) : LaidOutAll low high (Node.construct kind children :: rest) := by
  obtain ⟨after, inner, outer⟩ := h.of_append some
  rw [laidOutAll_cons, laidOut_iff]
  simp only [Node.construct, List.head?_eq_some_head some, List.getLast?_eq_some_getLast some,
    Option.map_some, Option.getD_some]
  exact ⟨after, ⟨inner.low_le_high, inner⟩, outer⟩

/-- **Nodes may be left out of a row.** -/
theorem sublist {shorter : List Node} (part : shorter.Sublist row) (h : LaidOutAll low high row) :
    LaidOutAll low high shorter := by
  induction part generalizing low with
  | slnil => exact h
  | cons n part ih =>
    obtain ⟨after, node, later⟩ := laidOutAll_cons.mp h
    exact (ih later).of_le (by have := node.start_le_stop; omega)
  | cons_cons n part ih =>
    obtain ⟨after, node, later⟩ := laidOutAll_cons.mp h
    exact laidOutAll_cons.mpr ⟨after, node, ih later⟩

theorem bounds (h : LaidOutAll low high row) (hn : n ∈ row) :
    low ≤ n.start ∧ n.LaidOut ∧ n.stop ≤ high := by
  induction row generalizing low with
  | nil => cases hn
  | cons m rest ih =>
    obtain ⟨after, node, later⟩ := laidOutAll_cons.mp h
    rcases List.mem_cons.mp hn with rfl | hn
    · exact ⟨after, node, later.low_le_high⟩
    · obtain ⟨start, rest⟩ := ih later hn
      have := node.start_le_stop
      exact ⟨by omega, rest⟩

/-- Of two nodes of a row, the one that comes first ends before the other starts. -/
theorem pairwise (h : LaidOutAll low high row) : row.Pairwise (·.stop ≤ ·.start) := by
  induction row generalizing low with
  | nil => exact .nil
  | cons n rest ih =>
    obtain ⟨after, node, later⟩ := laidOutAll_cons.mp h
    exact .cons (fun m hm => (later.bounds hm).1) (ih later)

end LaidOutAll

/-- A row may be taken apart at any place, and two rows put together if one ends before the other
starts. -/
theorem laidOutAll_append : LaidOutAll low high (children ++ rest) ↔
    ∃ middle, LaidOutAll low middle children ∧ LaidOutAll middle high rest := by
  induction children generalizing low with
  | nil =>
    constructor
    · intro h
      exact ⟨low, laidOutAll_nil.mpr (Int.le_refl _), h⟩
    · rintro ⟨middle, le, h⟩
      exact h.of_le (laidOutAll_nil.mp le)
  | cons n others ih =>
    rw [List.cons_append, laidOutAll_cons, ih]
    constructor
    · rintro ⟨after, node, middle, before, later⟩
      exact ⟨middle, laidOutAll_cons.mpr ⟨after, node, before⟩, later⟩
    · rintro ⟨middle, before, later⟩
      obtain ⟨after, node, before⟩ := laidOutAll_cons.mp before
      exact ⟨after, node, middle, before, later⟩

mutual

theorem LaidOut.of_mem_preorder : ∀ {n : Node}, n.LaidOut → ∀ m ∈ n.preorder,
    n.start ≤ m.start ∧ m.start ≤ m.stop ∧ m.stop ≤ n.stop
  | ⟨kind, named, missing, damaged, start, stop, text, field, children⟩, h, m, hm => by
    obtain ⟨le, inner⟩ := laidOut_iff.mp h
    rw [preorder_eq] at hm
    rcases List.mem_cons.mp hm with rfl | hm
    · exact ⟨Int.le_refl _, le, Int.le_refl _⟩
    · exact inner.of_mem m hm

/-- **Every node of a laid out row has a proper range between the two offsets.** -/
theorem LaidOutAll.of_mem : ∀ {low high : Int} {row : List Node}, LaidOutAll low high row →
    ∀ m ∈ preorderAll row, low ≤ m.start ∧ m.start ≤ m.stop ∧ m.stop ≤ high
  | _, _, [], _, m, hm => by simp [preorderAll] at hm
  | low, high, n :: rest, h, m, hm => by
    obtain ⟨after, node, later⟩ := laidOutAll_cons.mp h
    have := later.low_le_high
    have := node.start_le_stop
    rw [preorderAll, List.mem_append] at hm
    rcases hm with hm | hm
    · have := node.of_mem_preorder m hm
      omega
    · have := later.of_mem m hm
      omega

end

/-! ## The order of a walk -/

/-- Of two places, the first stands above the second and encloses it, or it ends before the second
starts. -/
def Leads (first second : List Nat × Node) : Prop :=
  first.1 <+: second.1 ∧ first.2.start ≤ second.2.start ∧ second.2.stop ≤ first.2.stop ∨
    first.2.stop ≤ second.2.start

mutual

/-- **In a laid out tree the order of a walk is an order of ranges.** -/
theorem LaidOut.located_leads : ∀ {n : Node}, n.LaidOut → n.located.Pairwise Leads
  | ⟨kind, named, missing, damaged, start, stop, text, field, children⟩, h => by
    obtain ⟨le, inner⟩ := laidOut_iff.mp h
    rw [located, List.pairwise_cons]
    refine ⟨?_, inner.locatedAll_leads 0⟩
    rintro ⟨path, m⟩ below
    have hm : m ∈ preorderAll children := map_locatedAll 0 children ▸ List.mem_map_of_mem below
    obtain ⟨starts, -, stops⟩ := inner.of_mem m hm
    exact .inl ⟨List.nil_prefix, starts, stops⟩

/-- The same for the places in a laid out row. -/
theorem LaidOutAll.locatedAll_leads : ∀ {low high : Int} {row : List Node}, LaidOutAll low high row →
    ∀ i, (locatedAll i row).Pairwise Leads
  | _, _, [], _, _ => .nil
  | low, high, n :: rest, h, i => by
    obtain ⟨after, node, later⟩ := laidOutAll_cons.mp h
    rw [locatedAll, List.pairwise_append]
    refine ⟨?_, later.locatedAll_leads (i + 1), ?_⟩
    · rw [List.pairwise_map]
      apply node.located_leads.imp
      rintro ⟨path, m⟩ ⟨below, k⟩ (⟨above, encloses⟩ | apart)
      · exact .inl ⟨List.cons_prefix_cons.mpr ⟨rfl, above⟩, encloses⟩
      · exact .inr apart
    · -- all of the first sibling ends before the others start
      intro p hp q hq
      obtain ⟨⟨path, m⟩, below, rfl⟩ := List.mem_map.mp hp
      have hm : m ∈ n.preorder := map_located n ▸ List.mem_map_of_mem below
      have hq : q.2 ∈ preorderAll rest := map_locatedAll (i + 1) rest ▸ List.mem_map_of_mem hq
      obtain ⟨-, -, stops⟩ := node.of_mem_preorder m hm
      obtain ⟨starts, -, -⟩ := later.of_mem q.2 hq
      exact .inr (Int.le_trans stops starts)

end

end LuaLint.Node
