import LuaLint.Proofs.Rule.ZeroDivisor

/-!
# What `divide_by_zero` finds

The rule is exact: it reports the divisions by the literal `0` and nothing else.

* **A division by zero** (`ZeroDivisor.Divides`) is said without the test that the rule makes: a construct
  `binary_expression` whose first token is `/` and whose operands are there, the right one spelled `0` and
  the left one not. The test decides it (`flags_iff`), whatever else the children are.
* **A finding** (`ZeroDivisor.Reports`) covers the node that it is about, under the rule's id, with the
  rule's message and as a warning. It is the only one that fits the node (`finding_eq_ok_iff`).
* **All findings** (`check_divisions`): one for each place of a division by zero, in the order of a walk.
  A division inside a division has a place of its own, so a chain is reported link by link.
-/

namespace LuaLint.ZeroDivisor

/-! ## Divisions by zero -/

/-- The node is the first of several that has the property. -/
def IsFirst (p : Node → Prop) (nodes : List Node) (n : Node) : Prop :=
  p n ∧ ∃ before after, nodes = before ++ n :: after ∧ ∀ m ∈ before, ¬ p m

/-- The node is a numeral that is spelled `0`. -/
def SpellsZero (n : Node) : Prop := n.kind = "number" ∧ n.text = [0x30]

/-- **A division by the literal `0`.** A token is none, however it is spelled. -/
structure Divides (n : Node) : Prop where
  named : n.named = true
  kind : n.kind = "binary_expression"
  /-- The first token among the children is `/`. -/
  operator : ∃ sign, IsFirst (·.named = false) n.children sign ∧ sign.kind = "/"
  /-- The child in the role `right` is the numeral `0`. -/
  divisor : ∃ right, IsFirst (·.field = some "right") n.children right ∧ SpellsZero right
  /-- There is a child in the role `left`, and it is not the numeral `0`. -/
  dividend : ∃ left, IsFirst (·.field = some "left") n.children left ∧ ¬ SpellsZero left

/-- A search finds the first node that passes it. -/
theorem find?_eq_some_iff_isFirst {test : Node → Bool} {p : Node → Prop}
    (decides : ∀ n, test n = true ↔ p n) {nodes : List Node} {n : Node} :
    nodes.find? test = some n ↔ IsFirst p nodes n := by
  rw [List.find?_eq_some_iff_append, IsFirst, decides]
  simp only [Bool.not_eq_true', ← Bool.not_eq_true, decides]

/-- The child in a role is the first one that has it. -/
theorem child?_eq_some_iff {n child : Node} {role : String} :
    n.child? role = some child ↔ IsFirst (·.field = some role) n.children child := by
  unfold Node.child?
  apply find?_eq_some_iff_isFirst
  intro m
  exact beq_iff_eq

/-- The operator is spelled as the first token among the children. -/
theorem operator?_eq_some_iff {n : Node} {spelling : String} : operator? n = some spelling ↔
    ∃ sign, IsFirst (·.named = false) n.children sign ∧ sign.kind = spelling := by
  have decides (m : Node) : (!m.named) = true ↔ m.named = false := by rw [Bool.not_eq_true']
  rw [operator?, Option.map_eq_some_iff]
  simp only [find?_eq_some_iff_isFirst decides]

theorem isLiteralZero_iff {n : Node} : isLiteralZero n = true ↔ SpellsZero n := by
  rw [isLiteralZero, Bool.and_eq_true, beq_iff_eq, beq_iff_eq, SpellsZero]

/-- The test of the operands is passed exactly if both are there and fit. -/
theorem operands_iff (left? right? : Option Node) :
    (match left?, right? with
      | some left, some right => isLiteralZero right && !isLiteralZero left
      | _, _ => false) = true ↔
    (∃ right, right? = some right ∧ SpellsZero right) ∧
      ∃ left, left? = some left ∧ ¬ SpellsZero left := by
  simp only [← isLiteralZero_iff]
  cases left? with
  | none => simp
  | some left =>
    cases right? with
    | none => simp
    | some right => simp

/-- **The test of the rule decides what a division by zero is.** -/
theorem flags_iff {n : Node} : flags n = true ↔ Divides n := by
  have operands := operands_iff (n.child? "left") (n.child? "right")
  simp only [child?_eq_some_iff] at operands
  rw [flags, Bool.and_eq_true, Bool.and_eq_true, Bool.and_eq_true, beq_iff_eq, beq_iff_eq,
    operator?_eq_some_iff]
  refine (and_congr_right' operands).trans ?_
  constructor
  · rintro ⟨⟨⟨named, kind⟩, operator⟩, divisor, dividend⟩
    exact ⟨named, kind, operator, divisor, dividend⟩
  · rintro ⟨named, kind, operator, divisor, dividend⟩
    exact ⟨⟨⟨named, kind⟩, operator⟩, divisor, dividend⟩

instance : DecidablePred Divides := fun n => decidable_of_iff (flags n = true) flags_iff

/-! ## Findings -/

/-- The diagnostic is the finding for the node. -/
structure Reports (n : Node) (d : Diagnostic) : Prop where
  ruleId : d.ruleId = id
  message : d.message = message
  severity : d.severity = .warning
  /-- The label covers the whole node. -/
  start : (d.primary.span.start : Int) = n.start
  stop : (d.primary.span.stop : Int) = n.stop
  /-- The label says nothing, and there is no other. -/
  unannotated : d.primary.message = none
  single : d.others = []

/-- The finding for a node that covers a span. -/
def findingOn (span : Span) : Diagnostic :=
  { ruleId := id, message, severity := .warning, primary := ⟨span, none⟩, others := [] }

/-- **A node has one finding**, and none if its range is no span. -/
theorem finding_eq_ok_iff {n : Node} {d : Diagnostic} : finding n = .ok d ↔ Reports n d := by
  unfold finding Span.ofOffsets
  constructor
  · intro h
    obtain ⟨span, covers, h⟩ := Outcome.bind_eq_ok.mp h
    split at covers
    · rename_i proper
      cases covers
      cases h
      exact ⟨rfl, rfl, rfl, Int.toNat_of_nonneg proper.1,
        Int.toNat_of_nonneg (Int.le_trans proper.1 proper.2), rfl, rfl⟩
    · cases covers
  · intro h
    obtain ⟨ruleId, message, severity, ⟨⟨start, stop, le⟩, remark⟩, others⟩ := d
    obtain ⟨rfl, rfl, rfl, starts, stops, rfl, rfl⟩ := h
    have proper : 0 ≤ n.start ∧ n.start ≤ n.stop := by
      rw [← starts, ← stops]
      exact ⟨Int.natCast_nonneg start, Int.ofNat_le.mpr le⟩
    rw [dif_pos proper]
    simp only [← starts, ← stops, Int.toNat_natCast]
    rfl

/-- **The rule gives the findings of the divisions by zero**, in the order of a walk. -/
theorem check_eq_ok_iff {tree : Node} {context : Context} {found : List Diagnostic} :
    check tree context = .ok found ↔ List.Forall₂ Reports (tree.preorder.filter flags) found := by
  unfold check
  rw [Node.visited_eq_preorder, Outcome.mapM_eq_ok_iff]
  simp only [finding_eq_ok_iff]

/-! ## Places -/

/-- The places of the divisions by zero in a tree, in the order of a walk. -/
def divisions (tree : Node) : List (List Nat × Node) :=
  tree.located.filter fun place => flags place.2

theorem map_divisions (tree : Node) :
    (divisions tree).map Prod.snd = tree.preorder.filter flags := by
  rw [← Node.map_located, List.filter_map]
  rfl

theorem mem_divisions {tree n : Node} {path : List Nat} :
    (path, n) ∈ divisions tree ↔ tree.descend? path = some n ∧ Divides n := by
  rw [divisions, List.mem_filter, Node.mem_located, flags_iff]

/-- The findings stand beside the places that they are about. -/
theorem check_iff_divisions {tree : Node} {context : Context} {found : List Diagnostic} :
    check tree context = .ok found ↔
      List.Forall₂ (fun place d => Reports place.2 d) (divisions tree) found := by
  rw [check_eq_ok_iff, ← map_divisions, List.forall₂_map_left_iff]

/-- **The rule is exact.** On a tree whose nodes have proper ranges it does not fail. It gives one
finding for each place at which a division by zero stands, as they come in a walk: a place comes before
those below it, and these before the ones to its right. -/
theorem check_divisions {tree : Node} (context : Context)
    (proper : ∀ n ∈ tree.preorder, 0 ≤ n.start ∧ n.start ≤ n.stop) :
    ∃ (places : List (List Nat × Node)) (found : List Diagnostic),
      check tree context = .ok found ∧
      List.Forall₂ (fun place d => Reports place.2 d) places found ∧
      (∀ path n, (path, n) ∈ places ↔ tree.descend? path = some n ∧ Divides n) ∧
      (places.map Prod.fst).Pairwise (· < ·) ∧
      places.map Prod.snd = tree.preorder.filter (Divides ·) := by
  obtain ⟨found, checked⟩ := exists_check_eq_ok context proper
  refine ⟨divisions tree, found, checked, check_iff_divisions.mp checked, fun path n => mem_divisions,
    ?_, ?_⟩
  · exact (Node.located_pairwise tree).sublist (List.filter_sublist.map Prod.fst)
  · rw [map_divisions]
    apply List.filter_congr
    intro n _
    rw [Bool.eq_iff_iff, flags_iff, decide_eq_true_eq]

/-! ### A chain of divisions -/

/-- The numeral `0` at an offset. -/
def zeroAt (start : Int) : Node := .token "number" true start (start + 1) [0x30]

/-- A dividend over a divisor, with a space on each side of the sign. -/
def quotient (left right : Node) : Node :=
  .construct "binary_expression" [left.inField "left",
    .token "/" false (left.stop + 1) (left.stop + 2) [0x2F], right.inField "right"]

/-- Of `0 / 0 / 0` the whole is reported. The chain in front, which starts at the same byte, is left
alone, as are an operation without operands and a token that has the name of a construct. -/
theorem check_divisions_chain :
    let inner := quotient (zeroAt 0) (zeroAt 4)
    let outer := quotient inner (zeroAt 8)
    let tree := Node.construct "chunk" [outer, .token "binary_expression" true 10 10 [],
      { outer with named := false }]
    (∀ n ∈ tree.preorder, 0 ≤ n.start ∧ n.start ≤ n.stop) ∧
      ∃ d, check tree ⟨[], "lua51"⟩ = .ok [d] ∧ Reports outer d := by
  intro inner outer tree
  have proper : ∀ n ∈ tree.preorder, 0 ≤ n.start ∧ n.start ≤ n.stop := by decide
  obtain ⟨places, found, checked, beside, -, -, walk⟩ := check_divisions ⟨[], "lua51"⟩ proper
  have only : tree.preorder.filter (Divides ·) = [outer] := rfl
  obtain ⟨⟨path, n⟩, rest, rfl, at_outer, others⟩ := List.map_eq_cons_iff.mp (walk.trans only)
  obtain rfl : n = outer := at_outer
  obtain rfl := List.map_eq_nil_iff.mp others
  obtain ⟨d, rest, reports, none, rfl⟩ := List.forall₂_cons_left_iff.mp beside
  obtain rfl := List.forall₂_nil_left_iff.mp none
  exact ⟨proper, d, checked, reports⟩

end LuaLint.ZeroDivisor
