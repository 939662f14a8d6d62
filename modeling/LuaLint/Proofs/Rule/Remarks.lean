import LuaLint.Proofs.Rule.Divisions

/-!
# Comments and `divide_by_zero`

Comments may stand anywhere in a tree, also between an operand and the sign of a division. The rule does
not see them: it looks for the first token, and a comment is none; it looks for operands by their roles,
and a comment has none.

* **Leaving out** (`Node.without`): the tree with the subtrees that a test picks removed from every row of
  children, and with everything else kept. A search in a row that picked subtrees do not pass finds what
  it found before (`Node.find?_withoutAll`).
* **Remarks** (`ZeroDivisor.Remark`): the subtrees without a role in which no operation stands.
* **They do not matter** (`ZeroDivisor.check_without`): leaving out remarks, some or all of them and
  wherever they are, changes no finding.
-/

namespace LuaLint

/-! ## Leaving out subtrees -/

namespace Node

mutual

/-- The tree without the subtrees that `drop` picks. The root stays. -/
def without (drop : Node → Bool) : Node → Node
  | ⟨kind, named, missing, damaged, start, stop, text, field, children⟩ =>
    ⟨kind, named, missing, damaged, start, stop, text, field, withoutAll drop children⟩

/-- A row without the nodes that `drop` picks, and the others without what it picks below them. -/
def withoutAll (drop : Node → Bool) : List Node → List Node
  | [] => []
  | n :: rest => if drop n then withoutAll drop rest else n.without drop :: withoutAll drop rest

end

variable {drop : Node → Bool} {n : Node} {row rest : List Node}

/-- Of the node itself all is kept. -/
theorem without_eq (drop : Node → Bool) (n : Node) :
    n.without drop = { n with children := withoutAll drop n.children } := by
  cases n
  rw [without]

theorem withoutAll_of_drop (h : drop n = true) : withoutAll drop (n :: rest) = withoutAll drop rest := by
  rw [withoutAll, if_pos h]

theorem withoutAll_of_keep (h : ¬ drop n = true) :
    withoutAll drop (n :: rest) = n.without drop :: withoutAll drop rest := by
  rw [withoutAll, if_neg h]

/-- **A search finds what it found before**, if it passes over the nodes that are left out and does not
look below the others. -/
theorem find?_withoutAll {test : Node → Bool} (same : ∀ n : Node, test (n.without drop) = test n)
    (fails : ∀ n ∈ row, drop n = true → test n = false) :
    (withoutAll drop row).find? test = (row.find? test).map (·.without drop) := by
  induction row with
  | nil => rw [withoutAll, List.find?_nil, Option.map_none]
  | cons n rest ih =>
    have later := ih fun m hm => fails m (List.mem_cons_of_mem n hm)
    by_cases dropped : drop n = true
    · have failed : ¬ test n = true := by
        rw [Bool.not_eq_true]
        exact fails n List.mem_cons_self dropped
      rw [withoutAll_of_drop dropped, List.find?_cons_of_neg failed, later]
    · rw [withoutAll_of_keep dropped]
      by_cases passes : test n = true
      · rw [List.find?_cons_of_pos passes, List.find?_cons_of_pos ((same n).trans passes),
          Option.map_some]
      · rw [List.find?_cons_of_neg passes, List.find?_cons_of_neg (same n ▸ passes), later]

end Node

namespace ZeroDivisor

open Node

/-! ## Remarks -/

/-- **A remark**: a construct that has no role where it stands and neither is nor holds an operation.
Comments are such. -/
structure Remark (n : Node) : Prop where
  named : n.named = true
  roleless : n.field = none
  plain : ∀ m ∈ n.preorder, ¬ (m.named = true ∧ m.kind = "binary_expression")

instance : DecidablePred Remark := fun n =>
  decidable_of_iff
    (n.named = true ∧ n.field = none ∧
      ∀ m ∈ n.preorder, ¬ (m.named = true ∧ m.kind = "binary_expression"))
    ⟨fun ⟨named, roleless, plain⟩ => ⟨named, roleless, plain⟩,
      fun ⟨named, roleless, plain⟩ => ⟨named, roleless, plain⟩⟩

variable {drop : Node → Bool} {n tree : Node} {row : List Node}

/-- In a remark nothing is flagged. -/
theorem Remark.filter_flags (remark : Remark n) : n.preorder.filter flags = [] := by
  rw [List.filter_eq_nil_iff]
  intro m hm flagged
  have divides := flags_iff.mp flagged
  exact remark.plain m hm ⟨divides.named, divides.kind⟩

section row

variable (remarks : ∀ c ∈ n.children, drop c = true → Remark c)
include remarks

/-- A node keeps its operator. -/
theorem operator?_without : operator? (n.without drop) = operator? n := by
  have found : (withoutAll drop n.children).find? (!·.named) =
      (n.children.find? (!·.named)).map (·.without drop) := by
    apply find?_withoutAll
    · intro c
      rw [without_eq]
    · intro c hc dropped
      rw [(remarks c hc dropped).named]
      rfl
  rw [operator?, without_eq, found, Option.map_map, operator?]
  congr 1
  funext c
  rw [Function.comp_apply, without_eq]

/-- A node keeps its operands, which may lose something below them. -/
theorem child?_without (role : String) :
    (n.without drop).child? role = (n.child? role).map (·.without drop) := by
  rw [child?, without_eq, child?]
  apply find?_withoutAll
  · intro c
    rw [without_eq]
  · intro c hc dropped
    rw [(remarks c hc dropped).roleless]
    rfl

/-- **Remarks beside the operands do not matter.** -/
theorem flags_without : flags (n.without drop) = flags n := by
  have literal (c : Node) : isLiteralZero (c.without drop) = isLiteralZero c := by
    rw [isLiteralZero, isLiteralZero, without_eq]
  rw [flags, flags, operator?_without remarks, child?_without remarks, child?_without remarks,
    without_eq]
  rcases n.child? "left" with _ | left
  · rfl
  · rcases n.child? "right" with _ | right
    · rfl
    · simp only [Option.map_some, literal]

end row

mutual

/-- What is flagged stays so, in its order. -/
theorem filter_flags_without : ∀ n : Node, (∀ m ∈ n.preorder, drop m = true → Remark m) →
    (n.without drop).preorder.filter flags = (n.preorder.filter flags).map (·.without drop)
  | ⟨kind, named, missing, damaged, start, stop, text, field, children⟩, remarks => by
    have below : ∀ m ∈ preorderAll children, drop m = true → Remark m := by
      intro m hm
      apply remarks m
      rw [preorder_eq]
      exact List.mem_cons_of_mem _ hm
    have beside : ∀ c ∈ children, drop c = true → Remark c :=
      fun c hc => below c (mem_preorderAll_of_mem hc)
    have inner := filter_flags_withoutAll children below
    have same := flags_without (n := ⟨kind, named, missing, damaged, start, stop, text, field,
      children⟩) beside
    rw [without] at same ⊢
    rw [preorder_eq, preorder_eq, List.filter_cons, List.filter_cons, same, inner]
    split
    · rw [List.map_cons, without]
    · rfl

/-- What is flagged in a row stays so, in its order. -/
theorem filter_flags_withoutAll :
    ∀ row : List Node, (∀ m ∈ preorderAll row, drop m = true → Remark m) →
    (preorderAll (withoutAll drop row)).filter flags =
      ((preorderAll row).filter flags).map (·.without drop)
  | [], _ => by
    rw [withoutAll, preorderAll]
    rfl
  | n :: rest, remarks => by
    rw [preorderAll] at remarks
    have first : ∀ m ∈ n.preorder, drop m = true → Remark m :=
      fun m hm => remarks m (List.mem_append_left _ hm)
    have later := filter_flags_withoutAll rest fun m hm => remarks m (List.mem_append_right _ hm)
    by_cases dropped : drop n = true
    · have remark : Remark n := first n (mem_preorder_self n) dropped
      rw [withoutAll_of_drop dropped, later, preorderAll, List.filter_append, remark.filter_flags,
        List.nil_append]
    · rw [withoutAll_of_keep dropped, preorderAll, preorderAll, List.filter_append, List.filter_append,
        List.map_append, filter_flags_without n first, later]

end

/-! ## The findings -/

/-- A finding speaks of the range of its node alone. -/
theorem finding_without (drop : Node → Bool) (n : Node) : finding (n.without drop) = finding n := by
  rw [finding, finding, without_eq]

/-- **Remarks do not matter.** A tree has the same findings without its remarks, whichever of them are
left out: all, those of one kind, or any others, between operands or elsewhere. If the nodes of the tree
have proper ranges, there are findings in the first place. -/
theorem check_without (tree : Node) (context : Context) (drop : Node → Bool)
    (remarks : ∀ n ∈ tree.preorder, drop n = true → Remark n) :
    check (tree.without drop) context = check tree context ∧
      ((∀ n ∈ tree.preorder, 0 ≤ n.start ∧ n.start ≤ n.stop) →
        ∃ found, check (tree.without drop) context = .ok found) := by
  have same : check (tree.without drop) context = check tree context := by
    unfold check
    rw [visited_eq_preorder, visited_eq_preorder, filter_flags_without tree remarks, List.mapM_map]
    congr 1
    funext n
    exact finding_without drop n
  refine ⟨same, fun proper => ?_⟩
  rw [same]
  exact exists_check_eq_ok context proper

/-! ### A division with comments in it -/

/-- A comment at an offset. -/
def commentAt (start : Int) : Node :=
  .construct "comment" [.token "--" false start (start + 2) [0x2D, 0x2D]]

/-- Of `x --` and `/ --` and `0 --` on three lines nothing but the operands and the sign is left without
the remarks, and the finding is the same. -/
theorem check_without_comments :
    let division := Node.construct "binary_expression"
      [(Node.token "identifier" true 0 1 [0x78]).inField "left", commentAt 2,
        .token "/" false 5 6 [0x2F], commentAt 7, (zeroAt 10).inField "right"]
    let tree := Node.construct "chunk" [division, commentAt 12]
    let drop : Node → Bool := fun n => decide (Remark n)
    let context : Context := ⟨[], "lua51"⟩
    (∀ n ∈ tree.preorder, drop n = true → Remark n) ∧
      (tree.without drop).preorder.map (·.kind) =
        ["chunk", "binary_expression", "identifier", "/", "number"] ∧
      check tree context = .ok [findingOn { start := 0, stop := 11 }] ∧
      check (tree.without drop) context = .ok [findingOn { start := 0, stop := 11 }] := by
  intro division tree drop context
  have remarks : ∀ n ∈ tree.preorder, drop n = true → Remark n :=
    fun n _ dropped => of_decide_eq_true dropped
  obtain ⟨same, -⟩ := check_without tree context drop remarks
  have found : check tree context = .ok [findingOn { start := 0, stop := 11 }] := by
    rw [check_eq_ok_iff]
    have only : tree.preorder.filter flags = [division] := rfl
    rw [only]
    exact .cons ⟨rfl, rfl, rfl, rfl, rfl, rfl, rfl⟩ .nil
  exact ⟨remarks, by decide, found, same.trans found⟩

end ZeroDivisor

end LuaLint
