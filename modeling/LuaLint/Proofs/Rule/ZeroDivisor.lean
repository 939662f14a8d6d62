import LuaLint.Proofs.Linter.Findings
import LuaLint.Proofs.Outcome
import LuaLint.Proofs.Tree.Parser
import LuaLint.Proofs.Tree.Traversal
import LuaLint.Rule.ZeroDivisor

/-!
# The rule `divide_by_zero` does not fail

A finding covers the whole node that it is about, so the rule can only fail on a tree with a node whose
range is none (`ZeroDivisor.exists_check_eq_ok`). A parser whose ranges are proper gives no such nodes to a text
that it accepts (`ZeroDivisor.exists_check_read`). What the rule finds is then what a linter with no other rule answers
(`ZeroDivisor.answers`).
-/

namespace LuaLint.ZeroDivisor

variable {tree : Node}

/-- A node with a proper range gives a finding. -/
theorem exists_finding_eq_ok {n : Node} (starts : 0 ≤ n.start) (le : n.start ≤ n.stop) :
    ∃ d, finding n = .ok d := by
  have span : Span.ofOffsets n.start n.stop =
      .ok { start := n.start.toNat, stop := n.stop.toNat, start_le_stop := by omega } := by
    rw [Span.ofOffsets, dif_pos ⟨starts, le⟩]
  unfold finding
  rw [span]
  exact ⟨_, rfl⟩

/-- **On a tree whose nodes have proper ranges the rule does not fail.** -/
theorem exists_check_eq_ok (context : Context)
    (proper : ∀ n ∈ tree.preorder, 0 ≤ n.start ∧ n.start ≤ n.stop) :
    ∃ found, check tree context = .ok found := by
  unfold check
  rw [Node.visited_eq_preorder]
  apply Outcome.exists_mapM_eq_ok
  intro n hn
  obtain ⟨starts, le⟩ := proper n (List.mem_filter.mp hn).1
  exact exists_finding_eq_ok starts le

/-- **On a text that is accepted the rule does not fail**, if the ranges of the parser are proper. -/
theorem exists_check_read (context : Context) {parser : Parser} (proper : parser.Proper)
    {source : List UInt8} (read : parser.read source = .ok tree) :
    ∃ found, check tree context = .ok found :=
  exists_check_eq_ok context (proper source tree read)

/-- What a linter answers about a tree that has no rule but this one. -/
def answers {l : Linter} {context : Context} {found : List Diagnostic}
    (only : ∀ r ∈ l.rules, r = rule) (checked : check tree context = .ok found) :
    l.Answers tree context where
  own _ := .warning
  found _ := found
  severity_eq r hr := by
    rw [only r hr]
    rfl
  check_eq r hr _ := by
    rw [only r hr]
    exact checked

end LuaLint.ZeroDivisor
