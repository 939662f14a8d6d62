import LuaLint.Proofs.Linter.Findings
import LuaLint.Proofs.Lua.FreeText
import LuaLint.Proofs.Suppression.Places
import LuaLint.Rule.ZeroDivisor

/-!
# Sources without comments

Directives are comments, but the search for them reads lines and not the tree. The two views agree as far
as the dashes of a source belong to its comments. Under a parser that makes every comment a node
(`Parser.KeepsComments`), the dashes of a source whose tree has no comment stand in the contents of strings
or in the line with a hash sign at the start. So a source without comments, in which no directive begins in
one of those two, is reported in full (`lint_uncommented`). A directive that does begin there counts as if
it were a comment (`directive_in_string_counts`).
-/

namespace LuaLint.Linter

variable {l : Linter} {parser : Parser} {source : List UInt8} {tree : Node}

/-- No directive begins in the content of a string or in a line with a hash sign. -/
def Quiet (tree : Node) (source : List UInt8) : Prop :=
  ∀ m ∈ tree.preorder, m.kind ∈ Node.literalKinds →
    ∀ offset, m.Covers offset → ¬ Directive.BeginsAt source offset

/-- Without comments, the dashes of a directive lie in a string or in a line with a hash sign. -/
theorem not_beginsAt_of_uncommented (keeps : parser.KeepsComments)
    (read : parser.read source = .ok tree) (uncommented : ∀ m ∈ tree.preorder, m.kind ≠ "comment")
    (quiet : Quiet tree source) (offset : Nat) (dashes : Source.DashesAt source offset) :
    ¬ Directive.BeginsAt source offset := by
  intro begins
  obtain ⟨m, hm, comment, -⟩ := keeps source tree read offset dashes fun m hm literal covers =>
    quiet m hm literal offset covers begins
  exact uncommented m hm comment

/-- **A source without comments is reported in full.** Let the parser make every comment a node. If no node
of the tree is a comment, and no directive begins in the content of a string or in a line with a hash sign,
then nothing is dropped: the report has all findings of the enabled rules, at the severities at which the
rules run, in the order of their starts. -/
theorem lint_uncommented (keeps : parser.KeepsComments)
    (a : l.Answers tree ⟨source, l.standardLibrary⟩) (read : parser.read source = .ok tree)
    (uncommented : ∀ m ∈ tree.preorder, m.kind ≠ "comment") (quiet : Quiet tree source) :
    ∃ report, (l.lint parser source).2 = .ok report ∧ report = inOrder a.reported ∧
      report.Perm a.reported ∧ report.Pairwise (·.start ≤ ·.start) := by
  have all := Directive.unsuppressed_of_quiet
    (not_beginsAt_of_uncommented keeps read uncommented quiet) (inOrder a.reported)
  refine ⟨inOrder a.reported, ?_, rfl, ?_, ?_⟩
  · rw [a.lint_eq read, all]
  · rw [inOrder_eq_byKey]
    exact Keyed.byKey_perm _ _
  · rw [inOrder_eq_byKey]
    exact Keyed.byKey_sorted _ _

/-- With dashes in a string, a minus before a minus and a negative exponent, but no comment, a source
that mentions the tool is still reported in full. -/
theorem lint_uncommented_dashes :
    let source := Utf8.encode "x = \"--moonlint: no\" - -1e-1"
    ∃ tree, Lua.parser.read source = .ok tree ∧ (∀ m ∈ tree.preorder, m.kind ≠ "comment") ∧
      Source.DashesAt source 5 ∧
      (tied.lint Lua.parser source).2 = .ok [findingAt "b" .warning 2, findingAt "a" .error 4,
        findingAt "c" .error 6, findingAt "b" .warning 6, findingAt "a" .warning 25] := by
  intro source
  obtain ⟨tree, read⟩ : ∃ tree, Lua.parser.read source = .ok tree :=
    Outcome.exists_of_isOk (by decide +kernel)
  have uncommented : ∀ m ∈ tree.preorder, m.kind ≠ "comment" := by
    have checked := Outcome.of_all_toOption
      (p := fun t => t.preorder.all fun m => decide (m.kind ≠ "comment")) (by decide +kernel) read
    simpa using checked
  have nowhere : ∀ offset < source.length, ∀ scope ∈ [Directive.Scope.line, .file],
      Directive.atFront? scope (Utf8.decodeLenient (Source.restOfLine source offset)) = none := by
    decide +kernel
  have quiet : Quiet tree source := by
    rintro m hm - offset ⟨-, stops⟩ ⟨scope, rules, begins⟩
    have within : m.stop ≤ source.length := by
      have checked := Outcome.of_all_toOption
        (p := fun t => t.preorder.all fun m => decide (m.stop ≤ source.length)) (by decide +kernel) read
      simpa using List.all_eq_true.mp checked m hm
    have either : scope ∈ [Directive.Scope.line, .file] := by cases scope <;> decide
    rw [nowhere offset (by omega) scope either] at begins
    cases begins
  let a := tiedAnswers tree ⟨source, tied.standardLibrary⟩
  obtain ⟨report, lint, ordered, -⟩ := lint_uncommented Lua.parser_keepsComments a read uncommented quiet
  have found : a.reported = [findingAt "a" .error 4, findingAt "c" .error 6,
      findingAt "b" .warning 2, findingAt "b" .warning 6, findingAt "a" .warning 25] := rfl
  refine ⟨tree, read, uncommented, by unfold Source.DashesAt; decide +kernel, ?_⟩
  rw [lint, ordered, found, inOrder_eq_byKey, Keyed.byKey_eq_foldr]
  exact congrArg Except.ok (by decide)

/-- **A directive in a string counts as well.** The parser makes every comment a node, the source has
none, and the division by zero is found; but a string on the same line has the text of a directive in it, and
the report is empty. -/
theorem directive_in_string_counts :
    let source := Utf8.encode "local y = x / 0 print(\"-- moonlint: noqa\")"
    let l : Linter := { rules := [ZeroDivisor.rule] }
    Lua.parser.KeepsComments ∧ ∃ tree d, Lua.parser.read source = .ok tree ∧
      (∀ m ∈ tree.preorder, m.kind ≠ "comment") ∧
      ZeroDivisor.check tree ⟨source, l.standardLibrary⟩ = .ok [d] ∧
      (l.lint Lua.parser source).2 = .ok [] := by
  intro source l
  obtain ⟨tree, read⟩ : ∃ tree, Lua.parser.read source = .ok tree :=
    Outcome.exists_of_isOk (by decide +kernel)
  let d : Diagnostic :=
    { ruleId := ZeroDivisor.id, message := ZeroDivisor.message, severity := .warning
      primary := ⟨{ start := 10, stop := 15 }, none⟩, others := [] }
  have uncommented := Outcome.of_all_toOption
    (p := fun t => t.preorder.all fun m => decide (m.kind ≠ "comment")) (by decide +kernel) read
  have finds := Outcome.of_all_toOption
    (p := fun t => decide (ZeroDivisor.check t ⟨source, l.standardLibrary⟩ = .ok [d]))
    (by decide +kernel) read
  exact ⟨Lua.parser_keepsComments, tree, d, read, by simpa using uncommented, of_decide_eq_true finds,
    by decide +kernel⟩

end LuaLint.Linter
