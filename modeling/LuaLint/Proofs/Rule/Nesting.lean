import LuaLint.Proofs.Lua.Layout
import LuaLint.Proofs.Rule.Divisions

/-!
# How the findings of `divide_by_zero` lie

On a laid out tree the findings come in the order in which a reader meets the expressions.

* **Places** (`ZeroDivisor.divisions_lead`): of two divisions, the one that comes first stands above the
  other and encloses it, or ends before the other starts.
* **Spans** (`ZeroDivisor.spans_lead`): so do the spans of the findings. Their starts rise, and putting
  the findings in the order of a report changes nothing (`ZeroDivisor.inOrder_recoloured`), although that
  order does not look at where a finding ends.
* **The report** (`ZeroDivisor.check_nested`): a linter with no other rule reports what the rule finds,
  less what the source suppresses. Of several expressions that start at one place the outer one comes
  first.
-/

namespace LuaLint

/-- The first span encloses the second, or it ends before the second starts. -/
def Span.Leads (s t : Span) : Prop :=
  s.start ≤ t.start ∧ t.stop ≤ s.stop ∨ s.stop ≤ t.start

theorem Span.Leads.start_le {s t : Span} (h : s.Leads t) : s.start ≤ t.start := by
  rcases h with ⟨starts, -⟩ | apart
  · exact starts
  · exact Nat.le_trans s.start_le_stop apart

/-- A relation between items carries over to what stands beside them. -/
theorem pairwise_of_forall₂ {α β : Type} {T : α → β → Prop} {R : α → α → Prop} {S : β → β → Prop}
    {xs : List α} {ys : List β} (beside : List.Forall₂ T xs ys)
    (carry : ∀ a b x y, T a x → T b y → R a b → S x y) (h : xs.Pairwise R) : ys.Pairwise S := by
  rw [List.pairwise_iff_get] at h ⊢
  intro i j lt
  have inside (k : Fin ys.length) : k < xs.length := by
    rw [beside.length_eq]
    exact k.isLt
  apply carry _ _ _ _ (beside.get (inside i) i.isLt) (beside.get (inside j) j.isLt)
  exact h ⟨i, inside i⟩ ⟨j, inside j⟩ lt

namespace ZeroDivisor

open Linter

variable {tree : Node} {context : Context} {found : List Diagnostic}

/-! ## Findings on a laid out tree -/

/-- The divisions of a laid out tree, in the order of a walk. -/
theorem divisions_lead (laidOut : tree.LaidOut) : (divisions tree).Pairwise Node.Leads :=
  laidOut.located_leads.sublist List.filter_sublist

/-- The places of the divisions come in lexicographic order. -/
theorem divisions_pairwise (tree : Node) : (divisions tree).Pairwise fun p q => p.1 < q.1 :=
  List.Pairwise.sublist List.filter_sublist (List.pairwise_map.mp (Node.located_pairwise tree))

/-- **The spans of the findings nest as the divisions do.** -/
theorem spans_lead (laidOut : tree.LaidOut) (checked : check tree context = .ok found) :
    found.Pairwise fun d e => d.primary.span.Leads e.primary.span := by
  refine pairwise_of_forall₂ (check_iff_divisions.mp checked) ?_ (divisions_lead laidOut)
  intro p q d e first second leads
  have first_start := first.start
  have first_stop := first.stop
  have second_start := second.start
  have second_stop := second.stop
  rcases leads with ⟨-, starts, stops⟩ | apart
  · exact .inl ⟨by omega, by omega⟩
  · exact .inr (by omega)

/-- The starts of the findings rise. -/
theorem starts_rise (laidOut : tree.LaidOut) (checked : check tree context = .ok found) :
    found.Pairwise fun d e => d.start ≤ e.start :=
  (spans_lead laidOut checked).imp Span.Leads.start_le

/-! ## The report -/

/-- The findings are in the order of a report, at whatever severity they are reported. -/
theorem inOrder_recoloured (laidOut : tree.LaidOut) (checked : check tree context = .ok found)
    (severity : Severity) :
    inOrder (found.map (·.recolour severity)) = found.map (·.recolour severity) := by
  apply List.mergeSort_of_pairwise
  rw [List.pairwise_map]
  apply (starts_rise laidOut checked).imp
  intro d e le
  exact decide_eq_true le

/-- **Without other rules a linter reports what the rule finds.** -/
theorem lintTree_only {l : Linter} (source : List UInt8) (only : l.rules = [rule])
    (enabled : l.level .warning rule ≠ .allow) (laidOut : tree.LaidOut)
    (checked : check tree context = .ok found) :
    (l.lintTree source tree).2 =
      .ok (unsuppressed source (found.map (·.recolour (l.level .warning rule)))) := by
  have all : ∀ r ∈ l.rules, r = rule := by
    intro r hr
    rw [only] at hr
    exact List.mem_singleton.mp hr
  let a : l.Answers tree ⟨source, l.standardLibrary⟩ := answers all checked
  have reported : a.reported = found.map (·.recolour (l.level .warning rule)) := by
    unfold Answers.reported
    rw [only, List.flatMap_singleton, Answers.report]
    exact if_neg enabled
  rw [a.lintTree_eq, reported, inOrder_recoloured laidOut checked]

/-- What the rule finds is a warning already. -/
theorem recolour_warning (checked : check tree context = .ok found) :
    found.map (·.recolour .warning) = found := by
  refine (List.map_congr_left ?_).trans (List.map_id found)
  intro d hd
  obtain ⟨n, -, made⟩ := Outcome.exists_of_mem_mapM checked d hd
  have warning := (finding_eq_ok_iff.mp made).severity
  rw [Diagnostic.recolour, ← warning]
  rfl

/-- **The findings lie as the expressions do.** On a laid out tree, of two divisions by zero the one that
is found first stands above the other and encloses it, or it ends before the other starts; so the starts
of the findings rise. A linter with no other rule has nothing to put in order and reports them all, but
for those that the source suppresses, at the severity that the user wants and else as the warnings they
are. The rule fails on no tree that starts at or after the first byte. -/
theorem check_nested (laidOut : tree.LaidOut) (context : Context) :
    (0 ≤ tree.start → ∃ found, check tree context = .ok found) ∧
    ∀ found, check tree context = .ok found →
      found.Pairwise (fun d e => d.start ≤ e.start) ∧
      found.Pairwise (fun d e => d.primary.span.Leads e.primary.span) ∧
      List.Forall₂ (fun place d => Reports place.2 d) (divisions tree) found ∧
      (divisions tree).Pairwise (fun p q => p.1 < q.1 ∧ Node.Leads p q) ∧
      ∀ (l : Linter) (parser : Parser) (source : List UInt8), l.rules = [rule] →
        l.level .warning rule ≠ .allow →
        let reported := found.map (·.recolour (l.level .warning rule))
        inOrder reported = reported ∧
        (l.lintTree source tree).2 = .ok (unsuppressed source reported) ∧
        (parser.read source = .ok tree →
          (l.lint parser source).2 = .ok (unsuppressed source reported)) ∧
        (unsuppressed source reported).Pairwise (fun d e => d.primary.span.Leads e.primary.span) ∧
        (l.severities = [] → reported = found) := by
  constructor
  · intro starts
    apply exists_check_eq_ok context
    intro n hn
    obtain ⟨after, le, -⟩ := laidOut.of_mem_preorder n hn
    exact ⟨Int.le_trans starts after, le⟩
  · intro found checked
    refine ⟨starts_rise laidOut checked, spans_lead laidOut checked, check_iff_divisions.mp checked,
      (divisions_pairwise tree).and (divisions_lead laidOut), ?_⟩
    intro l parser source only enabled reported
    have report := lintTree_only source only enabled laidOut checked
    refine ⟨inOrder_recoloured laidOut checked _, report, ?_, ?_, ?_⟩
    · intro read
      rw [lint, read]
      exact report
    · apply List.Pairwise.sublist List.filter_sublist
      exact List.pairwise_map.mpr (spans_lead laidOut checked)
    · intro plain
      have warning : l.level .warning rule = .warning := by
        rw [level, plain]
        rfl
      simp only [reported, warning]
      exact recolour_warning checked

/-! ### Two divisions that start together -/

/-- On the first line the chain is found before the division that it starts with, at the same byte. The
finding on the second line is suppressed. -/
theorem check_nested_chain :
    let source := Utf8.encode "x = y / 0 / 0\nz = 1 / 0 --moonlint:noqa"
    let l : Linter := { rules := [rule] }
    let chain := findingOn { start := 4, stop := 13 }
    let front := findingOn { start := 4, stop := 9 }
    ∃ tree, Lua.parser.read source = .ok tree ∧ tree.LaidOut ∧ chain.primary.span.Leads front.primary.span ∧
      (l.lint Lua.parser source).2 = .ok [chain, front] := by
  intro source l chain front
  obtain ⟨tree, read⟩ : ∃ tree, Lua.parser.read source = .ok tree :=
    Outcome.exists_of_isOk (by decide +kernel)
  have checked := of_decide_eq_true <| Outcome.of_all_toOption
    (p := fun t => decide (check t ⟨source, l.standardLibrary⟩ =
      .ok [chain, front, findingOn { start := 18, stop := 23 }])) (by decide +kernel) read
  obtain ⟨-, laidOut, -⟩ := Lua.read_laidOut read
  obtain ⟨-, lie⟩ := check_nested laidOut ⟨source, l.standardLibrary⟩
  obtain ⟨-, spans, -, -, report⟩ := lie _ checked
  obtain ⟨-, -, report, -, same⟩ := report l Lua.parser source rfl (by decide)
  have left : unsuppressed source [chain, front, findingOn { start := 18, stop := 23 }] =
      [chain, front] := by decide +kernel
  have leads := (List.pairwise_cons.mp spans).1 front (by simp)
  exact ⟨tree, read, laidOut, leads, by rw [report read, same rfl, left]⟩

end ZeroDivisor

end LuaLint
