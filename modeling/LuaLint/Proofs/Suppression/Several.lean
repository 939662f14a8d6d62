import LuaLint.Proofs.Source.Insertion
import LuaLint.Proofs.Suppression.Verdict
import Mathlib.Data.List.Basic

/-!
# Several directives about one file

Of several directives about the file the last one decides, and those above it are forgotten. So a
directive that means a rule counts as long as every one below it means the rule too
(`droppedForFile_of_lines`), and a line with one more directive can do either of two things.

* **Below it stands another one** (`dropped_withLine_of_directedFrom`): every verdict stays.
* **It is the last one** (`dropped_withLine_of_last`): it alone decides for the file, so what only the
  directives above it dropped is left.

The directives about single lines move with their lines (`onLine_withLine`). Together this says which
diagnostics a further directive brings back (`directives_count_until_overruled`).
-/

namespace LuaLint

/-- A directive about the file stands on the line `k`, counted from zero, or below it. -/
def DirectedFrom (source : List UInt8) (k : Nat) : Prop :=
  ∃ line ∈ (Source.lines source).drop k, Directive.inLine? .file line ≠ none

/-! ## What holds for the file -/

/-- Above a line with a directive about the file, no line has a say. -/
theorem ofSource_file_of_lines {source line : List UInt8} {above below : List (List UInt8)}
    {rules : RuleSet} (cut : Source.lines source = above ++ line :: below)
    (here : Directive.inLine? .file line = some rules) :
    (Suppressions.ofSource source).file =
      (rules :: below.filterMap (Directive.inLine? .file)).getLast? := by
  simp only [Suppressions.ofSource, cut, List.filterMap_append, List.filterMap_cons_some here]
  exact List.getLast?_append_of_ne_nil _ (List.cons_ne_nil _ _)

/-- **A directive counts if all the later ones mean the rule as well.** -/
theorem droppedForFile_of_lines {source line : List UInt8} {above below : List (List UInt8)}
    {rules : RuleSet} {ruleId : String} (cut : Source.lines source = above ++ line :: below)
    (here : Directive.inLine? .file line = some rules) (means : rules.Means ruleId)
    (later : ∀ other ∈ below, ∀ more, Directive.inLine? .file other = some more →
      more.Means ruleId) : DroppedForFile source ruleId := by
  rw [← any_file_covers_iff, ofSource_file_of_lines cut here, Option.any_eq_true]
  refine ⟨_, List.getLast?_eq_some_getLast (List.cons_ne_nil _ _), (RuleSet.covers_iff _ _).mpr ?_⟩
  rcases List.mem_cons.mp (List.getLast_mem (List.cons_ne_nil rules
    (below.filterMap (Directive.inLine? .file)))) with same | member
  · rwa [same]
  · obtain ⟨other, below, more⟩ := List.mem_filterMap.mp member
    exact later other below _ more

theorem DroppedForFile.dropped {source : List UInt8} {d : Diagnostic}
    (h : DroppedForFile source d.ruleId) : dropped source d = true := by
  rw [LuaLint.dropped, Suppressions.drops, (any_file_covers_iff source d.ruleId).mpr h, Bool.true_or]

section

variable {source line : List UInt8} {k : Nat} {rules : RuleSet} {d moved : Diagnostic}
  (unbroken : Source.lineFeed ∉ line) (here : Directive.inLine? .file line = some rules)

include unbroken here in
/-- A new directive above another one changes nothing for the file. -/
theorem file_withLine_of_directedFrom (directed : DirectedFrom source k) :
    (Suppressions.ofSource (Source.withLine source k line)).file =
      (Suppressions.ofSource source).file := by
  have some : ((Source.lines source).drop k).filterMap (Directive.inLine? .file) ≠ [] := by
    obtain ⟨other, below, directive⟩ := directed
    obtain ⟨more, directive⟩ := Option.ne_none_iff_exists'.mp directive
    exact List.ne_nil_of_mem (List.mem_filterMap.mpr ⟨other, below, directive⟩)
  have before : (Suppressions.ofSource source).file =
      (((Source.lines source).drop k).filterMap (Directive.inLine? .file)).getLast? := by
    conv_lhs => rw [Suppressions.ofSource, ← List.take_append_drop k (Source.lines source)]
    rw [List.filterMap_append, List.getLast?_append_of_ne_nil _ some]
  rw [ofSource_file_of_lines (Source.lines_withLine unbroken) here, before,
    ← List.singleton_append, List.getLast?_append_of_ne_nil _ some]

include unbroken here in
/-- A new directive below all others is what holds for the file. -/
theorem file_withLine_of_last (last : ¬ DirectedFrom source k) :
    (Suppressions.ofSource (Source.withLine source k line)).file = some rules := by
  have none : ((Source.lines source).drop k).filterMap (Directive.inLine? .file) = [] := by
    refine List.filterMap_eq_nil_iff.mpr fun other below => ?_
    by_contra directive
    exact last ⟨other, below, directive⟩
  rw [ofSource_file_of_lines (Source.lines_withLine unbroken) here, none, List.getLast?_singleton]

/-! ## What holds for a line -/

include unbroken in
/-- The directive about a line is found where the line has moved to. -/
theorem onLine_withLine {offset : Nat} (inside : offset ≤ source.length) :
    (Suppressions.ofSource (Source.withLine source k line)).onLine
      (Source.position (Source.withLine source k line)
        (Source.shifted source k line offset)).line =
      (Suppressions.ofSource source).onLine (Source.position source offset).line := by
  rw [Source.position_shifted unbroken inside, Source.position_line]
  generalize found : (source.take offset).count Source.lineFeed = j
  obtain ⟨row, at_j, -⟩ := (Source.onLine_iff inside j).mpr found
  have exists_j : j < (Source.lines source).length := (List.getElem?_eq_some_iff.mp at_j).1
  split
  · rename_i above
    rw [ofSource_onLine, ofSource_onLine, Source.lines_withLine unbroken,
      List.getElem?_append_left (by rw [List.length_take]; omega),
      List.getElem?_take_of_lt (by omega)]
  · rename_i below
    have length : ((Source.lines source).take k).length = k := by
      rw [List.length_take]
      omega
    rw [ofSource_onLine, ofSource_onLine, Source.lines_withLine unbroken,
      List.getElem?_append_right (by omega), length, show j + 1 - k = j - k + 1 by omega,
      List.getElem?_cons_succ, List.getElem?_drop, show k + (j - k) = j by omega]

/-! ## The verdict -/

variable (inside : d.start ≤ source.length) (sameRule : moved.ruleId = d.ruleId)
  (place : moved.start = Source.shifted source k line d.start)

include unbroken here inside sameRule place in
/-- Above another directive about the file, a new one leaves every verdict as it was. -/
theorem dropped_withLine_of_directedFrom (directed : DirectedFrom source k) :
    dropped (Source.withLine source k line) moved = dropped source d := by
  rw [dropped, dropped, Suppressions.drops, Suppressions.drops, sameRule, place,
    file_withLine_of_directedFrom unbroken here directed, onLine_withLine unbroken inside]

include unbroken here inside sameRule place in
/-- **Below all other directives about the file, a new one decides for the file alone.** -/
theorem dropped_withLine_of_last (last : ¬ DirectedFrom source k) :
    dropped (Source.withLine source k line) moved = true ↔
      rules.Means d.ruleId ∨ DroppedOnLine source d := by
  rw [dropped, Suppressions.drops, Bool.or_eq_true, sameRule, place,
    file_withLine_of_last unbroken here last, onLine_withLine unbroken inside,
    any_onLine_covers_iff inside, Option.any_some, RuleSet.covers_iff]

end

/-- **A directive about the file counts until a later one overrules it.** A diagnostic is dropped
wherever it starts if a directive about the file means its rule and every later one means it too. And
if one more line with such a directive is put into the source, a diagnostic that was dropped before is
left exactly if the new directive stands below all others, does not mean the rule, and the diagnostic
was not dropped on its own line. -/
theorem directives_count_until_overruled (source : List UInt8) (found : List Diagnostic)
    (d : Diagnostic) :
    (∀ above line below rules, Source.lines source = above ++ line :: below →
      Directive.inLine? .file line = some rules → rules.Means d.ruleId →
      (∀ other ∈ below, ∀ more, Directive.inLine? .file other = some more →
        more.Means d.ruleId) →
      d ∉ unsuppressed source found) ∧
    ∀ k line rules foundAfter (moved : Diagnostic),
      Source.lineFeed ∉ line → Directive.inLine? .file line = some rules →
      d.start ≤ source.length → d ∈ found → d ∉ unsuppressed source found →
      moved ∈ foundAfter → moved.ruleId = d.ruleId →
      moved.start = Source.shifted source k line d.start →
      (moved ∈ unsuppressed (Source.withLine source k line) foundAfter ↔
        ¬ rules.Means d.ruleId ∧ ¬ DroppedOnLine source d ∧
          ∀ other ∈ (Source.lines source).drop k, Directive.inLine? .file other = none) := by
  constructor
  · intro above line below rules cut here means later kept
    have forFile := droppedForFile_of_lines cut here means later
    exact (mem_unsuppressed_iff_not_dropped (List.mem_filter.mp kept).1).mp kept forFile.dropped
  · intro k line rules foundAfter moved unbroken here inside reported gone reportedAfter sameRule
      place
    have gone : dropped source d = true := by
      rwa [mem_unsuppressed_iff_not_dropped reported, not_not] at gone
    rw [mem_unsuppressed_iff_not_dropped reportedAfter]
    by_cases directed : DirectedFrom source k
    · rw [dropped_withLine_of_directedFrom unbroken here inside sameRule place directed]
      obtain ⟨other, below, directive⟩ := directed
      constructor
      · intro left
        exact absurd gone left
      · rintro ⟨-, -, silent⟩
        exact absurd (silent other below) directive
    · rw [dropped_withLine_of_last unbroken here inside sameRule place directed, not_or]
      have silent (other : List UInt8) (below : other ∈ (Source.lines source).drop k) :
          Directive.inLine? .file other = none := by
        by_contra directive
        exact directed ⟨other, below, directive⟩
      constructor
      · rintro ⟨means, on⟩
        exact ⟨means, on, silent⟩
      · rintro ⟨means, on, -⟩
        exact ⟨means, on⟩

/-- A directive about `r` and, below it, one about everything: both count. With one about `q` alone in
the last place, the finding of `r` is back. -/
theorem directives_count_until_overruled_twice :
    let first := Utf8.encode "--moonlint:disable-file:r"
    let bare := Utf8.encode "--moonlint:disable-file"
    let other := Utf8.encode "--moonlint:disable-file:q"
    let source := Source.ofLines [first, bare, [0x78]]
    let one := Source.ofLines [first, [0x78]]
    let found := [findingAt "r" .error 50]
    findingAt "r" .error 50 ∉ unsuppressed source found ∧
      unsuppressed one [findingAt "r" .error 26] = [] ∧
      findingAt "r" .error 52 ∈
        unsuppressed (Source.withLine one 1 other) [findingAt "r" .error 52] := by
  intro first bare other source one found
  obtain ⟨count, -⟩ := directives_count_until_overruled source found (findingAt "r" .error 50)
  obtain ⟨-, back⟩ := directives_count_until_overruled one [findingAt "r" .error 26]
    (findingAt "r" .error 26)
  have gone : unsuppressed one [findingAt "r" .error 26] = [] := by decide +kernel
  refine ⟨?_, gone, ?_⟩
  · refine count [] first [bare, [0x78]] (.only ["r"]) (by decide +kernel) (by decide +kernel)
      (.inr ⟨["r"], rfl, by simp [findingAt]⟩) ?_
    intro below member more directive
    have all : ∀ below ∈ [bare, [0x78]], Directive.inLine? .file below = none ∨
        Directive.inLine? .file below = some .all := by decide +kernel
    rcases all below member with none | some
    · rw [none] at directive
      cases directive
    · exact .inl (Option.some.inj (directive.symm.trans some))
  · refine (back 1 other (.only ["q"]) [findingAt "r" .error 52] (findingAt "r" .error 52)
      (by decide +kernel) (by decide +kernel) (by decide +kernel) (by simp) (by simp [gone])
      (by simp) rfl (by decide +kernel)).mpr ?_
    refine ⟨?_, ?_, by decide +kernel⟩
    · rw [← RuleSet.covers_iff]
      decide
    · rw [← any_onLine_covers_iff (by decide +kernel)]
      decide +kernel

/-- **A bare directive does not always count.** It drops a finding of any rule, until a line below it
turns off another rule: then the same finding is left, although the bare directive still stands. -/
theorem bare_directive_overruled :
    let bare := Utf8.encode "-- moonlint: disable-file"
    let other := Utf8.encode "-- moonlint: disable-file: shadowing"
    let source := Source.ofLines [bare, Utf8.encode "local y = x / 0", []]
    let after := Source.withLine source 1 other
    let d := findingAt "divide_by_zero" .warning 36
    let moved := findingAt "divide_by_zero" .warning 73
    Directive.inLine? .file bare = some .all ∧
      Directive.inLine? .file other = some (.only ["shadowing"]) ∧
      bare ∈ Source.lines after ∧ moved.start = Source.shifted source 1 other d.start ∧
      unsuppressed source [d] = [] ∧ unsuppressed after [moved] = [moved] := by
  decide +kernel

end LuaLint
