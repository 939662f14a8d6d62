import LuaLint.Proofs.Table
import LuaLint.Proofs.Source.Lines
import LuaLint.Suppression.Basic

/-!
# Which diagnostics a source drops

The verdict on one diagnostic depends on its rule and on where it starts, and on nothing else; the
diagnostics beside it play no part.

* **For the file** (`DroppedForFile`): some line has a directive about the file, and the last line
  that has one means the rule.
* **On the line** (`DroppedOnLine`): the line on which the diagnostic starts has a directive about
  the line, and it means the rule. The line is found by adding up lengths (`Source.OnLine`), and a
  diagnostic that starts on a line feed or at the end of the source belongs to the line that ends
  there.
* **The verdict** (`unsuppressed_eq_undropped`): what starts inside the source is left exactly if
  neither holds, and stays in its order and number.
-/

namespace LuaLint

/-- The rule is among those meant: all rules are, or its id is named. -/
def RuleSet.Means (rules : RuleSet) (ruleId : String) : Prop :=
  rules = .all ∨ ∃ ids, rules = .only ids ∧ ruleId ∈ ids

/-- The check of a rule against a set of rules decides whether it is meant. -/
theorem RuleSet.covers_iff (rules : RuleSet) (ruleId : String) :
    rules.covers ruleId = true ↔ rules.Means ruleId := by
  cases rules with
  | all => simp [covers, Means]
  | only ids => simp [covers, Means]

/-! ## The two grounds -/

/-- The last directive of the source about the file means the rule. -/
def DroppedForFile (source : List UInt8) (ruleId : String) : Prop :=
  ∃ earlier line later rules, Source.lines source = earlier ++ line :: later ∧
    Directive.inLine? .file line = some rules ∧
    (∀ other ∈ later, Directive.inLine? .file other = none) ∧ rules.Means ruleId

/-- The directive about the line on which the diagnostic starts means its rule. -/
def DroppedOnLine (source : List UInt8) (d : Diagnostic) : Prop :=
  ∃ k line rules, (Source.lines source)[k]? = some line ∧ Source.OnLine source k d.start ∧
    Directive.inLine? .line line = some rules ∧ rules.Means d.ruleId

/-- What holds for the file is what its last directive about the file says. -/
theorem ofSource_file_eq_some_iff (source : List UInt8) (rules : RuleSet) :
    (Suppressions.ofSource source).file = some rules ↔
      ∃ earlier line later, Source.lines source = earlier ++ line :: later ∧
        Directive.inLine? .file line = some rules ∧
        ∀ other ∈ later, Directive.inLine? .file other = none := by
  have last : (Suppressions.ofSource source).file =
      (Source.lines source).reverse.findSome? (Directive.inLine? .file) :=
    List.getLast?_filterMap
  rw [last]
  exact Latest.findSome?_reverse_eq_some_iff

/-- What holds for a line is what its own directive about the line says. -/
theorem ofSource_onLine (source : List UInt8) (k : Nat) :
    (Suppressions.ofSource source).onLine (k + 1) =
      (Source.lines source)[k]?.bind (Directive.inLine? .line) := by
  simp only [Suppressions.onLine, Suppressions.ofSource, Nat.add_sub_cancel, List.getElem?_map]
  cases (Source.lines source)[k]? <;> rfl

/-! ## The verdict -/

/-- The directives of the source drop the diagnostic. -/
def dropped (source : List UInt8) (d : Diagnostic) : Bool :=
  (Suppressions.ofSource source).drops d.ruleId (Source.position source d.start).line

/-- What is not dropped is left. -/
theorem unsuppressed_eq_filter (source : List UInt8) (found : List Diagnostic) :
    unsuppressed source found = found.filter fun d => !dropped source d :=
  rfl

/-- What is found is left exactly if it is not dropped. -/
theorem mem_unsuppressed_iff_not_dropped {source : List UInt8} {found : List Diagnostic}
    {d : Diagnostic} (hd : d ∈ found) :
    d ∈ unsuppressed source found ↔ ¬ dropped source d = true := by
  rw [unsuppressed_eq_filter, List.mem_filter, Bool.not_eq_true', Bool.not_eq_true]
  exact and_iff_right hd

/-- What holds for the file means a rule exactly if the rule is dropped for the file. -/
theorem any_file_covers_iff (source : List UInt8) (ruleId : String) :
    (Suppressions.ofSource source).file.any (·.covers ruleId) = true ↔
      DroppedForFile source ruleId := by
  rw [Option.any_eq_true]
  constructor
  · rintro ⟨rules, h, means⟩
    obtain ⟨earlier, line, later, cut, here, last⟩ := (ofSource_file_eq_some_iff source rules).mp h
    exact ⟨earlier, line, later, rules, cut, here, last, (rules.covers_iff ruleId).mp means⟩
  · rintro ⟨earlier, line, later, rules, cut, here, last, means⟩
    exact ⟨rules, (ofSource_file_eq_some_iff source rules).mpr ⟨earlier, line, later, cut, here, last⟩,
      (rules.covers_iff ruleId).mpr means⟩

/-- What holds for the line of a diagnostic means its rule exactly if the line drops it. -/
theorem any_onLine_covers_iff {source : List UInt8} {d : Diagnostic}
    (inside : d.start ≤ source.length) :
    ((Suppressions.ofSource source).onLine (Source.position source d.start).line).any
      (·.covers d.ruleId) = true ↔ DroppedOnLine source d := by
  rw [Source.position_line, ofSource_onLine, Option.any_eq_true]
  constructor
  · rintro ⟨rules, h, means⟩
    obtain ⟨line, at_k, here⟩ := Option.bind_eq_some_iff.mp h
    exact ⟨_, line, rules, at_k, (Source.onLine_iff inside _).mpr rfl, here,
      (rules.covers_iff _).mp means⟩
  · rintro ⟨k, line, rules, at_k, on, here, means⟩
    refine ⟨rules, Option.bind_eq_some_iff.mpr ⟨line, ?_, here⟩, (rules.covers_iff _).mpr means⟩
    rw [(Source.onLine_iff inside k).mp on]
    exact at_k

/-- **A diagnostic is dropped on one of the two grounds.** -/
theorem dropped_iff {source : List UInt8} {d : Diagnostic} (inside : d.start ≤ source.length) :
    dropped source d = true ↔ DroppedForFile source d.ruleId ∨ DroppedOnLine source d := by
  rw [dropped, Suppressions.drops, Bool.or_eq_true, any_file_covers_iff,
    any_onLine_covers_iff inside]

/-- **What a source leaves of some diagnostics.** Of diagnostics that start inside the source, those
are left, in their order and number, which are not dropped for the file and not dropped on their
line. Every offset lies on exactly one line, the one that its position names, and the line has its
bytes from `Source.lineStart` on up to a line feed or the end of the source. -/
theorem unsuppressed_eq_undropped {source : List UInt8} {found : List Diagnostic}
    (inside : ∀ d ∈ found, d.start ≤ source.length) :
    unsuppressed source found = found.filter (fun d => !dropped source d) ∧
    (∀ d ∈ found,
      dropped source d = true ↔ DroppedForFile source d.ruleId ∨ DroppedOnLine source d) ∧
    (∀ offset ≤ source.length, ∃ k, Source.OnLine source k offset ∧
      (∀ j, Source.OnLine source j offset → j = k) ∧
      (Source.position source offset).line = k + 1) ∧
    ∀ k line, (Source.lines source)[k]? = some line → Source.lineFeed ∉ line ∧
      ∃ rest, source.drop (Source.lineStart source k) = line ++ rest ∧
        (rest = [] ∨ ∃ next, rest = Source.lineFeed :: next) := by
  refine ⟨unsuppressed_eq_filter source found, fun d hd => dropped_iff (inside d hd), ?_,
    fun k line h => Source.drop_lineStart h⟩
  intro offset h
  refine ⟨_, (Source.onLine_iff h _).mpr rfl, fun j hj => ?_, Source.position_line source offset⟩
  exact ((Source.onLine_iff h j).mp hj).symm

/-- A finding of one byte. -/
def findingAt (ruleId : String) (severity : Severity) (start : Nat) : Diagnostic :=
  { ruleId, message := "", severity
    primary := ⟨{ start, stop := start + 1 }, none⟩, others := [] }

/-- A finding on the line feed of a line with `noqa` is dropped, one on the empty line after it is
not; at the end of the source only the directive about the file counts. -/
theorem unsuppressed_eq_undropped_at_ends :
    let source := Utf8.encode "a --moonlint:noqa:r\n\n--moonlint:disable-file:q\n"
    let found := [findingAt "r" .error 19, findingAt "r" .error 20, findingAt "q" .error 47,
      findingAt "r" .error 47]
    (∀ d ∈ found, d.start ≤ source.length) ∧
      unsuppressed source found = [findingAt "r" .error 20, findingAt "r" .error 47] ∧
      ¬ DroppedOnLine source (findingAt "r" .error 20) := by
  intro source found
  have inside : ∀ d ∈ found, d.start ≤ source.length := by decide +kernel
  obtain ⟨left, verdict, -⟩ := unsuppressed_eq_undropped inside
  refine ⟨inside, by rw [left]; decide +kernel, fun on => ?_⟩
  have kept : dropped source (findingAt "r" .error 20) = false := by decide +kernel
  have gone := (verdict (findingAt "r" .error 20) (by simp [found])).mpr (Or.inr on)
  rw [kept] at gone
  exact Bool.false_ne_true gone

end LuaLint
