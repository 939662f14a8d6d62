import LuaLint.Proofs.Linter.Ordering
import LuaLint.Proofs.Rule.Nesting
import LuaLint.Proofs.Source.Coordinates

/-!
# Where the lines of a report point

Each line of a report says where the finding is, as a line and a column with a colon between them.

* **Reading back** (`Position.text_injective`): the text of a position holds one line and one column,
  since no digit is a colon and different numbers have different numerals.
* **A report** (`Linter.positions_of_report`) is read from the top of the source to its end: positions
  never go back from one line of a report to the next, and findings that start at different places are
  said to be at different places.
-/

namespace LuaLint

namespace Position

/-- A position as a report has it. -/
def text (p : Position) : String := s!"{p.line}:{p.column}"

/-- No digit is a colon. -/
theorem not_mem_toDigits (n : Nat) : ':' ∉ Nat.toDigits 10 n := by
  intro colon
  have digit : (':').isDigit = true := Nat.isDigit_of_mem_toDigits (by decide) (by decide) colon
  exact absurd digit (by decide)

/-- Different numbers have different numerals. -/
theorem toDigits_injective {m n : Nat} (h : Nat.toDigits 10 m = Nat.toDigits 10 n) : m = n := by
  have read := congrArg (fun digits => Nat.ofDigitChars 10 digits 0) h
  simpa using read

/-- A position in a source is written with two numerals. -/
theorem toList_text (line column : Nat) :
    (text ⟨line, column⟩).toList = Nat.toDigits 10 line ++ ':' :: Nat.toDigits 10 column := by
  change (line.repr ++ ":" ++ column.repr).toList = _
  rw [String.toList_append, String.toList_append, Nat.toList_repr, Nat.toList_repr,
    List.append_assoc]
  rfl

/-- **A position can be read back from what begins with it**, if a colon stands behind it. -/
theorem text_append_inj {p q : Position} (hp : 0 ≤ p.column) (hq : 0 ≤ q.column)
    {rest others : List Char} (same : p.text.toList ++ ':' :: rest = q.text.toList ++ ':' :: others) :
    p = q ∧ rest = others := by
  obtain ⟨line, column⟩ := p
  obtain ⟨line', column'⟩ := q
  obtain ⟨m, rfl⟩ := Int.eq_ofNat_of_zero_le hp
  obtain ⟨n, rfl⟩ := Int.eq_ofNat_of_zero_le hq
  rw [toList_text, toList_text, List.append_assoc, List.append_assoc] at same
  obtain ⟨lines, same⟩ :=
    Text.append_separator_inj (not_mem_toDigits line) (not_mem_toDigits line') same
  obtain ⟨columns, same⟩ :=
    Text.append_separator_inj (not_mem_toDigits m) (not_mem_toDigits n) same
  rw [toDigits_injective lines, toDigits_injective columns]
  exact ⟨rfl, same⟩

/-- **The text of a position can be read back.** -/
theorem text_injective {p q : Position} (hp : 0 ≤ p.column) (hq : 0 ≤ q.column)
    (same : p.text = q.text) : p = q :=
  (text_append_inj hp hq (congrArg (fun text => text.toList ++ [':']) same)).1

end Position

/-- Where a finding is in its source. -/
def Diagnostic.position (source : List UInt8) (d : Diagnostic) : Position :=
  Source.position source d.start

/-- A line of a report has the text of a position in it. -/
theorem Diagnostic.render_eq (d : Diagnostic) (source : List UInt8) (path : String) :
    d.render source path =
      s!"{path}:{(d.position source).text}: {d.severity.word}[{d.ruleId}]: {d.message}" := by
  unfold render position Position.text
  simp only [toString, String.append_assoc]

/-- Findings that start at different places are not said to be at one place. -/
theorem Diagnostic.start_eq_of_text {source : List UInt8} {d e : Diagnostic}
    (same : (d.position source).text = (e.position source).text) : d.start = e.start := by
  apply Source.position_injective source
  exact Position.text_injective (Source.position_column_nonneg source d.start)
    (Source.position_column_nonneg source e.start) same

namespace Linter

/-- From one line of a report to the next, positions do not go back. -/
theorem positions_rise {l : Linter} {parser : Parser} {source : List UInt8} {found : List Diagnostic}
    (report : (l.lint parser source).2 = .ok found) :
    found.Pairwise fun d e =>
      d.position source = e.position source ∨ (d.position source).Before (e.position source) := by
  apply (starts_rise_of_lint report).imp
  intro d e le
  rcases Nat.lt_or_eq_of_le le with before | same
  · exact .inr (Source.position_before source before)
  · left
    rw [Diagnostic.position, same, Diagnostic.position]

/-- **Positions undo the layout of lines, and reports are read from top to bottom.** The position of an
offset in a source names a line and a column on it or at its end, and the offset is what the lines above
take, each with its line feed, plus the column. A greater offset has a later position, beyond the end of
the source as well. So the lines of a report come in the order of the positions that they say, and two of
them say the same position only if the findings start at the same byte. -/
theorem positions_of_report (source : List UInt8) :
    (∀ offset : Nat, offset ≤ source.length →
      let p := Source.position source offset
      1 ≤ p.line ∧ p.line ≤ (Source.lines source).length ∧ 0 ≤ p.column ∧
        (∃ line, (Source.lines source)[p.line - 1]? = some line ∧ p.column ≤ line.length) ∧
        (offset : Int) = Source.lineStart source (p.line - 1) + p.column) ∧
    (∀ first second : Nat, first < second →
      (Source.position source first).Before (Source.position source second)) ∧
    ∀ (l : Linter) (parser : Parser) (found : List Diagnostic), (l.lint parser source).2 = .ok found →
      (∀ path, ∀ d ∈ found, d.render source path =
        s!"{path}:{(d.position source).text}: {d.severity.word}[{d.ruleId}]: {d.message}") ∧
      found.Pairwise (fun d e =>
        d.position source = e.position source ∨ (d.position source).Before (e.position source)) ∧
      ∀ d ∈ found, ∀ e ∈ found, d.start ≠ e.start →
        (d.position source).text ≠ (e.position source).text := by
  refine ⟨fun offset inside => Source.position_of_inside inside,
    fun first second before => Source.position_before source before, ?_⟩
  intro l parser found report
  refine ⟨fun path d _ => d.render_eq source path, positions_rise report, ?_⟩
  intro d _ e _ different same
  exact different (Diagnostic.start_eq_of_text same)

/-- Two divisions with an empty line between them. The line feed of the first line is on the first line,
and the one after it is the empty line; at the end of the source an empty line begins, and an offset
beyond the end is further right on it. -/
theorem positions_of_report_lines :
    let source := Utf8.encode "x1 = 1 / 0\n\ny = 2 / 0\n"
    let l : Linter := { rules := [ZeroDivisor.rule] }
    let first := ZeroDivisor.findingOn { start := 5, stop := 10 }
    let second := ZeroDivisor.findingOn { start := 16, stop := 21 }
    let place (offset : Nat) := Source.position source offset
    source.length = 22 ∧ (l.lint Lua.parser source).2 = .ok [first, second] ∧
      place 10 = ⟨1, 10⟩ ∧ place 11 = ⟨2, 0⟩ ∧ place 22 = ⟨4, 0⟩ ∧
      ((22 : Nat) : Int) = Source.lineStart source 3 + 0 ∧
      (place 10).Before (place 11) ∧ (place 22).Before (place 30) ∧
      (first.position source).text ≠ (second.position source).text := by
  intro source l first second place
  have length : source.length = 22 := by decide +kernel
  have report : (l.lint Lua.parser source).2 = .ok [first, second] := by
    obtain ⟨tree, read⟩ : ∃ tree, Lua.parser.read source = .ok tree :=
      Outcome.exists_of_isOk (by decide +kernel)
    have checked := of_decide_eq_true <| Outcome.of_all_toOption
      (p := fun t => decide (ZeroDivisor.check t ⟨source, l.standardLibrary⟩ = .ok [first, second]))
      (by decide +kernel) read
    obtain ⟨-, laidOut, -⟩ := Lua.read_laidOut read
    have only := ZeroDivisor.lintTree_only (l := l) source rfl (by decide) laidOut checked
    have left : unsuppressed source [first, second] = [first, second] := by decide +kernel
    rw [lint, read]
    exact only.trans (congrArg Except.ok left)
  obtain ⟨layout, order, reports⟩ := positions_of_report source
  have last : place 22 = ⟨4, 0⟩ := by decide +kernel
  have whole : ((22 : Nat) : Int) = Source.lineStart source 3 + 0 := by
    obtain ⟨-, -, -, -, whole⟩ := layout 22 (Nat.le_of_eq length.symm)
    rw [show Source.position source (22 : Nat) = ⟨4, 0⟩ from last] at whole
    exact whole
  obtain ⟨-, -, apart⟩ := reports l Lua.parser _ report
  exact ⟨length, report, by decide +kernel, by decide +kernel, last, whole, order 10 11 (by decide),
    order 22 30 (by decide), apart first (by simp) second (by simp) (by decide)⟩

end Linter

end LuaLint
