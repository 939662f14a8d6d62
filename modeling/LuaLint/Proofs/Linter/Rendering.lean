import LuaLint.Proofs.Linter.Positions

/-!
# Reading a line of a report

A line of a report says six things, with marks between them: the path, the line and the column of the
finding, its severity, the id of its rule, and the message (`Diagnostic.toList_render`).

* **Each mark can be told** from what stands before it: no numeral has a colon in it and no word for a
  severity a bracket (`Severity.not_mem_word`). A path without a colon and an id without a closing bracket
  end at the first mark behind them. The message comes last, so it may be any text.
* **What the parts say** can be read from their texts: the position gives the offset of the finding
  (`Source.position_injective`), and the word its severity (`Severity.word_injective`).

So **two lines are the same exactly if they say the same** (`Diagnostic.render_eq_iff`).
-/

namespace LuaLint

namespace Severity

/-- Different severities have different words. -/
theorem word_injective {s t : Severity} (same : s.word = t.word) : s = t := by
  have read := congrArg ofWord? same
  rw [ofWord?_word, ofWord?_word] at read
  exact Option.some.inj read

/-- No word for a severity has a bracket in it. -/
theorem not_mem_word (s : Severity) : '[' ∉ s.word.toList := by
  cases s <;> decide

end Severity

namespace Diagnostic

/-- The parts of a line with the marks between them. -/
theorem toList_render (d : Diagnostic) (source : List UInt8) (path : String) :
    (d.render source path).toList =
      path.toList ++ ':' :: ((d.position source).text.toList ++ ':' :: ' ' ::
        (d.severity.word.toList ++ '[' :: (d.ruleId.toList ++ ']' :: ':' :: ' ' ::
          d.message.toList))) := by
  rw [render_eq]
  simp [toString, String.toList_append]

/-- **Two lines are the same exactly if they say the same.** If no path has a colon in it and no id a
closing bracket, a line of a report tells the path, the severity of the finding, the id of its rule, its
message, whatever text that is, and the offset of its primary label. It tells nothing else. -/
theorem render_eq_iff (source : List UInt8) {d e : Diagnostic} {path other : String}
    (hd : ']' ∉ d.ruleId.toList) (he : ']' ∉ e.ruleId.toList) (hp : ':' ∉ path.toList)
    (ho : ':' ∉ other.toList) :
    d.render source path = e.render source other ↔
      path = other ∧ d.severity = e.severity ∧ d.ruleId = e.ruleId ∧ d.message = e.message ∧
        d.primary.span.start = e.primary.span.start := by
  constructor
  · intro same
    have letters := congrArg String.toList same
    rw [toList_render, toList_render] at letters
    obtain ⟨paths, letters⟩ := Text.append_separator_inj hp ho letters
    obtain ⟨places, letters⟩ := Position.text_append_inj
      (Source.position_column_nonneg source d.start) (Source.position_column_nonneg source e.start)
      letters
    obtain ⟨words, letters⟩ := Text.append_separator_inj d.severity.not_mem_word
      e.severity.not_mem_word (List.cons.inj letters).2
    obtain ⟨ids, letters⟩ := Text.append_separator_inj hd he letters
    have messages := (List.cons.inj (List.cons.inj letters).2).2
    exact ⟨String.toList_injective paths, Severity.word_injective (String.toList_injective words),
      String.toList_injective ids, String.toList_injective messages,
      Source.position_injective source places⟩
  · rintro ⟨rfl, severities, ids, messages, starts⟩
    have places : d.position source = e.position source := by
      rw [position, position, start, start, starts]
    rw [render_eq, render_eq, places, severities, ids, messages]

/-- Marks of all kinds in the message, and in the id and the path those that are no mark there. The lines
differ if the offsets do, here on an empty line and behind its end, and not if only what else is labelled
does. -/
theorem render_eq_iff_marks :
    let source := Utf8.encode "a\n"
    let message := "b: c\nd:2:0: warning[e]: f"
    let finding (start stop : Nat) (h : start ≤ stop) (others : List Label) : Diagnostic :=
      ⟨"x[:y", message, .warning, ⟨⟨start, stop, h⟩, none⟩, others⟩
    let d := finding 2 2 (by decide) []
    let e := finding 2 9 (by decide) [d.primary]
    let f := finding 3 9 (by decide) []
    ']' ∉ "x[:y".toList ∧ ':' ∉ "a]b".toList ∧
      d.render source "a]b" = "a]b:2:0: warning[x[:y]: b: c\nd:2:0: warning[e]: f" ∧
      d.render source "a]b" = e.render source "a]b" ∧ d.render source "a]b" ≠ f.render source "a]b" := by
  intro source message finding d e f
  have hd : ']' ∉ "x[:y".toList := by decide
  have hp : ':' ∉ "a]b".toList := by decide
  refine ⟨hd, hp, by decide +kernel, ?_, ?_⟩
  · exact (render_eq_iff source hd hd hp hp).mpr ⟨rfl, rfl, rfl, rfl, rfl⟩
  · intro same
    obtain ⟨-, -, -, -, starts⟩ := (render_eq_iff source hd hd hp hp).mp same
    exact absurd starts (by decide)

/-- An id with a closing bracket runs into the message. -/
example : (Diagnostic.mk "x]: y" "z" .error ⟨⟨0, 0, by decide⟩, none⟩ []).render [] "a" =
    (Diagnostic.mk "x" "y]: z" .error ⟨⟨0, 0, by decide⟩, none⟩ []).render [] "a" := by
  decide +kernel

end Diagnostic

end LuaLint
