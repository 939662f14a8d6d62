import LuaLint.Proofs.Source.Slot
import LuaLint.Proofs.Suppression.Kept

/-!
# A directive about a line matters nowhere else

A line without a directive about the file can be replaced by another one, with or without a directive about
itself, and what starts on other lines is dropped or left as before.

* **The file** (`Slot.file_filled`): what holds for the file comes from the lines above and below.
* **The other lines** (`Slot.onLine_filled`): what holds for each of them comes from itself.
* **The effect** (`kept_elsewhere`): findings that start on other lines, in the source or beyond its end,
  are kept under the same indexes.
-/

namespace LuaLint

namespace Source.Slot

variable (s : Slot) {line line' : List UInt8} (unbroken : lineFeed ∉ line)

include unbroken in
/-- **What holds for the file comes from the lines above and below**, if the line has no say in it. -/
theorem file_filled (quiet : Directive.inLine? .file line = none) :
    (Suppressions.ofSource (s.filled line)).file =
      ((s.above ++ s.below).filterMap (Directive.inLine? .file)).getLast? := by
  simp only [Suppressions.ofSource, s.lines_filled unbroken, List.filterMap_append,
    List.filterMap_cons_none quiet]

include unbroken in
/-- **What holds for another line does not come from this one.** -/
theorem onLine_filled (unbroken' : lineFeed ∉ line') {k : Nat} (elsewhere : k ≠ s.number) :
    (Suppressions.ofSource (s.filled line')).onLine (k + 1) =
      (Suppressions.ofSource (s.filled line)).onLine (k + 1) := by
  rw [ofSource_onLine, ofSource_onLine, s.getElem?_lines_filled unbroken unbroken' elsewhere]

end Source.Slot

/-- **A directive about a line matters nowhere else.** Let a line without a directive about the file be
replaced by another such line, and let findings that do not start on it move with the bytes at which they
start. Then those are left, in their order and number, that were left before. An offset in the source lies
on the line exactly if it is that of one of its bytes or of what ends it. -/
theorem kept_elsewhere (s : Source.Slot) {line line' : List UInt8}
    (unbroken : Source.lineFeed ∉ line) (unbroken' : Source.lineFeed ∉ line')
    (quiet : Directive.inLine? .file line = none) (quiet' : Directive.inLine? .file line' = none) :
    (∀ offset ≤ (s.filled line).length, (Source.position (s.filled line) offset).line = s.number + 1 ↔
      s.before.length ≤ offset ∧ offset ≤ s.before.length + line.length) ∧
    ∀ found moved : List Diagnostic,
      (∀ d ∈ found, (Source.position (s.filled line) d.start).line ≠ s.number + 1) →
      Displaced (s.shifted line line') found moved →
      keptIndexes (s.filled line') moved = keptIndexes (s.filled line) found ∧
      unsuppressed (s.filled line') moved =
        (keptIndexes (s.filled line) found).filterMap (moved[·]?) := by
  refine ⟨fun offset inside => s.position_line_eq_iff unbroken inside, ?_⟩
  intro found moved elsewhere same
  have indexes : keptIndexes (s.filled line') moved = keptIndexes (s.filled line) found := by
    refine keptIndexes_of_displaced same fun d reported m sameRule place => ?_
    have other := elsewhere d reported
    have stays := s.position_line_shifted unbroken unbroken' other
    rw [dropped, dropped, Suppressions.drops, Suppressions.drops, sameRule, place, stays,
      s.file_filled unbroken quiet, s.file_filled unbroken' quiet']
    rw [Source.position_line] at other ⊢
    rw [s.onLine_filled unbroken unbroken' fun here => other (congrArg (· + 1) here)]
  exact ⟨indexes, by rw [unsuppressed_eq_kept, indexes]⟩

/-- A `noqa` is taken out of the line between two others. A finding on the line feed before it and one at
the end of the source are judged by their own lines, as before. -/
theorem kept_elsewhere_between :
    let s : Source.Slot :=
      { before := Utf8.encode "x --moonlint:noqa:r\n", after := Utf8.encode "\nz"
        opens := .inr (by decide +kernel), closes := .inr (by decide +kernel) }
    let line := Utf8.encode "y --moonlint:noqa"
    let found := [findingAt "r" .error 19, findingAt "q" .error 19, findingAt "r" .error 39]
    let moved := [findingAt "r" .error 19, findingAt "q" .error 19, findingAt "r" .error 22]
    s.number = 1 ∧ Displaced (s.shifted line []) found moved ∧
      keptIndexes (s.filled []) moved = [1, 2] ∧
      unsuppressed (s.filled []) moved = [findingAt "q" .error 19, findingAt "r" .error 22] := by
  intro s line found moved
  have same : Displaced (s.shifted line []) found moved :=
    .cons ⟨rfl, by decide +kernel⟩ (.cons ⟨rfl, by decide +kernel⟩
      (.cons ⟨rfl, by decide +kernel⟩ .nil))
  have elsewhere : ∀ d ∈ found, (Source.position (s.filled line) d.start).line ≠ s.number + 1 := by
    decide +kernel
  have unbroken : Source.lineFeed ∉ line := by decide +kernel
  have quiet : Directive.inLine? .file line = none := by decide +kernel
  have quiet' : Directive.inLine? .file [] = none := by decide +kernel
  obtain ⟨-, kept⟩ := kept_elsewhere s unbroken List.not_mem_nil quiet quiet'
  obtain ⟨indexes, left⟩ := kept found moved elsewhere same
  have before : keptIndexes (s.filled line) found = [1, 2] := by decide +kernel
  rw [before] at indexes left
  exact ⟨by decide +kernel, same, indexes, left⟩

end LuaLint
