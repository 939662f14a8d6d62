import LuaLint.Proofs.Source.LineEndings
import LuaLint.Proofs.Suppression.Kept
import LuaLint.Proofs.Suppression.Written
import Mathlib.Data.List.TakeWhile

/-!
# Line endings do not matter to directives

A line that ends with a carriage return has one more blank at its end. A directive may take it, into the
gap before a word or into its list of ids, but it comes to the same.

* **Words** (`afterWord_skipBlanks_append`): no word has a blank in it, so none is found because of blanks
  behind the text, and none is missed.
* **Lists** (`ofList_list?_append`): blanks behind a list of ids are trimmed off its last id.
* **Lines** (`inLine?_return`): so a line has the directive that it has without the carriage return, and
  the suppressions of a source are those of the source with the other line ending.

As positions stay as well (`Source.position_withReturns`), the same findings are kept under both line
endings (`kept_withReturns`).
-/

namespace LuaLint

namespace Directive

variable {gap : List Char} (blank : Blank gap)

/-! ## Words -/

include blank in
/-- Skipping blanks leaves nothing of a text, or it does not reach the blanks behind it. -/
theorem skipBlanks_append_blank (text : List Char) :
    (skipBlanks text = [] ∧ skipBlanks (text ++ gap) = []) ∨
      ∃ c rest, skipBlanks text = c :: rest ∧ skipBlanks (text ++ gap) = c :: rest ++ gap := by
  unfold skipBlanks
  rw [List.dropWhile_append]
  cases text.dropWhile Text.isBlank with
  | nil => exact .inl ⟨rfl, Text.dropWhile_of_blank blank⟩
  | cons c rest => exact .inr ⟨c, rest, rfl, rfl⟩

include blank in
/-- No word is matched because of blanks behind the text. -/
theorem afterWord_append_blank {word : List Char} (plain : ∀ w ∈ word, Text.isBlank w = false)
    (text : List Char) : afterWord word (text ++ gap) = (afterWord word text).map (· ++ gap) := by
  induction word generalizing text with
  | nil => rfl
  | cons w word ih =>
    have solid : Text.isBlank w = false := plain w List.mem_cons_self
    cases text with
    | nil =>
      cases gap with
      | nil => rfl
      | cons c gap =>
        have isBlank : Text.isBlank c = true := blank c List.mem_cons_self
        have differ : fold c ≠ w := by
          rintro rfl
          rw [fold_of_blank isBlank, isBlank] at solid
          cases solid
        rw [List.nil_append, afterWord, if_neg differ]
        rfl
    | cons c text =>
      rw [List.cons_append, afterWord, afterWord]
      split
      · exact ih (fun w later => plain w (List.mem_cons_of_mem _ later)) text
      · rfl

include blank in
/-- **A word is found behind a gap exactly if it is found there without the blanks behind the text.** -/
theorem afterWord_skipBlanks_append {word : List Char} (plain : Plain word) (text : List Char) :
    afterWord word (skipBlanks (text ++ gap)) =
      (afterWord word (skipBlanks text)).map (· ++ gap) := by
  rcases skipBlanks_append_blank blank text with ⟨none, none'⟩ | ⟨c, rest, begun, behind⟩
  · obtain ⟨w, word, rfl⟩ := List.exists_cons_of_ne_nil plain.1
    rw [none, none', afterWord]
    rfl
  · rw [begun, behind, afterWord_append_blank blank fun w hw => (plain.2 w hw).2]

/-! ## Lists -/

include blank in
/-- Blanks behind a list of ids are trimmed off its last id. -/
theorem idsOf_append_blank (list : List Char) :
    RuleSet.idsOf (list ++ gap) = RuleSet.idsOf list := by
  have comma : ',' ∉ gap := fun here => ne_comma_of_isBlank (blank ',' here) rfl
  obtain ⟨front, last, cut, longer⟩ := Text.split_append_of_not_mem comma list
  rw [RuleSet.idsOf, RuleSet.idsOf, cut, longer, List.map_append, List.map_append, List.map_singleton,
    List.map_singleton, Text.trim_append_blank blank]

include blank in
/-- A list of ids goes as far as without the blanks behind the text, or takes them all. -/
theorem list?_append_blank (text : List Char) :
    list? (text ++ gap) = list? text ∨
      ∃ list, list? text = some list ∧ list? (text ++ gap) = some (list ++ gap) := by
  cases text with
  | nil =>
    left
    cases gap with
    | nil => rfl
    | cons c gap =>
      have colon : c ≠ ':' := fun colon => absurd (blank c List.mem_cons_self) (by rw [colon]; decide)
      rw [List.nil_append, list?_of_ne colon]
      rfl
  | cons c text =>
    rw [List.cons_append]
    by_cases colon : c = ':'
    · subst colon
      rw [list?, list?]
      rcases skipBlanks_append_blank blank text with ⟨none, none'⟩ | ⟨d, ids, begun, behind⟩
      · exact .inl (by rw [none, none'])
      · rw [begun, behind, List.cons_append]
        by_cases first : isIdChar d = true
        · simp only [first, if_true]
          rw [← List.cons_append, List.takeWhile_append]
          split
          · -- the list goes to the end of the text, and so the blanks belong to it
            rename_i whole
            have inList : ∀ d ∈ gap, isListChar d = true := fun d hd => by
              simp [isListChar, blank d hd]
            have taken : (d :: ids).takeWhile isListChar = d :: ids :=
              (List.takeWhile_prefix isListChar).eq_of_length whole
            exact .inr ⟨d :: ids, congrArg some taken, by
              rw [List.takeWhile_eq_self_iff.mpr inList]⟩
          · exact .inl rfl
        · exact .inl (by simp only [first, Bool.false_eq_true, if_false])
    · exact .inl (by rw [list?_of_ne colon, list?_of_ne colon])

include blank in
/-- **Blanks behind the text do not change which rules are meant.** -/
theorem ofList_list?_append (text : List Char) :
    RuleSet.ofList (list? (text ++ gap)) = RuleSet.ofList (list? text) := by
  rcases list?_append_blank blank text with same | ⟨list, before, after⟩
  · rw [same]
  · rw [before, after, RuleSet.ofList_some, RuleSet.ofList_some, idsOf_append_blank blank]

/-! ## Lines -/

include blank in
theorem atFront?_append_blank (scope : Scope) (text : List Char) :
    atFront? scope (text ++ gap) = atFront? scope text := by
  have dashes : Plain ['-', '-'] := by decide
  have name (text : List Char) := afterWord_skipBlanks_append blank plain_name text
  have keyword (text : List Char) := afterWord_skipBlanks_append blank (plain_keyword scope) text
  unfold atFront?
  rw [afterWord_append_blank blank fun w hw => (dashes.2 w hw).2]
  cases afterWord ['-', '-'] text with
  | none => rfl
  | some text =>
    simp only [Option.map_some, bind, Option.bind, name]
    cases afterWord "moonlint:".toList (skipBlanks text) with
    | none => rfl
    | some text =>
      simp only [Option.map_some, keyword]
      cases afterWord scope.keyword.toList (skipBlanks text) with
      | none => rfl
      | some text => simp only [Option.map_some, ofList_list?_append blank]

include blank in
/-- No directive is found because of blanks behind the text, and none is missed. -/
theorem find?_append_blank (scope : Scope) (text : List Char) :
    find? scope (text ++ gap) = find? scope text := by
  induction text with
  | nil =>
    rw [List.nil_append]
    induction gap with
    | nil => rfl
    | cons c gap ih =>
      have none_here : atFront? scope (c :: gap) = none := atFront?_append_blank blank scope []
      rw [find?, find?, none_here]
      exact ih fun d hd => blank d (List.mem_cons_of_mem c hd)
  | cons c text ih =>
    have same := atFront?_append_blank blank scope (c :: text)
    rw [List.cons_append] at same ⊢
    rw [find?, find?, same, ih]

/-- **A carriage return at its end does not change the directive of a line**, whatever bytes come before
it, also those that leave an encoding unfinished. -/
theorem inLine?_return (scope : Scope) (line : List UInt8) :
    inLine? scope (line ++ [Source.carriageReturn]) = inLine? scope line := by
  have decoded : Utf8.decodeLenient [Source.carriageReturn] = ['\r'] := by decide +kernel
  rw [inLine?, inLine?, Utf8.decodeLenient_append (by decide), decoded]
  exact find?_append_blank (by decide) scope _

end Directive

/-! ## Sources -/

/-- **Both line endings make the same suppressions.** -/
theorem ofSource_withReturns (source : List UInt8) :
    Suppressions.ofSource (Source.withReturns source) = Suppressions.ofSource source := by
  refine ofSource_congr fun scope => ?_
  have alike := Source.lines_withReturns source
  generalize Source.lines source = rows, Source.lines (Source.withReturns source) = rows' at alike
  induction alike with
  | nil => rfl
  | cons ends _ ih =>
    rw [List.map_cons, List.map_cons, ih]
    rcases ends with rfl | rfl
    · rfl
    · rw [Directive.inLine?_return]

/-- **Line endings do not matter.** With a carriage return before every line feed each offset keeps its
line and its column, in the source and beyond its end. And of findings that have moved with the bytes at
which they start, those are left, in their order and number, that were left before. -/
theorem kept_withReturns (source : List UInt8) :
    (∀ offset : Nat, Source.position (Source.withReturns source) (Source.returned source offset) =
      Source.position source offset) ∧
    ∀ found moved, Displaced (Source.returned source) found moved →
      keptIndexes (Source.withReturns source) moved = keptIndexes source found ∧
      unsuppressed (Source.withReturns source) moved =
        (keptIndexes source found).filterMap (moved[·]?) := by
  refine ⟨Source.position_withReturns source, fun found moved same => ?_⟩
  have indexes : keptIndexes (Source.withReturns source) moved = keptIndexes source found := by
    refine keptIndexes_of_displaced same fun d _ m sameRule place => ?_
    rw [dropped, dropped, ofSource_withReturns, sameRule, place, Source.position_withReturns]
  exact ⟨indexes, by rw [unsuppressed_eq_kept, indexes]⟩

/-- Findings on a line feed and behind it. The first list of ids takes the carriage return that comes to
stand behind it; the second one ends before, at the beginning of an encoding that is not finished. -/
theorem kept_withReturns_lists :
    let source := Utf8.encode "x --moonlint:noqa:r\ny --moonlint:noqa:q, " ++ [0xE2, 0x82, 0x0A, 0x7A]
    let found := [findingAt "r" .error 19, findingAt "r" .error 20, findingAt "q" .error 43,
      findingAt "q" .error 44]
    let moved := [findingAt "r" .error 19, findingAt "r" .error 21, findingAt "q" .error 44,
      findingAt "q" .error 46]
    Displaced (Source.returned source) found moved ∧
      keptIndexes (Source.withReturns source) moved = [1, 3] ∧
      unsuppressed (Source.withReturns source) moved =
        [findingAt "r" .error 21, findingAt "q" .error 46] := by
  intro source found moved
  have same : Displaced (Source.returned source) found moved :=
    .cons ⟨rfl, by decide +kernel⟩ (.cons ⟨rfl, by decide +kernel⟩
      (.cons ⟨rfl, by decide +kernel⟩ (.cons ⟨rfl, by decide +kernel⟩ .nil)))
  obtain ⟨-, kept⟩ := kept_withReturns source
  obtain ⟨indexes, left⟩ := kept found moved same
  have before : keptIndexes source found = [1, 3] := by decide +kernel
  rw [before] at indexes left
  exact ⟨same, indexes, left⟩

end LuaLint
