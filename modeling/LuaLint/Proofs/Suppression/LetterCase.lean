import LuaLint.Proofs.Suppression.Kept
import LuaLint.Proofs.Suppression.Matching
import LuaLint.Proofs.Text.LetterCase

/-!
# The case of letters does not matter to directives

Two sources that differ only in the case of ASCII letters leave the same findings, whatever else is in
them: directives that are not well formed, letters that are not ASCII, bytes that are no text. Both are
compared with the source in small letters, and this one is read as they are, stage by stage.

* **Characters** (`fold_toLower`, `isListChar_toLower`): they are compared without regard to case, and lists
  of ids are made of the same characters in either case.
* **Directives** (`find?_map_toLower`): so the same directive is found in the same place, and its list of
  ids is as long as before and, in lower case, the same.
* **Lines** (`inLine?_map_lowerByte`): bytes can be written small before they are decoded.
-/

namespace LuaLint

namespace Directive

/-! ## Directives -/

theorem isListChar_toLower (c : Char) : isListChar c.toLower = isListChar c :=
  Text.toLower_congr (by decide) c

/-- A word is found alike. -/
theorem afterWord_map_toLower (word text : List Char) :
    afterWord word (text.map Char.toLower) = (afterWord word text).map (List.map Char.toLower) := by
  induction word generalizing text with
  | nil => rfl
  | cons w word ih =>
    cases text with
    | nil => rfl
    | cons c text =>
      rw [List.map_cons, afterWord, afterWord, fold_toLower]
      split
      · exact ih text
      · rfl

theorem skipBlanks_map_toLower (text : List Char) :
    skipBlanks (text.map Char.toLower) = (skipBlanks text).map Char.toLower :=
  Text.dropWhile_isBlank_map_toLower text

/-- A list of ids is found alike, and goes as far. -/
theorem list?_map_toLower (text : List Char) :
    list? (text.map Char.toLower) = (list? text).map (List.map Char.toLower) := by
  cases text with
  | nil => rfl
  | cons c text =>
    rw [List.map_cons]
    by_cases colon : c = ':'
    · have same : (':' : Char).toLower = ':' := by decide
      subst colon
      rw [same, list?, list?, skipBlanks_map_toLower]
      cases skipBlanks text with
      | nil => rfl
      | cons d ids =>
        have run : isListChar ∘ Char.toLower = isListChar := funext isListChar_toLower
        rw [List.map_cons]
        simp only [isIdChar_toLower]
        split
        · rw [← List.map_cons, List.takeWhile_map, run]
          rfl
        · rfl
    · have colon' : c.toLower ≠ ':' := mt (Text.toLower_eq_iff (by decide) c).mp colon
      rw [list?_of_ne colon, list?_of_ne colon']
      rfl

/-- **The ids in a list are the same.** -/
theorem idsOf_map_toLower (list : List Char) :
    RuleSet.idsOf (list.map Char.toLower) = RuleSet.idsOf list := by
  have comma : ∀ c : Char, c.toLower = ',' ↔ c = ',' := Text.toLower_eq_iff (by decide)
  have trimmed : Text.trim ∘ List.map Char.toLower = List.map Char.toLower ∘ Text.trim :=
    funext Text.trim_map_toLower
  have named : (fun id : List Char => !id.isEmpty) ∘ List.map Char.toLower = fun id => !id.isEmpty :=
    funext fun id => by cases id <;> rfl
  have lowered : (fun id => String.ofList (Text.lower id)) ∘ List.map Char.toLower =
      fun id => String.ofList (Text.lower id) :=
    funext fun id => congrArg String.ofList (Text.lower_map_toLower id)
  rw [RuleSet.idsOf, RuleSet.idsOf, Text.split_map comma, List.map_map, trimmed, ← List.map_map,
    List.filter_map, named, List.map_map, lowered]

theorem ofList_map_toLower (list : Option (List Char)) :
    RuleSet.ofList (list.map (List.map Char.toLower)) = RuleSet.ofList list := by
  cases list with
  | none => rfl
  | some list => rw [Option.map_some, RuleSet.ofList_some, RuleSet.ofList_some, idsOf_map_toLower]

theorem atFront?_map_toLower (scope : Scope) (text : List Char) :
    atFront? scope (text.map Char.toLower) = atFront? scope text := by
  unfold atFront?
  rw [afterWord_map_toLower]
  cases afterWord ['-', '-'] text with
  | none => rfl
  | some text =>
    simp only [Option.map_some, bind, Option.bind, skipBlanks_map_toLower, afterWord_map_toLower]
    cases afterWord "moonlint:".toList (skipBlanks text) with
    | none => rfl
    | some text =>
      simp only [Option.map_some, skipBlanks_map_toLower, afterWord_map_toLower]
      cases afterWord scope.keyword.toList (skipBlanks text) with
      | none => rfl
      | some text => simp only [Option.map_some, list?_map_toLower, ofList_map_toLower]

/-- **The same directive is found.** -/
theorem find?_map_toLower (scope : Scope) (text : List Char) :
    find? scope (text.map Char.toLower) = find? scope text := by
  induction text with
  | nil => rfl
  | cons c text ih =>
    have same := atFront?_map_toLower scope (c :: text)
    rw [List.map_cons] at same ⊢
    rw [find?, find?, same, ih]

/-! ## Lines -/

/-- **A line has the same directive in small letters.** -/
theorem inLine?_map_lowerByte (scope : Scope) (line : List UInt8) :
    inLine? scope (line.map Utf8.lowerByte) = inLine? scope line := by
  rw [inLine?, inLine?, Utf8.decodeLenient_map_lowerByte, find?_map_toLower]

end Directive

/-! ## Sources -/

/-- No letter is made into a line feed, or out of one. -/
theorem lowerByte_eq_lineFeed (b : UInt8) : Utf8.lowerByte b = Source.lineFeed ↔ b = Source.lineFeed := by
  unfold Utf8.lowerByte Source.lineFeed
  split
  · rename_i capital
    simp only [UInt8.le_iff_toNat_le, UInt8.toNat_ofNat] at capital
    simp only [← UInt8.toNat_inj, UInt8.toNat_add, UInt8.toNat_ofNat]
    omega
  · exact Iff.rfl

/-- The lines of a source in small letters. -/
theorem lines_map_lowerByte (source : List UInt8) :
    Source.lines (source.map Utf8.lowerByte) = (Source.lines source).map (List.map Utf8.lowerByte) :=
  Text.split_map lowerByte_eq_lineFeed source

/-- A source has the same suppressions in small letters. -/
theorem ofSource_map_lowerByte (source : List UInt8) :
    Suppressions.ofSource (source.map Utf8.lowerByte) = Suppressions.ofSource source := by
  refine ofSource_congr fun scope => ?_
  rw [lines_map_lowerByte, List.map_map]
  exact List.map_congr_left fun line _ => Directive.inLine?_map_lowerByte scope line

/-- An offset lies on the same line in small letters. -/
theorem position_line_map_lowerByte (source : List UInt8) (offset : Nat) :
    (Source.position (source.map Utf8.lowerByte) offset).line =
      (Source.position source offset).line := by
  have feeds : (· == Source.lineFeed) ∘ Utf8.lowerByte = (· == Source.lineFeed) := by
    funext b
    rw [Bool.eq_iff_iff, Function.comp_apply, beq_iff_eq, beq_iff_eq, lowerByte_eq_lineFeed]
  rw [Source.position_line, Source.position_line, ← List.map_take, List.count, List.countP_map, feeds]

/-- The same findings are dropped in small letters. -/
theorem dropped_map_lowerByte (source : List UInt8) (d : Diagnostic) :
    dropped (source.map Utf8.lowerByte) d = dropped source d := by
  rw [dropped, dropped, ofSource_map_lowerByte, position_line_map_lowerByte]

/-- **The case of letters does not matter.** Sources that differ only in the case of ASCII letters leave
the same of all findings, in their order and number. -/
theorem kept_of_letterCase {source other : List UInt8}
    (same : source.map Utf8.lowerByte = other.map Utf8.lowerByte) (found : List Diagnostic) :
    keptIndexes source found = keptIndexes other found ∧
      unsuppressed source found = unsuppressed other found := by
  have alike (d : Diagnostic) : dropped source d = dropped other d := by
    rw [← dropped_map_lowerByte source, same, dropped_map_lowerByte]
  rw [keptIndexes_eq, keptIndexes_eq, unsuppressed_eq_filter, unsuppressed_eq_filter]
  simp only [alike, and_self]

/-- A list with the sign for kelvin in it, read as `rk` in either case, and bytes that are no text. -/
theorem kept_of_letterCase_kelvin :
    let source := Utf8.encode "X --MoonLint: NOQA: R\u212A, B\nY" ++ [0xFF, 0x5A]
    let other := Utf8.encode "x --mooNlint: noqa: r\u212A, b\ny" ++ [0xFF, 0x7A]
    let found := [findingAt "rk" .error 0, findingAt "c" .error 0, findingAt "b" .error 5]
    source.map Utf8.lowerByte = other.map Utf8.lowerByte ∧ source ≠ other ∧
      keptIndexes source found = [1] ∧ keptIndexes other found = [1] := by
  intro source other found
  have same : source.map Utf8.lowerByte = other.map Utf8.lowerByte := by decide +kernel
  obtain ⟨indexes, -⟩ := kept_of_letterCase same found
  have kept : keptIndexes source found = [1] := by decide +kernel
  exact ⟨same, by decide +kernel, kept, indexes ▸ kept⟩

end LuaLint
