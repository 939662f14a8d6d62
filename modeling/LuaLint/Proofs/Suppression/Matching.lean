import LuaLint.Proofs.Text.Lower
import LuaLint.Suppression.Directive

/-!
# Where a directive is found

A search for a directive tries one place of a text after the other. What stands in front of a
directive is passed over if it does not mention the tool by name.

* **Characters** (`fold_cases`): a capital is compared as its small letter, four letters outside ASCII as
  small letters of ASCII, and every other character as itself.
* **Words** (`afterWord_eq_some_iff`): a word is matched exactly where a run of characters folds to it.
* **Blanks** (`skipBlanks_append`): a gap is skipped up to the first character that is no blank.
* **Lists** (`list?_eq_some`): after a colon the longest run of list characters is taken.
* **The search** (`find?_append`): a text that does not mention the tool holds no directive, and none
  begins in it and ends in what follows, if what follows begins with two dashes of its own.
-/

namespace LuaLint.Directive

/-- Every character of the text is a blank. -/
def Blank (text : List Char) : Prop := ∀ c ∈ text, Text.isBlank c = true

instance (text : List Char) : Decidable (Blank text) :=
  decidable_of_iff (text.all Text.isBlank = true) List.all_eq_true

/-- The text has the name of the tool in it, letters compared as directives compare them. -/
def Mentions (text : List Char) : Prop :=
  ∃ before name after, text = before ++ name ++ after ∧ name.map fold = "moonlint".toList

/-! ## Characters -/

/-- The letters outside ASCII that are compared as letters of ASCII. -/
def strayLetters : List Char := ['\u0130', '\u0131', '\u017f', '\u212a']

/-- What is checked of these letters holds of each of them. -/
theorem of_mem_strayLetters {p : Char → Prop} [DecidablePred p]
    (checked : (strayLetters.all fun d => decide (p d)) = true) {c : Char} (stray : c ∈ strayLetters) :
    p c :=
  of_decide_eq_true (List.all_eq_true.mp checked c stray)

/-- **What a character is compared as.** -/
theorem fold_cases (c : Char) :
    (∃ k < 26, c = Char.ofNat (0x41 + k) ∧ fold c = Char.ofNat (0x61 + k)) ∨
      c ∈ strayLetters ∨ c.toLower = c ∧ fold c = c := by
  obtain ⟨k, letter, rfl⟩ | ⟨other, same⟩ := Text.capital_or_same c
  · refine .inl ⟨k, letter, rfl, ?_⟩
    revert k
    decide
  · have no_capital : ¬ ('A' ≤ c && c ≤ 'Z') = true := by
      rw [Bool.and_eq_true, decide_eq_true_eq, decide_eq_true_eq]
      exact other
    have folded : c ∈ strayLetters ∨ fold c = c := by
      unfold fold
      rw [if_neg no_capital]
      split <;> simp [strayLetters]
    exact .inr (folded.imp_right fun fixed => ⟨same, fixed⟩)

/-- Capital letters are compared as the small ones, and no other ASCII character changes. -/
theorem fold_of_ascii {c : Char} (h : Text.Ascii c) : fold c = c.toLower := by
  obtain ⟨k, letter, rfl, folded⟩ | stray | ⟨same, fixed⟩ := fold_cases c
  · rw [folded, Text.toLower_capital letter]
  · exact absurd h (of_mem_strayLetters (p := fun d => ¬ Text.Ascii d) (by decide) stray)
  · rw [fixed, same]

/-- A blank is compared as itself. -/
theorem fold_of_blank {c : Char} (h : Text.isBlank c = true) : fold c = c := by
  obtain ⟨k, letter, rfl, -⟩ | stray | ⟨-, fixed⟩ := fold_cases c
  · have solid : ∀ k < 26, Text.isBlank (Char.ofNat (0x41 + k)) = false := by decide
    rw [solid k letter] at h
    cases h
  · have solid := of_mem_strayLetters (p := fun d => Text.isBlank d = false) (by decide) stray
    rw [solid] at h
    cases h
  · exact fixed

/-- No other character is compared as a dash. -/
theorem eq_dash_of_fold {c : Char} (h : fold c = '-') : c = '-' := by
  obtain ⟨k, letter, rfl, folded⟩ | stray | ⟨-, fixed⟩ := fold_cases c
  · have small : ∀ k < 26, Char.ofNat (0x61 + k) ≠ '-' := by decide
    exact absurd (folded.symm.trans h) (small k letter)
  · exact absurd h (of_mem_strayLetters (p := fun d => fold d ≠ '-') (by decide) stray)
  · exact fixed.symm.trans h

theorem fold_toLower (c : Char) : fold c.toLower = fold c := Text.toLower_congr (by decide) c

theorem isIdChar_toLower (c : Char) : isIdChar c.toLower = isIdChar c :=
  Text.toLower_congr (by decide) c

/-! ## Words and blanks -/

/-- **A word is matched exactly where a run of characters folds to it.** -/
theorem afterWord_eq_some_iff (word text rest : List Char) :
    afterWord word text = some rest ↔ ∃ run, text = run ++ rest ∧ run.map fold = word := by
  induction word generalizing text with
  | nil => simp [afterWord, eq_comm]
  | cons w word ih =>
    cases text with
    | nil => simp [afterWord]
    | cons c text =>
      rw [afterWord]
      constructor
      · intro h
        split at h
        · rename_i same
          obtain ⟨run, rfl, folds⟩ := (ih text).mp h
          exact ⟨c :: run, rfl, by rw [List.map_cons, same, folds]⟩
        · cases h
      · rintro ⟨run, split, folds⟩
        cases run with
        | nil => cases folds
        | cons d run =>
          obtain ⟨rfl, rfl⟩ := List.cons.inj split
          rw [List.map_cons] at folds
          obtain ⟨rfl, rfl⟩ := List.cons.inj folds
          rw [if_pos rfl]
          exact (ih _).mpr ⟨run, rfl, rfl⟩

/-- A run that folds to a word is passed over as that word. -/
theorem afterWord_append {word run : List Char} (h : run.map fold = word) (rest : List Char) :
    afterWord word (run ++ rest) = some rest :=
  (afterWord_eq_some_iff word _ rest).mpr ⟨run, rfl, h⟩

/-- A gap is skipped up to the first character that is no blank. -/
theorem skipBlanks_append {gap : List Char} (h : Blank gap) {c : Char}
    (hc : Text.isBlank c = false) (rest : List Char) :
    skipBlanks (gap ++ c :: rest) = c :: rest :=
  Text.dropWhile_blank h hc rest

/-- Skipping blanks does not go past a character that is none. -/
theorem skipBlanks_append_cons (text : List Char) {c : Char} (hc : Text.isBlank c = false)
    (rest : List Char) : skipBlanks (text ++ c :: rest) = skipBlanks text ++ c :: rest := by
  induction text with
  | nil => simp [skipBlanks, List.dropWhile_cons_of_neg, hc]
  | cons d text ih =>
    by_cases hd : Text.isBlank d = true
    · simpa [skipBlanks, List.dropWhile_cons_of_pos hd] using ih
    · simp [skipBlanks, List.dropWhile_cons_of_neg hd]

/-! ## Lists -/

/-- **The longest run of list characters is taken**, if it begins like an id. -/
theorem list?_eq_some {gap list rest : List Char} {c : Char} (blank : Blank gap)
    (first : isIdChar c = true) (firstBlank : Text.isBlank c = false)
    (inList : ∀ d ∈ list, isListChar d = true) (ends : ∀ d ∈ rest.head?, isListChar d = false) :
    list? (':' :: (gap ++ c :: list) ++ rest) = some (c :: list) := by
  have start : isListChar c = true := by simp [isListChar, first]
  have stop : rest.takeWhile isListChar = [] := by
    cases rest with
    | nil => rfl
    | cons d rest => exact List.takeWhile_cons_of_neg (by simp [ends d rfl])
  have run : (c :: list ++ rest).takeWhile isListChar = c :: list := by
    rw [List.takeWhile_append_of_pos (fun d hd => ?_), stop, List.append_nil]
    rcases List.mem_cons.mp hd with rfl | hd
    · exact start
    · exact inList d hd
  rw [List.cons_append, List.append_assoc, List.cons_append, list?,
    skipBlanks_append blank firstBlank]
  simp only [first, if_true]
  rw [← List.cons_append, run]

/-- A list of ids is announced by a colon. -/
theorem list?_of_ne {c : Char} (h : c ≠ ':') (text : List Char) : list? (c :: text) = none := by
  unfold list?
  split
  · rename_i colon
    exact absurd (List.cons.inj colon).1 h
  · rfl

/-! ## The search -/

/-- A part of a text mentions the tool only if the text does. -/
theorem Mentions.of_append {text before after : List Char} (h : Mentions text) :
    Mentions (before ++ text ++ after) := by
  obtain ⟨b, name, a, rfl, folds⟩ := h
  exact ⟨before ++ b, name, a ++ after, by simp, folds⟩

/-- No name is matched that reaches over a dash. -/
theorem afterWord_name_eq_none {text : List Char} (h : ¬ Mentions text) (rest : List Char) :
    afterWord "moonlint:".toList (text ++ '-' :: rest) = none := by
  cases matched : afterWord "moonlint:".toList (text ++ '-' :: rest) with
  | none => rfl
  | some after =>
    exfalso
    obtain ⟨run, cut, folds⟩ := (afterWord_eq_some_iff _ _ _).mp matched
    have dashless : '-' ∉ run := fun dash => by
      have : fold '-' ∈ run.map fold := List.mem_map_of_mem dash
      rw [folds] at this
      exact absurd this (by decide)
    -- the dash after the text is not in the run, so the run lies in the text
    have inText : ∃ tail, text = run ++ tail := by
      rcases List.append_eq_append_iff.mp cut with ⟨more, rfl, dash⟩ | ⟨tail, here, -⟩
      · cases more with
        | nil => exact ⟨[], by simp⟩
        | cons d more =>
          obtain ⟨rfl, -⟩ := List.cons.inj dash
          exact absurd (by simp) dashless
      · exact ⟨tail, here⟩
    obtain ⟨tail, rfl⟩ := inText
    refine h ⟨[], run.take 8, run.drop 8 ++ tail, ?_, ?_⟩
    · rw [List.nil_append, ← List.append_assoc, List.take_append_drop]
    · rw [List.map_take, folds]
      rfl

/-- **No directive begins in a text that does not mention the tool**, if two dashes follow. -/
theorem atFront?_append_eq_none {scope : Scope} {text : List Char} (nonempty : text ≠ [])
    (h : ¬ Mentions text) (rest : List Char) :
    atFront? scope (text ++ '-' :: '-' :: rest) = none := by
  have unnamed : ∀ part, (∃ before, text = before ++ part) → ∀ more,
      afterWord "moonlint:".toList (skipBlanks (part ++ '-' :: more)) = none := by
    rintro part ⟨before, rfl⟩ more
    rw [skipBlanks_append_cons part (by decide) more]
    refine afterWord_name_eq_none (fun mentioned => h ?_) more
    have cut : before ++ part = (before ++ part.takeWhile Text.isBlank) ++ skipBlanks part ++ [] := by
      rw [List.append_nil, List.append_assoc, skipBlanks, List.takeWhile_append_dropWhile]
    rw [cut]
    exact mentioned.of_append
  unfold atFront?
  cases dashes : afterWord ['-', '-'] (text ++ '-' :: '-' :: rest) with
  | none => rfl
  | some after =>
    -- the match took two characters; what is left still begins with a part of the text
    have left : ∃ part more, (∃ before, text = before ++ part) ∧ after = part ++ '-' :: more := by
      obtain ⟨run, cut, folds⟩ := (afterWord_eq_some_iff _ _ _).mp dashes
      have two : run.length = 2 := by simpa using congrArg List.length folds
      match text, nonempty with
      | [x], _ =>
        have : '-' :: rest = after := by
          simpa [two] using congrArg (List.drop 2) cut
        exact ⟨[], rest, ⟨[x], by simp⟩, this.symm⟩
      | x :: y :: part, _ =>
        have : part ++ '-' :: '-' :: rest = after := by
          simpa [two] using congrArg (List.drop 2) cut
        exact ⟨part, '-' :: rest, ⟨[x, y], by simp⟩, this.symm⟩
    obtain ⟨part, more, inText, rfl⟩ := left
    simp only [bind, Option.bind, unnamed part inText more]

/-- **What does not mention the tool is passed over** in front of a directive. -/
theorem find?_append {scope : Scope} {text : List Char} (h : ¬ Mentions text) (rest : List Char) :
    find? scope (text ++ '-' :: '-' :: rest) = find? scope ('-' :: '-' :: rest) := by
  induction text with
  | nil => rfl
  | cons c text ih =>
    have later : ¬ Mentions text := fun mentioned => h <| by
      have whole : Mentions ([c] ++ text ++ []) := mentioned.of_append
      rwa [List.append_nil] at whole
    have none_here : atFront? scope (c :: text ++ '-' :: '-' :: rest) = none :=
      atFront?_append_eq_none (List.cons_ne_nil c text) h rest
    rw [List.cons_append] at none_here ⊢
    rw [find?, none_here]
    exact ih later

/-- A directive at the front is found. -/
theorem find?_of_atFront? {scope : Scope} {text : List Char} {rules : RuleSet}
    (h : atFront? scope text = some rules) : find? scope text = some rules := by
  cases text with
  | nil => simp [atFront?, afterWord] at h
  | cons c text => rw [find?, h]

end LuaLint.Directive
