import LuaLint.Proofs.Suppression.Matching
import LuaLint.Proofs.Suppression.Verdict
import LuaLint.Proofs.Text.Utf8

/-!
# A directive means the ids that it is written with

The forms in which a directive with a list of ids may be written, and what such a directive does.

* **The form** (`Writes`): two dashes, the name, the keyword, a colon and the ids with commas between
  them. Letters are in any ASCII case, and blanks stand wherever they may.
* **The list** (`WritesList.idsOf`): a list that is written from some ids is read back as those ids.
* **The line** (`inLine?_of_writes`): in a line of any bytes, valid or not, the directive is found
  with those ids, if the tool is not mentioned before it and the list is not continued after it.
* **The effect** (`directive_decides`): a `noqa` drops a finding on its line exactly if the rule is
  named, and the last `disable-file` drops exactly the named rules for the file.
-/

namespace LuaLint.Directive

open Text (Ascii)

/-! ## Forms -/

/-- The text spells the word in letters of any ASCII case. -/
def Spells (text word : List Char) : Prop := text.map Char.toLower = word

instance (text word : List Char) : Decidable (Spells text word) :=
  inferInstanceAs (Decidable (text.map Char.toLower = word))

/-- The character may stand in an id: a small letter, a digit or an underscore. -/
def IsIdLetter (c : Char) : Prop := ('a' ≤ c ∧ c ≤ 'z') ∨ ('0' ≤ c ∧ c ≤ '9') ∨ c = '_'

instance (c : Char) : Decidable (IsIdLetter c) :=
  inferInstanceAs (Decidable (('a' ≤ c ∧ c ≤ 'z') ∨ ('0' ≤ c ∧ c ≤ '9') ∨ c = '_'))

/-- An id is not empty and made of such characters. -/
def IsId (id : String) : Prop := id.toList ≠ [] ∧ ∀ c ∈ id.toList, IsIdLetter c

instance (id : String) : Decidable (IsId id) :=
  decidable_of_iff (id.toList ≠ [] ∧ id.toList.all (fun c => decide (IsIdLetter c)) = true)
    (by simp [IsId])

/-- The text is the id in letters of any case, with blanks around it. -/
def WritesId (id : String) (text : List Char) : Prop :=
  ∃ before run after, text = before ++ run ++ after ∧ Blank before ∧ Spells run id.toList ∧
    Blank after

/-- The text is a list of the ids with commas between them. -/
inductive WritesList : List String → List Char → Prop
  | one {id text} : WritesId id text → WritesList [id] text
  | more {id ids text rest} :
      WritesId id text → WritesList ids rest → WritesList (id :: ids) (text ++ ',' :: rest)

/-- The text is a directive with a list of the ids. -/
def Writes (scope : Scope) (ids : List String) (text : List Char) : Prop :=
  ∃ gap name gap' keyword list,
    text = '-' :: '-' :: (gap ++ name ++ (gap' ++ keyword ++ ':' :: list)) ∧
    Blank gap ∧ Spells name "moonlint:".toList ∧ Blank gap' ∧
    Spells keyword scope.keyword.toList ∧ WritesList ids list

/-! ## Words in any case -/

/-- A word of ASCII characters without blanks, and not empty. -/
def Plain (word : List Char) : Prop := word ≠ [] ∧ ∀ c ∈ word, Ascii c ∧ Text.isBlank c = false

instance (word : List Char) : Decidable (Plain word) :=
  decidable_of_iff (word ≠ [] ∧ word.all (fun c => decide (Ascii c) && !Text.isBlank c) = true)
    (by simp [Plain])

variable {text word rest : List Char} {scope : Scope} {id : String} {ids : List String}

/-- A text that spells a word is ASCII. -/
theorem Spells.ascii (h : Spells text word) (plain : Plain word) : ∀ c ∈ text, Ascii c :=
  Text.ascii_of_map_toLower h fun c hc => (plain.2 c hc).1

/-- A text that spells a word has no blanks. -/
theorem Spells.isBlank_eq (h : Spells text word) (plain : Plain word) :
    ∀ c ∈ text, Text.isBlank c = false := by
  intro c hc
  have lower : c.toLower ∈ word := h ▸ List.mem_map_of_mem hc
  rw [← Text.isBlank_toLower]
  exact (plain.2 _ lower).2

/-- A text that spells a word is not empty. -/
theorem Spells.ne_nil (h : Spells text word) (plain : Plain word) : text ≠ [] := by
  rintro rfl
  exact plain.1 h.symm

/-- A text that spells a word is matched as that word. -/
theorem Spells.map_fold (h : Spells text word) (plain : Plain word) : text.map fold = word := by
  rw [← h]
  exact List.map_congr_left fun c hc => fold_of_ascii (h.ascii plain c hc)

/-- A word is matched after any gap. -/
theorem afterWord_skipBlanks {gap : List Char} (blank : Blank gap) (h : Spells text word)
    (plain : Plain word) (rest : List Char) :
    afterWord word (skipBlanks (gap ++ text ++ rest)) = some rest := by
  obtain ⟨c, tail, cut⟩ := List.exists_cons_of_ne_nil (h.ne_nil plain)
  have front : Text.isBlank c = false := h.isBlank_eq plain c (by simp [cut])
  rw [List.append_assoc, cut, List.cons_append, skipBlanks_append blank front,
    ← List.cons_append, ← cut]
  exact afterWord_append (h.map_fold plain) rest

/-! ## Ids -/

/-- The characters of ids are ASCII. -/
theorem IsIdLetter.ascii {c : Char} (h : IsIdLetter c) : Ascii c := by
  rcases h with ⟨-, h⟩ | ⟨-, h⟩ | rfl
  · exact Nat.lt_of_le_of_lt h (by decide)
  · exact Nat.lt_of_le_of_lt h (by decide)
  · decide

/-- The characters of ids are small. -/
theorem IsIdLetter.toLower_eq {c : Char} (h : IsIdLetter c) : c.toLower = c := by
  obtain ⟨k, letter, rfl⟩ | ⟨-, same⟩ := Text.capital_or_same c
  · have other : ∀ k < 26, ¬ IsIdLetter (Char.ofNat (0x41 + k)) := by decide
    exact absurd h (other k letter)
  · exact same

/-- No blank is a comma. -/
theorem ne_comma_of_isBlank {c : Char} (h : Text.isBlank c = true) : c ≠ ',' := by
  rintro rfl
  exact absurd h (by decide)

/-- No character of an id is a comma. -/
theorem IsIdLetter.ne_comma {c : Char} (h : IsIdLetter c) : c ≠ ',' := by
  rintro rfl
  exact absurd h (by decide)

/-- No character of an id is a blank. -/
theorem IsIdLetter.isBlank_eq {c : Char} (h : IsIdLetter c) : Text.isBlank c = false := by
  have number : (0x61 ≤ c.toNat ∧ c.toNat ≤ 0x7A) ∨ (0x30 ≤ c.toNat ∧ c.toNat ≤ 0x39) ∨ c.toNat = 0x5F :=
    h.imp_right (.imp_right (congrArg Char.toNat))
  simp only [Text.isBlank, Text.covers, Text.blankIntervals, List.any_cons, List.any_nil,
    Bool.or_eq_false_iff, Bool.and_eq_false_iff, decide_eq_false_iff_not, and_true]
  omega

/-- The characters of ids can begin a list. -/
theorem IsIdLetter.isIdChar_eq {c : Char} (h : IsIdLetter c) : isIdChar c = true := by
  unfold isIdChar
  rw [fold_of_ascii h.ascii, h.toLower_eq]
  simpa [IsIdLetter, or_assoc] using h

/-- In any case, the characters of ids can begin a list; they are neither blanks nor commas. -/
theorem IsIdLetter.of_toLower {c : Char} (h : IsIdLetter c.toLower) :
    isIdChar c = true ∧ Text.isBlank c = false ∧ c ≠ ',' := by
  refine ⟨?_, ?_, ?_⟩
  · rw [← isIdChar_toLower, h.isIdChar_eq]
  · rw [← Text.isBlank_toLower, h.isBlank_eq]
  · rintro rfl
    exact absurd h (by decide)

/-- An id is a plain word. -/
theorem IsId.plain (h : IsId id) : Plain id.toList :=
  ⟨h.1, fun c hc => ⟨(h.2 c hc).ascii, (h.2 c hc).isBlank_eq⟩⟩

/-- What spells an id is made of the characters that a list can begin with. -/
theorem Spells.of_isId (h : Spells text id.toList) (isId : IsId id) :
    ∀ c ∈ text, isIdChar c = true ∧ Text.isBlank c = false ∧ c ≠ ',' := by
  intro c hc
  have lower : c.toLower ∈ id.toList := h ▸ List.mem_map_of_mem hc
  exact (isId.2 _ lower).of_toLower

/-! ## Lists of ids -/

/-- The ids before a comma and those after it are read apart. -/
theorem idsOf_append (xs ys : List Char) :
    RuleSet.idsOf (xs ++ ',' :: ys) = RuleSet.idsOf xs ++ RuleSet.idsOf ys := by
  simp only [RuleSet.idsOf, Text.split_append, List.map_append, List.filter_append]

/-- What writes an id has no comma in it. -/
theorem WritesId.not_mem (h : WritesId id text) (isId : IsId id) : ',' ∉ text := by
  obtain ⟨before, run, after, rfl, hb, spells, ha⟩ := h
  simp only [List.mem_append, not_or]
  refine ⟨⟨fun comma => ?_, fun comma => ?_⟩, fun comma => ?_⟩
  · exact ne_comma_of_isBlank (hb _ comma) rfl
  · exact (spells.of_isId isId _ comma).2.2 rfl
  · exact ne_comma_of_isBlank (ha _ comma) rfl

/-- What writes an id is read as that id. -/
theorem WritesId.idsOf (h : WritesId id text) (isId : IsId id) : RuleSet.idsOf text = [id] := by
  have whole := Text.split_of_not_mem (h.not_mem isId)
  obtain ⟨before, run, after, rfl, hb, spells, ha⟩ := h
  have trimmed : Text.trim (before ++ run ++ after) = run :=
    Text.trim_append hb ha (spells.ne_nil isId.plain) (spells.isBlank_eq isId.plain)
  have lowered : Text.lower run = id.toList := by
    rw [Text.lower_of_ascii (spells.ascii isId.plain)]
    exact spells
  have nonempty : run.isEmpty = false := by
    simpa using spells.ne_nil isId.plain
  rw [RuleSet.idsOf, whole, List.map_singleton, trimmed]
  simp [nonempty, lowered]

/-- **A list is read back as the ids that it was written from.** -/
theorem WritesList.idsOf (h : WritesList ids text) (isId : ∀ id ∈ ids, IsId id) :
    RuleSet.idsOf text = ids := by
  induction h with
  | one entry => exact entry.idsOf (isId _ (by simp))
  | more entry _ ih =>
    rw [idsOf_append, entry.idsOf (isId _ (by simp)), ih fun id hid => isId id (by simp [hid])]
    rfl

/-- What writes an id has only list characters in it. -/
theorem WritesId.isListChar_eq (h : WritesId id text) (isId : IsId id) :
    ∀ c ∈ text, isListChar c = true := by
  obtain ⟨before, run, after, rfl, hb, spells, ha⟩ := h
  intro c hc
  rw [List.mem_append, List.mem_append] at hc
  rcases hc with (hc | hc) | hc
  · simp [isListChar, hb c hc]
  · simp [isListChar, (spells.of_isId isId c hc).1]
  · simp [isListChar, ha c hc]

/-- A list that is written from ids has only list characters in it. -/
theorem WritesList.isListChar_eq (h : WritesList ids text) (isId : ∀ id ∈ ids, IsId id) :
    ∀ c ∈ text, isListChar c = true := by
  induction h with
  | one entry => exact entry.isListChar_eq (isId _ (by simp))
  | more entry _ ih =>
    intro c hc
    rw [List.mem_append, List.mem_cons] at hc
    rcases hc with hc | rfl | hc
    · exact entry.isListChar_eq (isId _ (by simp)) c hc
    · rfl
    · exact ih (fun id hid => isId id (by simp [hid])) c hc

/-- What writes an id begins, after some blanks, like an id. -/
theorem WritesId.front (h : WritesId id text) (isId : IsId id) :
    ∃ gap c tail, text = gap ++ c :: tail ∧ Blank gap ∧ isIdChar c = true ∧
      Text.isBlank c = false ∧ WritesId id (c :: tail) := by
  obtain ⟨before, run, after, rfl, hb, spells, ha⟩ := h
  obtain ⟨c, tail, rfl⟩ := List.exists_cons_of_ne_nil (spells.ne_nil isId.plain)
  obtain ⟨first, solid, -⟩ := spells.of_isId isId c (by simp)
  refine ⟨before, c, tail ++ after, by simp, hb, first, solid, ?_⟩
  exact ⟨[], c :: tail, after, by simp, by simp [Blank], spells, ha⟩

/-- A list that is written from ids begins, after some blanks, like an id; the blanks do not matter. -/
theorem WritesList.front (h : WritesList ids text) (isId : ∀ id ∈ ids, IsId id) :
    ∃ gap c tail, text = gap ++ c :: tail ∧ Blank gap ∧ isIdChar c = true ∧
      Text.isBlank c = false ∧ WritesList ids (c :: tail) := by
  cases h with
  | one entry =>
    obtain ⟨gap, c, tail, cut, blank, first, solid, here⟩ := entry.front (isId _ (by simp))
    exact ⟨gap, c, tail, cut, blank, first, solid, .one here⟩
  | more entry others =>
    obtain ⟨gap, c, tail, rfl, blank, first, solid, here⟩ := entry.front (isId _ (by simp))
    exact ⟨gap, c, tail ++ ',' :: _, by simp, blank, first, solid, .more here others⟩

/-- A list that is written from ids names rules. -/
theorem WritesList.ofList (h : WritesList ids text) (isId : ∀ id ∈ ids, IsId id) :
    RuleSet.ofList (some text) = .only ids := by
  rw [RuleSet.ofList_some, h.idsOf isId]
  cases h <;> rfl

/-! ## Whole directives -/

/-- The name is a plain word. -/
theorem plain_name : Plain "moonlint:".toList := by decide

/-- The keywords are plain words. -/
theorem plain_keyword (scope : Scope) : Plain scope.keyword.toList := by
  cases scope <;> decide

/-- **A directive that is written from ids names those ids**, if the list is not continued. -/
theorem Writes.atFront?_eq (h : Writes scope ids text) (isId : ∀ id ∈ ids, IsId id)
    (ends : ∀ c ∈ rest.head?, isListChar c = false) :
    atFront? scope (text ++ rest) = some (.only ids) := by
  obtain ⟨gap, name, gap', keyword, list, rfl, blank, hname, blank', hkeyword, hlist⟩ := h
  obtain ⟨gap'', c, tail, rfl, blank'', first, solid, hlist⟩ := hlist.front isId
  have taken : list? (':' :: (gap'' ++ c :: tail) ++ rest) = some (c :: tail) :=
    list?_eq_some blank'' first solid
      (fun d hd => hlist.isListChar_eq isId d (List.mem_cons_of_mem c hd)) ends
  have cut : '-' :: '-' :: (gap ++ name ++ (gap' ++ keyword ++ ':' :: (gap'' ++ c :: tail))) ++ rest =
      ['-', '-'] ++ (gap ++ name ++ (gap' ++ keyword ++ (':' :: (gap'' ++ c :: tail) ++ rest))) := by
    simp
  have dashes : (['-', '-'] : List Char).map fold = ['-', '-'] := rfl
  simp only [atFront?, cut, afterWord_append dashes, bind, Option.bind,
    afterWord_skipBlanks blank hname plain_name,
    afterWord_skipBlanks blank' hkeyword (plain_keyword scope), taken, hlist.ofList isId]
  rfl

/-- A directive begins with two dashes. -/
theorem Writes.dashes (h : Writes scope ids text) : ∃ more, text = '-' :: '-' :: more := by
  obtain ⟨gap, name, gap', keyword, list, rfl, -⟩ := h
  exact ⟨_, rfl⟩

/-- **The directive is found in a line of any bytes.** -/
theorem inLine?_of_writes {front back : List UInt8} (written : Writes scope ids text)
    (isId : ∀ id ∈ ids, IsId id) (unnamed : ¬ Mentions (Utf8.decodeLenient front))
    (ends : ∀ c ∈ (Utf8.decodeLenient back).head?, isListChar c = false) :
    inLine? scope (front ++ Utf8.encode (String.ofList text) ++ back) = some (.only ids) := by
  have found := find?_of_atFront? (written.atFront?_eq isId ends)
  obtain ⟨more, rfl⟩ := written.dashes
  have dash : ∃ bytes, Utf8.encode (String.ofList ('-' :: '-' :: more)) = 0x2D :: bytes := by
    rw [Utf8.encode_ofList]
    exact ⟨_, rfl⟩
  obtain ⟨bytes, hbytes⟩ := dash
  have decoded : Utf8.decodeLenient
      (front ++ Utf8.encode (String.ofList ('-' :: '-' :: more)) ++ back) =
      Utf8.decodeLenient front ++ '-' :: '-' :: (more ++ Utf8.decodeLenient back) := by
    rw [List.append_assoc, hbytes, List.cons_append, Utf8.decodeLenient_append (by decide),
      ← List.cons_append, ← hbytes, Utf8.decodeLenient_encode]
    rfl
  rw [inLine?, decoded, find?_append unnamed]
  exact found

/-! ## Effect -/

/-- What is left after suppression is what is not dropped. -/
theorem mem_unsuppressed_iff {source : List UInt8} {found : List Diagnostic} {d : Diagnostic}
    (hd : d ∈ found) (inside : d.start ≤ source.length) :
    d ∈ unsuppressed source found ↔ ¬ DroppedForFile source d.ruleId ∧ ¬ DroppedOnLine source d := by
  rw [mem_unsuppressed_iff_not_dropped hd, dropped_iff inside, not_or]

/-- A directive about a line decides for what starts on it. -/
theorem droppedOnLine_iff {source line : List UInt8} {k : Nat} {d : Diagnostic}
    (at_k : (Source.lines source)[k]? = some line) (on : Source.OnLine source k d.start)
    (here : inLine? .line line = some (.only ids)) : DroppedOnLine source d ↔ d.ruleId ∈ ids := by
  constructor
  · rintro ⟨j, line', rules, at_j, on_j, here', means⟩
    obtain rfl : j = k :=
      ((Source.onLine_iff on.le j).mp on_j).symm.trans ((Source.onLine_iff on.le k).mp on)
    obtain rfl : line' = line := Option.some.inj (at_j.symm.trans at_k)
    obtain rfl : rules = .only ids := Option.some.inj (here'.symm.trans here)
    simpa [RuleSet.Means] using means
  · intro named
    exact ⟨k, line, .only ids, at_k, on, here, Or.inr ⟨ids, rfl, named⟩⟩

/-- The last directive about the file decides for all of it. -/
theorem droppedForFile_iff {source line : List UInt8} {k : Nat} (ruleId : String)
    (at_k : (Source.lines source)[k]? = some line)
    (last : ∀ other ∈ (Source.lines source).drop (k + 1), inLine? .file other = none)
    (here : inLine? .file line = some (.only ids)) : DroppedForFile source ruleId ↔ ruleId ∈ ids := by
  obtain ⟨bound, rfl⟩ := List.getElem?_eq_some_iff.mp at_k
  have decides : (Suppressions.ofSource source).file = some (.only ids) := by
    refine (ofSource_file_eq_some_iff source _).mpr
      ⟨(Source.lines source).take k, _, _, ?_, here, last⟩
    rw [← List.drop_eq_getElem_cons bound, List.take_append_drop]
  rw [← any_file_covers_iff, decides]
  simp [RuleSet.covers]

/-- **A directive drops the rules that it is written with, and no others.** The bytes before it do not
mention the tool, and what comes after it does not continue the list. A `noqa` drops what starts on
its line and is not dropped for the file exactly if the rule is named. A `disable-file` with no other
after it drops the named rules wherever they start, and for the file no other rule is dropped. -/
theorem directive_decides {front back : List UInt8} (isId : ∀ id ∈ ids, IsId id)
    (written : Writes scope ids text) (unnamed : ¬ Mentions (Utf8.decodeLenient front))
    (ends : ∀ c ∈ (Utf8.decodeLenient back).head?, isListChar c = false) :
    let line := front ++ Utf8.encode (String.ofList text) ++ back
    inLine? scope line = some (.only ids) ∧
    ∀ source k, (Source.lines source)[k]? = some line → ∀ found, ∀ d ∈ found,
      (scope = .line → Source.OnLine source k d.start → ¬ DroppedForFile source d.ruleId →
        (d ∉ unsuppressed source found ↔ d.ruleId ∈ ids)) ∧
      (scope = .file →
        (∀ other ∈ (Source.lines source).drop (k + 1), inLine? .file other = none) →
        (DroppedForFile source d.ruleId ↔ d.ruleId ∈ ids) ∧
        (d.ruleId ∈ ids → d ∉ unsuppressed source found) ∧
        (d.ruleId ∉ ids → d.start ≤ source.length →
          (d ∉ unsuppressed source found ↔ DroppedOnLine source d))) := by
  intro line
  have here : inLine? scope line = some (.only ids) :=
    inLine?_of_writes written isId unnamed ends
  refine ⟨here, fun source k at_k found d hd => ⟨?_, ?_⟩⟩
  · rintro rfl on kept
    rw [mem_unsuppressed_iff hd on.le, droppedOnLine_iff at_k on here]
    simp [kept]
  · rintro rfl last
    have file := droppedForFile_iff d.ruleId at_k last here
    refine ⟨file, fun named left => ?_, fun unnamed inside => ?_⟩
    · rw [unsuppressed_eq_filter, List.mem_filter] at left
      have gone : dropped source d = true := by
        rw [dropped, Suppressions.drops, (any_file_covers_iff source d.ruleId).mpr (file.mpr named)]
        rfl
      simp [gone] at left
    · rw [mem_unsuppressed_iff hd inside, file]
      simp [unnamed]

/-- Bytes that are no text stand before the directive, and blanks that are not ASCII in it. -/
theorem directive_decides_any_case :
    let line := [0x78, 0xFF, 0xE2, 0x82] ++
      Utf8.encode "--\u00A0MoonLint:\u3000NoQA:\u2003R1 ,\ta_2 " ++ Utf8.encode "!"
    let source := 0x0A :: line
    let found := [findingAt "a_2" .error 3, findingAt "a_3" .error 3]
    inLine? .line line = some (.only ["r1", "a_2"]) ∧
      findingAt "a_2" .error 3 ∉ unsuppressed source found ∧
      findingAt "a_3" .error 3 ∈ unsuppressed source found := by
  intro line source found
  have isId : ∀ id ∈ ["r1", "a_2"], IsId id := by decide
  have list : WritesList ["r1", "a_2"] "\u2003R1 ,\ta_2 ".toList :=
    .more ⟨['\u2003'], ['R', '1'], [' '], rfl, by decide, by decide, by decide⟩
      (.one ⟨['\t'], ['a', '_', '2'], [' '], rfl, by decide, by decide, by decide⟩)
  have written : Writes .line ["r1", "a_2"]
      "--\u00A0MoonLint:\u3000NoQA:\u2003R1 ,\ta_2 ".toList :=
    ⟨['\u00A0'], "MoonLint:".toList, ['\u3000'], "NoQA".toList, _, rfl, by decide, by decide,
      by decide, by decide, list⟩
  have unnamed : ¬ Mentions (Utf8.decodeLenient [0x78, 0xFF, 0xE2, 0x82]) := by
    rintro ⟨before, name, after, cut, folds⟩
    have short : (Utf8.decodeLenient [0x78, 0xFF, 0xE2, 0x82]).length = 3 := by decide +kernel
    have long : name.length = 8 := by simpa using congrArg List.length folds
    rw [cut, List.length_append, List.length_append] at short
    omega
  have ends : ∀ c ∈ (Utf8.decodeLenient (Utf8.encode "!")).head?, isListChar c = false := by
    have decoded : Utf8.decodeLenient (Utf8.encode "!") = ['!'] := by decide +kernel
    rw [decoded]
    rintro c ⟨⟩
    decide
  obtain ⟨here, effect⟩ := directive_decides isId written unnamed ends
  have on : Source.OnLine source 1 3 := (Source.onLine_iff (by decide +kernel) 1).mpr (by decide)
  have kept : ∀ ruleId, ¬ DroppedForFile source ruleId := fun ruleId h => by
    have none_here : (Suppressions.ofSource source).file = none := by decide +kernel
    rw [← any_file_covers_iff, none_here] at h
    cases h
  have verdict := effect source 1 (by decide +kernel) found
  have named := (verdict (findingAt "a_2" .error 3) (by simp [found])).1 rfl on (kept _)
  have other := (verdict (findingAt "a_3" .error 3) (by simp [found])).1 rfl on (kept _)
  refine ⟨here, named.mpr (by decide), Decidable.of_not_not fun gone => ?_⟩
  exact absurd (other.mp gone) (by decide)

end LuaLint.Directive
