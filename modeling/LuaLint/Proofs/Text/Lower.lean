import LuaLint.Text.Blank
import LuaLint.Text.Lower

/-!
# ASCII in lower case, and trimmed

The tables of lower-case forms and of blanks, read for the characters that ids and keywords are made
of.

* **Small letters** (`capital_or_same`): a character is one of the 26 capitals of ASCII, which have small
  letters, or it stays as it is. So what is alike for each capital and its small letter is alike for every
  character and its small letter (`toLower_congr`).
* **Lower case** (`lower_of_ascii`): an ASCII text is lower-cased one character at a time, and only
  its capital letters change. All of the table but its first run is for other characters.
* **Trimming** (`trim_append`): blanks around a word that begins and ends with other characters are
  taken off, and nothing else is.
-/

namespace LuaLint.Text

/-- The character is one of the 128 of ASCII. -/
def Ascii (c : Char) : Prop := c.toNat < 128

instance (c : Char) : Decidable (Ascii c) := inferInstanceAs (Decidable (c.toNat < 128))

/-- A character whose ASCII lower case is ASCII is ASCII itself. -/
theorem Ascii.of_toLower {c : Char} (h : Ascii c.toLower) : Ascii c := by
  unfold Char.toLower at h
  split at h
  · rename_i capital
    have : c.toNat ≤ 90 := capital.2
    unfold Ascii
    omega
  · exact h

/-- Runs of characters that spell an ASCII word are ASCII. -/
theorem ascii_of_map_toLower {text word : List Char} (h : text.map Char.toLower = word)
    (ascii : ∀ c ∈ word, Ascii c) : ∀ c ∈ text, Ascii c := by
  intro c hc
  have lower : c.toLower ∈ word := h ▸ List.mem_map_of_mem hc
  exact Ascii.of_toLower (ascii _ lower)

/-! ## Small letters -/

/-- A capital is written small 32 places on. -/
theorem toLower_capital {k : Nat} (letter : k < 26) :
    (Char.ofNat (0x41 + k)).toLower = Char.ofNat (0x61 + k) := by
  revert k
  decide

/-- What is no capital stays. -/
theorem toLower_of_no_capital {c : Char} (other : ¬ (0x41 ≤ c.toNat ∧ c.toNat ≤ 0x5A)) : c.toLower = c :=
  dif_neg other

/-- **A character is one of the 26 capitals, or it stays.** -/
theorem capital_or_same (c : Char) : (∃ k < 26, c = Char.ofNat (0x41 + k)) ∨
    ¬ (0x41 ≤ c.toNat ∧ c.toNat ≤ 0x5A) ∧ c.toLower = c := by
  by_cases capital : 0x41 ≤ c.toNat ∧ c.toNat ≤ 0x5A
  · refine .inl ⟨c.toNat - 0x41, by omega, ?_⟩
    rw [Nat.add_sub_cancel' capital.1, Char.ofNat_toNat]
  · exact .inr ⟨capital, toLower_of_no_capital capital⟩

/-- **What is alike for the capitals and their small letters is alike for every character and its small
letter.** -/
theorem toLower_congr {α : Type} {f : Char → α}
    (letters : ∀ k < 26, f (Char.ofNat (0x61 + k)) = f (Char.ofNat (0x41 + k))) (c : Char) :
    f c.toLower = f c := by
  obtain ⟨k, letter, rfl⟩ | ⟨-, same⟩ := capital_or_same c
  · rw [toLower_capital letter, letters k letter]
  · rw [same]

theorem isBlank_toLower (c : Char) : isBlank c.toLower = isBlank c := toLower_congr (by decide) c

/-! ## Lower case -/

/-- A run has no form for what stands before it. -/
theorem LowerRun.image?_of_lt {r : LowerRun} {n : Nat} (before : n < r.first) : r.image? n = none := by
  simp [LowerRun.image?, Nat.not_le.mpr before]

/-- All runs but that of the capitals stand above ASCII. -/
theorem lowerRuns_above : (lowerRuns.tail.all fun r => Nat.ble 0x80 r.first) = true := by decide

/-- The table of lower-case forms has those of ASCII. -/
theorem lowerChar_of_ascii {c : Char} (h : Ascii c) : lowerChar c = c.toLower := by
  obtain ⟨k, letter, rfl⟩ | ⟨other, same⟩ := capital_or_same c
  · rw [toLower_capital letter]
    clear h
    revert k
    decide
  · have first : LowerRun.image? ⟨0x41, 0x5A, 1, 32⟩ c.toNat = none := by
      simp only [LowerRun.image?, Bool.and_eq_true, decide_eq_true_eq, ite_eq_right_iff]
      exact fun among => absurd among.1 other
    have later : lowerRuns.tail.findSome? (·.image? c.toNat) = none := by
      rw [List.findSome?_eq_none_iff]
      intro r hr
      have above := Nat.le_of_ble_eq_true (List.all_eq_true.mp lowerRuns_above r hr)
      exact LowerRun.image?_of_lt (Nat.lt_of_lt_of_le h above)
    have none : lowerRuns.findSome? (·.image? c.toNat) = none := by
      rw [show lowerRuns = ⟨0x41, 0x5A, 1, 32⟩ :: lowerRuns.tail from rfl, List.findSome?_cons, first]
      exact later
    rw [lowerChar, none, same]

/-- **An ASCII text is lower-cased one character at a time.** -/
theorem lower_of_ascii {text : List Char} (h : ∀ c ∈ text, Ascii c) :
    lower text = text.map Char.toLower := by
  have after : ∀ before, lowerAfter before text = text.map Char.toLower := by
    induction text with
    | nil => exact fun _ => rfl
    | cons c text ih =>
      intro before
      have hc : Ascii c := h c (by simp)
      have dotted : c ≠ 'İ' := by rintro rfl; exact absurd hc (by decide)
      have sigma : c ≠ 'Σ' := by rintro rfl; exact absurd hc (by decide)
      rw [lowerAfter.eq_4 _ _ _ dotted sigma, lowerChar_of_ascii hc,
        ih (fun d hd => h d (by simp [hd])), List.map_cons]
  exact after []

/-! ## Trimming -/

/-- Leading blanks are dropped up to a character that is none. -/
theorem dropWhile_blank {gap : List Char} (blank : ∀ c ∈ gap, isBlank c = true) {c : Char}
    (hc : isBlank c = false) (rest : List Char) :
    (gap ++ c :: rest).dropWhile isBlank = c :: rest := by
  rw [List.dropWhile_append_of_pos blank, List.dropWhile_cons_of_neg (by simp [hc])]

/-- **Blanks around a word are taken off**, and nothing else is. -/
theorem trim_append {before word after : List Char} (hb : ∀ c ∈ before, isBlank c = true)
    (ha : ∀ c ∈ after, isBlank c = true) (nonempty : word ≠ [])
    (hw : ∀ c ∈ word, isBlank c = false) : trim (before ++ word ++ after) = word := by
  obtain ⟨first, rest, hfirst⟩ := List.exists_cons_of_ne_nil nonempty
  have nonempty' : word.reverse ≠ [] := by simpa using nonempty
  obtain ⟨last, rest', hlast⟩ := List.exists_cons_of_ne_nil nonempty'
  have front : (before ++ word ++ after).dropWhile isBlank = word ++ after := by
    rw [List.append_assoc, hfirst, List.cons_append]
    exact dropWhile_blank hb (hw first (by simp [hfirst])) _
  have back : (after.reverse ++ word.reverse).dropWhile isBlank = word.reverse := by
    rw [hlast]
    refine dropWhile_blank (fun c hc => ha c (List.mem_reverse.mp hc)) (hw last ?_) _
    exact List.mem_reverse.mp (by simp [hlast])
  rw [trim, front, List.reverse_append, back, List.reverse_reverse]

/-- Blanks at the end of any text are taken off. -/
theorem trim_append_blank {gap : List Char} (blank : ∀ c ∈ gap, isBlank c = true) (text : List Char) :
    trim (text ++ gap) = trim text := by
  rw [trim, trim, List.dropWhile_append]
  split
  · rename_i none
    rw [List.isEmpty_iff.mp none, dropWhile_of_blank blank]
  · have back : ∀ c ∈ gap.reverse, isBlank c = true := fun c hc => blank c (List.mem_reverse.mp hc)
    rw [List.reverse_append, List.dropWhile_append_of_pos back]

end LuaLint.Text
