import LuaLint.Proofs.Text.Lower
import LuaLint.Proofs.Text.StrictUtf8

/-!
# Texts in small letters

Writing a text in small letters changes its ASCII capitals and nothing else. What reads the text without
regard to case reads the same afterwards, and this is shown here stage by stage: each stage commutes with
the change, or does not see it.

* **Characters** (`toLower_eq_iff`, `covers_toLower`): a character that is no letter is made neither into one
  nor out of one, and a class of characters that has a capital has its small letter too.
* **Trimming and lower case** (`trim_map_toLower`, `lower_map_toLower`): the first commutes with the
  change. The second does not see it, as the small letters of ASCII are letters with case like the
  capitals, so that words end in the same places.
* **Bytes** (`Utf8.decodeLenient_map_lowerByte`): in UTF-8 the bytes of ASCII letters stand for these
  letters and nothing else, also in bytes that are no text. So the bytes of capitals can be changed before
  decoding.
-/

namespace LuaLint.Text

/-! ## Characters -/

/-- Other characters than those of ASCII stay. -/
theorem toLower_of_not_ascii {c : Char} (h : ¬ Ascii c) : c.toLower = c := by
  refine toLower_of_no_capital fun capital => h ?_
  unfold Ascii
  omega

/-- No letter of ASCII is made into a character that is none, or out of it. -/
theorem toLower_eq_iff {d : Char} (other : d.isAlpha = false) (c : Char) : c.toLower = d ↔ c = d := by
  have letters : ∀ k < 26, (Char.ofNat (0x61 + k)).isAlpha = true ∧ (Char.ofNat (0x41 + k)).isAlpha = true := by
    decide
  obtain ⟨k, letter, rfl⟩ | ⟨-, same⟩ := capital_or_same c
  · obtain ⟨small, capital⟩ := letters k letter
    rw [toLower_capital letter]
    constructor <;> rintro rfl
    · rw [other] at small
      cases small
    · rw [other] at capital
      cases capital
  · rw [same]

/-- Only the intervals that begin low enough cover a low number. -/
theorem covers_of_lt {m n : Nat} (low : n < m) (intervals : List (Nat × Nat)) :
    covers (intervals.filter fun r => decide (r.1 < m)) n = covers intervals n := by
  unfold covers
  rw [List.any_filter]
  congr 1
  funext r
  by_cases begins : r.1 < m
  · simp only [begins, decide_true, Bool.true_and]
  · have above : ¬ r.1 ≤ n := fun le => begins (Nat.lt_of_le_of_lt le low)
    simp only [begins, above, decide_false, Bool.false_and]

/-- What intervals cover of ASCII decides whether they cover capitals and small letters alike. -/
theorem covers_toLower {intervals few : List (Nat × Nat)}
    (table : intervals.filter (fun r => decide (r.1 < 128)) = few)
    (alike : ∀ k < 26, covers few (0x61 + k) = covers few (0x41 + k)) (c : Char) :
    covers intervals c.toLower.toNat = covers intervals c.toNat := by
  refine toLower_congr (f := fun c => covers intervals c.toNat) (fun k letter => ?_) c
  have numbers : ∀ k < 26, (Char.ofNat (0x61 + k)).toNat = 0x61 + k ∧
      (Char.ofNat (0x41 + k)).toNat = 0x41 + k := by decide
  rw [(numbers k letter).1, (numbers k letter).2, ← covers_of_lt (m := 128) (by omega),
    ← covers_of_lt (m := 128) (n := 0x41 + k) (by omega), table, alike k letter]

/-! ## Trimming and lower case -/

/-- Blanks are dropped alike. -/
theorem dropWhile_isBlank_map_toLower (text : List Char) :
    (text.map Char.toLower).dropWhile isBlank = (text.dropWhile isBlank).map Char.toLower := by
  rw [List.dropWhile_map]
  congr 2
  exact funext isBlank_toLower

/-- **Trimming commutes with small letters.** -/
theorem trim_map_toLower (text : List Char) :
    trim (text.map Char.toLower) = (trim text).map Char.toLower := by
  rw [trim, trim, dropWhile_isBlank_map_toLower, ← List.map_reverse, dropWhile_isBlank_map_toLower,
    ← List.map_reverse]

theorem lowerChar_toLower (c : Char) : lowerChar c.toLower = lowerChar c := by
  have letters : ∀ k < 26, Ascii (Char.ofNat (0x61 + k)) ∧ Ascii (Char.ofNat (0x41 + k)) ∧
      (Char.ofNat (0x61 + k)).toLower = (Char.ofNat (0x41 + k)).toLower := by decide
  refine toLower_congr (fun k letter => ?_) c
  obtain ⟨small, capital, same⟩ := letters k letter
  rw [lowerChar_of_ascii small, lowerChar_of_ascii capital, same]

/-- The characters of ASCII that are passed over in telling where a word ends. -/
theorem caseIgnorable_ascii : caseIgnorableIntervals.filter (fun r => decide (r.1 < 128)) =
    [(0x27, 0x27), (0x2E, 0x2E), (0x3A, 0x3A), (0x5E, 0x5E), (0x60, 0x60)] := by
  decide

/-- The letters of ASCII. -/
theorem cased_ascii : casedIntervals.filter (fun r => decide (r.1 < 128)) = [(0x41, 0x5A), (0x61, 0x7A)] := by
  decide

/-- A letter with case is met alike. -/
theorem meetsCased_map_toLower (text : List Char) :
    meetsCased (text.map Char.toLower) = meetsCased text := by
  have ignorable : (fun c : Char => covers caseIgnorableIntervals c.toNat) ∘ Char.toLower =
      fun c => covers caseIgnorableIntervals c.toNat :=
    funext (covers_toLower caseIgnorable_ascii (by decide))
  rw [meetsCased, meetsCased, List.dropWhile_map, ignorable]
  cases text.dropWhile fun c => covers caseIgnorableIntervals c.toNat with
  | nil => rfl
  | cons c rest =>
    exact covers_toLower cased_ascii (by decide) c

theorem lowerAfter_map_toLower (before text : List Char) :
    lowerAfter (before.map Char.toLower) (text.map Char.toLower) = lowerAfter before text := by
  fun_induction lowerAfter before text with
  | case1 => rfl
  | case2 before rest ih => exact congrArg ('i' :: '\u0307' :: ·) ih
  | case3 before rest ih =>
    have sigma : ('Σ' : Char).toLower = 'Σ' := by decide
    rw [List.map_cons, sigma, lowerAfter, meetsCased_map_toLower, meetsCased_map_toLower]
    exact congrArg _ ih
  | case4 before c rest dotted sigma ih =>
    have dotted' : c.toLower ≠ 'İ' := mt (toLower_eq_iff (by decide) c).mp dotted
    have sigma' : c.toLower ≠ 'Σ' := mt (toLower_eq_iff (by decide) c).mp sigma
    rw [List.map_cons, lowerAfter.eq_4 _ _ _ dotted' sigma', lowerChar_toLower]
    exact congrArg _ ih

/-- **Lower case does not see whether small letters were there before.** -/
theorem lower_map_toLower (text : List Char) : lower (text.map Char.toLower) = lower text :=
  lowerAfter_map_toLower [] text

end LuaLint.Text

namespace LuaLint.Utf8

/-! ## Bytes -/

/-- The byte of the small letter for that of an ASCII capital, and every other byte itself. -/
def lowerByte (b : UInt8) : UInt8 := if 0x41 ≤ b ∧ b ≤ 0x5A then b + 0x20 else b

/-- Bytes above ASCII stay. -/
theorem lowerByte_of_high {b : UInt8} (h : 0x80 ≤ b) : lowerByte b = b := by
  refine if_neg fun capital => ?_
  have low := UInt8.le_iff_toNat_le.mp capital.2
  have high := UInt8.le_iff_toNat_le.mp h
  exact absurd (Nat.le_trans high low) (by decide)

/-- The bytes of ASCII stay among themselves. -/
theorem lowerByte_low {b : UInt8} (h : b.toNat < 0x80) :
    (lowerByte b).toNat < 0x80 ∧ Char.ofNat (lowerByte b).toNat = (Char.ofNat b.toNat).toLower := by
  have numbers : 0x41 ≤ b ∧ b ≤ 0x5A ↔ 0x41 ≤ b.toNat ∧ b.toNat ≤ 0x5A := by
    rw [UInt8.le_iff_toNat_le, UInt8.le_iff_toNat_le]
    rfl
  by_cases capital : 0x41 ≤ b.toNat ∧ b.toNat ≤ 0x5A
  · have moved : (lowerByte b).toNat = b.toNat + 0x20 := by
      rw [lowerByte, if_pos (numbers.mpr capital), UInt8.toNat_add]
      exact Nat.mod_eq_of_lt (Nat.lt_of_le_of_lt (Nat.add_le_add_right capital.2 0x20) (by decide))
    have letter := Text.toLower_capital (show b.toNat - 0x41 < 26 by omega)
    rw [Nat.add_sub_cancel' capital.1] at letter
    rw [moved, letter]
    exact ⟨by omega, congrArg Char.ofNat (by omega)⟩
  · have same : lowerByte b = b := if_neg (mt numbers.mp capital)
    have number : (Char.ofNat b.toNat).toNat = b.toNat := toNat_val_ofNat (by omega)
    rw [same, Text.toLower_of_no_capital (by rwa [number])]
    exact ⟨h, rfl⟩

variable {ranges : List (UInt8 × UInt8)} (low : ∀ r ∈ ranges, 0x80 ≤ r.1)

include low in
/-- Continuation bytes are above ASCII, and so small letters do not touch them. -/
theorem matching_map_lowerByte (bytes : List UInt8) :
    matching ranges (bytes.map lowerByte) = matching ranges bytes ∧
      (bytes.map lowerByte).take (matching ranges bytes) = bytes.take (matching ranges bytes) := by
  induction ranges generalizing bytes with
  | nil => simp [matching]
  | cons r ranges ih =>
    cases bytes with
    | nil => exact ⟨rfl, rfl⟩
    | cons b bytes =>
      obtain ⟨same, taken⟩ := ih (fun r hr => low r (List.mem_cons_of_mem _ hr)) bytes
      by_cases high : 0x80 ≤ b
      · rw [List.map_cons, lowerByte_of_high high]
        rw [matching, matching, same]
        split
        · exact ⟨rfl, congrArg (b :: ·) taken⟩
        · exact ⟨rfl, rfl⟩
      · have small : b.toNat < 0x80 := by
          rw [UInt8.le_iff_toNat_le] at high
          exact Nat.lt_of_not_le high
        have miss (x : UInt8) (hx : x.toNat < 0x80) : ¬ r.1 ≤ x := by
          have bound := UInt8.le_iff_toNat_le.mp (low r List.mem_cons_self)
          rw [UInt8.le_iff_toNat_le]
          exact Nat.not_le_of_lt (Nat.lt_of_lt_of_le hx bound)
        simp [matching, miss b small, miss _ (lowerByte_low small).1]

/-- A character that takes more than one byte is not of ASCII. -/
theorem not_ascii_of_piece {lead : UInt8} {rest : List UInt8} {c : Char} {n : Nat}
    (high : 0x80 ≤ lead) (h : piece lead rest = (some c, n)) : ¬ Text.Ascii c := by
  intro ascii
  have single : String.utf8EncodeChar c = [UInt8.ofNat c.toNat] := by
    rw [String.utf8EncodeChar]
    exact if_pos (Nat.le_of_lt_succ ascii)
  rw [utf8EncodeChar_of_piece h] at single
  rw [(List.cons.inj single).1, UInt8.le_iff_toNat_le, toNat_ofNat (Nat.lt_trans ascii (by decide))] at high
  exact absurd ascii (Nat.not_lt_of_le high)

/-- A piece stays a piece of the same length, and its character is written small. -/
theorem piece_map_lowerByte (lead : UInt8) (rest : List UInt8) :
    piece (lowerByte lead) (rest.map lowerByte) =
      ((piece lead rest).1.map Char.toLower, (piece lead rest).2) := by
  by_cases high : 0x80 ≤ lead
  · have same : piece lead (rest.map lowerByte) = piece lead rest := by
      unfold piece
      split
      · rfl
      · rename_i ranges leads
        obtain ⟨same, taken⟩ := matching_map_lowerByte (continuation_low leads) rest
        simp only [same, taken]
    rw [lowerByte_of_high high, same]
    rcases read : piece lead rest with ⟨_ | c, n⟩
    · rfl
    · rw [Option.map_some, Text.toLower_of_not_ascii (not_ascii_of_piece high read)]
  · have small : lead.toNat < 0x80 := by
      rw [UInt8.le_iff_toNat_le] at high
      exact Nat.lt_of_not_le high
    have one (b : UInt8) (h : b.toNat < 0x80) (after : List UInt8) :
        piece b after = (some (Char.ofNat b.toNat), 0) := by
      have read := piece_one after h
      rwa [UInt8.ofNat_toNat, List.nil_append] at read
    obtain ⟨small', letter⟩ := lowerByte_low small
    rw [one lead small, one _ small', letter]
    rfl

theorem pieces_map_lowerByte (bytes : List UInt8) :
    pieces (bytes.map lowerByte) = (pieces bytes).map (Option.map Char.toLower) := by
  fun_induction pieces bytes with
  | case1 => rw [List.map_nil, pieces, List.map_nil]
  | case2 lead rest p ih =>
    rw [List.map_cons, pieces, piece_map_lowerByte, ← List.map_drop, ih, List.map_cons]

/-- **Small letters can be written before decoding.** -/
theorem decodeLenient_map_lowerByte (bytes : List UInt8) :
    decodeLenient (bytes.map lowerByte) = (decodeLenient bytes).map Char.toLower := by
  rw [decodeLenient, decodeLenient, pieces_map_lowerByte, List.map_map, List.map_map]
  refine List.map_congr_left fun piece _ => ?_
  cases piece with
  | none => decide
  | some c => rfl

end LuaLint.Utf8
