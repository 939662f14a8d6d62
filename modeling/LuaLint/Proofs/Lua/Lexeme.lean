import LuaLint.Lua.Lexeme
import LuaLint.Proofs.Text.Utf8

/-!
# Lexemes end inside the text

Every length that is measured at the front of some bytes is at most the number of those bytes: of names
(`nameLength_le`), numerals (`numeralLength_le`), marks (`mark?_le`), escapes (`escapeLength_le`) and long
brackets with what they enclose (`longOpening?_le`, `longContent?_le`).
-/

namespace LuaLint.Lua

theorem run_le (p : UInt8 → Bool) (bytes : List UInt8) : run p bytes ≤ bytes.length :=
  (List.takeWhile_sublist p).length_le

theorem nameLength_le (bytes : List UInt8) : nameLength bytes ≤ bytes.length := by
  fun_induction nameLength bytes with
  | case1 => exact Nat.le_refl 0
  | case2 lead rest c n first isName ih =>
    have := Utf8.piece_le lead rest
    rw [first] at this
    rw [List.length_drop] at ih
    rw [List.length_cons]
    omega
  | case3 => exact Nat.zero_le _
  | case4 => exact Nat.zero_le _

/-! ## Numerals -/

theorem exponentLength_le (mark : String) (bytes : List UInt8) :
    exponentLength mark bytes ≤ bytes.length := by
  cases bytes with
  | nil => exact Nat.le_refl 0
  | cons m rest =>
    unfold exponentLength
    dsimp only
    generalize (if rest.head?.any (isOneOf "+-") then 1 else 0) = sign
    have digits := run_le isDigit (rest.drop sign)
    rw [List.length_drop] at digits
    rw [List.length_cons]
    split
    · rename_i used
      have some : 0 < run isDigit (rest.drop sign) := by simpa using (Bool.and_eq_true_iff.mp used).2
      omega
    · exact Nat.zero_le _

theorem imaginaryLength_le (bytes : List UInt8) : imaginaryLength bytes ≤ bytes.length := by
  cases bytes with
  | nil => exact Nat.le_refl 0
  | cons m rest =>
    unfold imaginaryLength
    rw [List.length_cons]
    split <;> omega

theorem scaleLength_le (mark : String) (bytes : List UInt8) :
    scaleLength mark bytes ≤ bytes.length := by
  have exponent := exponentLength_le mark bytes
  have imaginary := imaginaryLength_le (bytes.drop (exponentLength mark bytes))
  rw [List.length_drop] at imaginary
  unfold scaleLength
  dsimp only
  omega

theorem widthLength_le (bytes : List UInt8) : widthLength bytes ≤ bytes.length := by
  unfold widthLength
  split
  · rename_i a b c rest
    have := imaginaryLength_le (a :: b :: c :: rest)
    simp only [List.length_cons] at *
    split
    · omega
    · split <;> omega
  · rename_i a b
    have := imaginaryLength_le [a]
    simp only [List.length_cons, List.length_nil] at *
    split <;> omega
  · exact imaginaryLength_le bytes

theorem positionalLength_le (digit : UInt8 → Bool) (mark : String) (bytes : List UInt8) :
    positionalLength digit mark bytes ≤ bytes.length := by
  have whole := run_le digit bytes
  have scale := scaleLength_le mark (bytes.drop (run digit bytes))
  have width := widthLength_le (bytes.drop (run digit bytes))
  rw [List.length_drop] at scale width
  unfold positionalLength
  dsimp only
  split
  · rename_i pointed
    have point : (bytes.drop (run digit bytes)).head? = some (byte '.') := by
      simpa using (Bool.and_eq_true_iff.mp pointed).1
    have some : 0 < (bytes.drop (run digit bytes)).length := by
      apply List.length_pos_iff.mpr
      intro empty
      rw [empty] at point
      cases point
    have fraction := run_le digit ((bytes.drop (run digit bytes)).drop 1)
    have longer := scaleLength_le mark (bytes.drop (run digit bytes + 1 +
      run digit ((bytes.drop (run digit bytes)).drop 1)))
    rw [List.length_drop] at longer some
    rw [List.length_drop, List.length_drop] at fraction
    omega
  · split
    · exact Nat.zero_le _
    · split <;> omega

theorem binaryLength_le (bytes : List UInt8) : binaryLength bytes ≤ bytes.length := by
  have whole := run_le isBinaryDigit bytes
  have width := widthLength_le (bytes.drop (run isBinaryDigit bytes))
  rw [List.length_drop] at width
  unfold binaryLength
  dsimp only
  split <;> omega

theorem numeralLength_le (bytes : List UInt8) : numeralLength bytes ≤ bytes.length := by
  unfold numeralLength
  dsimp only
  split
  · rename_i zero base rest
    have hex := positionalLength_le isHexDigit "pP" rest
    have binary := binaryLength_le rest
    have decimal := positionalLength_le isDigit "eE" (zero :: base :: rest)
    simp only [List.length_cons] at *
    split
    · omega
    · split <;> omega
  · exact positionalLength_le isDigit "eE" bytes

/-! ## Marks and escapes -/

theorem mark?_le {bytes : List UInt8} {mark : String} (h : mark? bytes = some mark) :
    (Utf8.encode mark).length ≤ bytes.length := by
  have begins : (Utf8.encode mark).isPrefixOf bytes = true :=
    List.find?_some (p := fun m => (Utf8.encode m).isPrefixOf bytes) h
  exact (List.isPrefixOf_iff_prefix.mp begins).length_le

theorem escapeLength_le (bytes : List UInt8) : escapeLength bytes ≤ bytes.length := by
  unfold escapeLength
  split
  · exact Nat.le_refl 0
  · rename_i c rest
    have spaces := run_le isSpace rest
    have digits := run_le isDigit rest
    have hex := run_le isHexDigit rest
    have scalar := run_le isHexDigit (rest.drop 1)
    rw [List.length_drop] at scalar
    rw [List.length_cons]
    dsimp only
    split
    · omega
    · split
      · omega
      · split
        · omega
        · split
          · split <;> omega
          · split
            · split
              · rename_i closed
                have some : 0 < run isHexDigit (rest.drop 1) := by
                  simpa using (Bool.and_eq_true_iff.mp closed).1
                have brace : 0 < (rest.drop (1 + run isHexDigit (rest.drop 1))).length := by
                  apply List.length_pos_iff.mpr
                  intro empty
                  rw [empty] at closed
                  simp at closed
                rw [List.length_drop] at brace
                omega
              · omega
            · omega

/-! ## Long brackets -/

theorem longOpening?_le {bytes : List UInt8} {level : Nat} (h : longOpening? bytes = some level) :
    level + 2 ≤ bytes.length := by
  cases bytes with
  | nil => cases h
  | cons c rest =>
    simp only [longOpening?] at h
    split at h
    · rename_i opens
      obtain rfl := Option.some.inj h
      have second : 0 < (rest.drop (run (· == byte '=') rest)).length := by
        apply List.length_pos_iff.mpr
        intro empty
        rw [empty] at opens
        simp at opens
      rw [List.length_drop] at second
      rw [List.length_cons]
      omega
    · cases h

theorem longContent?_le {level length : Nat} {bytes : List UInt8}
    (h : longContent? level bytes = some length) : length + level + 2 ≤ bytes.length := by
  induction bytes generalizing length with
  | nil => cases h
  | cons c rest ih =>
    rw [longContent?] at h
    split at h
    · rename_i closes
      obtain rfl := Option.some.inj h
      have closing := (List.isPrefixOf_iff_prefix.mp closes).length_le
      simp only [longClosing, List.cons_append, List.length_cons, List.length_append,
        List.length_replicate, List.length_nil] at closing
      rw [List.length_cons]
      omega
    · obtain ⟨shorter, later, rfl⟩ := Option.map_eq_some_iff.mp h
      have := ih later
      rw [List.length_cons]
      omega

end LuaLint.Lua
