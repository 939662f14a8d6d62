import LuaLint.Proofs.Source.Lines

/-!
# Offsets and positions

A position and an offset say the same. The line of a position is found by counting line feeds and its
column by looking for the last of them, and the two agree with the sums of lengths that say where lines
lie.

* **The last line feed** (`lastLineStart_take`): behind it begins the line whose number is the count of
  line feeds. This holds before any offset, also before one that lies beyond the end of the source.
* **There and back** (`position_of_inside`): the position of an offset in the source names a line that is
  there and a column that is on it or just behind it, and the offset is where that line starts plus the
  column.
* **Order** (`position_before`): a greater offset has a later position (`Position.Before`), on a line
  further down or further right on the same line.
-/

namespace LuaLint

/-- Reading order: by line, then by column. -/
def Position.Before (p q : Position) : Prop :=
  p.line < q.line ∨ p.line = q.line ∧ p.column < q.column

theorem Position.Before.ne {p q : Position} (h : p.Before q) : p ≠ q := by
  rintro rfl
  rcases h with later | ⟨-, right⟩
  · exact Nat.lt_irrefl _ later
  · exact Int.lt_irrefl _ right

namespace Source

/-! ## The last line feed -/

/-- The search for a line feed from the end passes over what holds none. -/
theorem takeWhile_reverse_append {tail : List UInt8} (h : lineFeed ∉ tail) (before : List UInt8) :
    (tail.reverse ++ before).takeWhile (· ≠ lineFeed) =
      tail.reverse ++ before.takeWhile (· ≠ lineFeed) := by
  apply List.takeWhile_append_of_pos
  intro b hb
  apply decide_eq_true
  rintro rfl
  exact h (List.mem_reverse.mp hb)

/-- Without a line feed the last line is the first one. -/
theorem lastLineStart_of_not_mem {bytes : List UInt8} (h : lineFeed ∉ bytes) :
    lastLineStart bytes = 0 := by
  have whole := takeWhile_reverse_append h []
  rw [List.append_nil, List.takeWhile_nil, List.append_nil] at whole
  rw [lastLineStart, whole, List.length_reverse, Nat.sub_self]

/-- The last line begins behind the last line feed. -/
theorem lastLineStart_append {tail : List UInt8} (h : lineFeed ∉ tail) (front : List UInt8) :
    lastLineStart (front ++ lineFeed :: tail) = front.length + 1 := by
  have cut : (front ++ lineFeed :: tail).reverse = tail.reverse ++ lineFeed :: front.reverse := by
    rw [List.reverse_append, List.reverse_cons, List.append_assoc, List.singleton_append]
  rw [lastLineStart, cut, takeWhile_reverse_append h, List.takeWhile_cons_of_neg (by simp),
    List.append_nil, List.length_reverse, List.length_append, List.length_cons]
  omega

theorem exists_last_lineFeed {bytes : List UInt8} (h : lineFeed ∈ bytes) :
    ∃ front tail, bytes = front ++ lineFeed :: tail ∧ lineFeed ∉ tail := by
  obtain ⟨tail, front, cut, unbroken⟩ := List.eq_append_cons_of_mem (List.mem_reverse.mpr h)
  refine ⟨front.reverse, tail.reverse, ?_, by simpa using unbroken⟩
  rw [← List.reverse_reverse bytes, cut, List.reverse_append, List.reverse_cons, List.append_assoc,
    List.singleton_append]

/-- A byte in front of a line feed moves the last line on. -/
theorem lastLineStart_cons {bytes : List UInt8} (h : lineFeed ∈ bytes) (b : UInt8) :
    lastLineStart (b :: bytes) = lastLineStart bytes + 1 := by
  obtain ⟨front, tail, rfl, unbroken⟩ := exists_last_lineFeed h
  rw [← List.cons_append, lastLineStart_append unbroken, lastLineStart_append unbroken,
    List.length_cons]

/-- A line feed in front makes one line more. -/
theorem lastLineStart_lineFeed (bytes : List UInt8) :
    lastLineStart (lineFeed :: bytes) = lastLineStart bytes + 1 := by
  by_cases more : lineFeed ∈ bytes
  · exact lastLineStart_cons more lineFeed
  · rw [lastLineStart_of_not_mem more]
    exact lastLineStart_append more []

/-- **Behind the last line feed before an offset begins the line that the count of line feeds says.** -/
theorem lastLineStart_take (source : List UInt8) (offset : Nat) :
    lastLineStart (source.take offset) =
      lineStart source ((source.take offset).count lineFeed) := by
  induction source generalizing offset with
  | nil =>
    rw [List.take_nil, List.count_nil, lineStart_zero]
    rfl
  | cons b source ih =>
    cases offset with
    | zero =>
      rw [List.take_zero, List.count_nil, lineStart_zero]
      rfl
    | succ offset =>
      rw [List.take_succ_cons]
      by_cases feed : b = lineFeed
      · subst feed
        rw [lastLineStart_lineFeed, List.count_cons_self, lineStart_lineFeed, ih]
      · rw [List.count_cons_of_ne feed]
        by_cases more : lineFeed ∈ source.take offset
        · -- the line feeds are all behind `b`, which makes the first line longer
          have count := ih offset
          have counted := List.count_pos_iff.mpr more
          obtain ⟨k, feeds⟩ := Nat.exists_eq_add_of_lt counted
          rw [feeds, Nat.zero_add] at count ⊢
          rw [lastLineStart_cons more, lineStart_cons feed, count]
        · have unbroken : lineFeed ∉ b :: source.take offset := by
            rw [List.mem_cons, not_or]
            exact ⟨Ne.symm feed, more⟩
          rw [lastLineStart_of_not_mem unbroken, List.count_eq_zero.mpr more, lineStart_zero]

theorem lastLineStart_le (bytes : List UInt8) : lastLineStart bytes ≤ bytes.length :=
  Nat.sub_le _ _

/-! ## Columns -/

/-- **The column of an offset is counted from the start of its line**, for an offset in the source and
beyond. -/
theorem position_column (source : List UInt8) (offset : Nat) :
    (position source offset).column =
      offset - lineStart source ((position source offset).line - 1) := by
  have forward : ¬ (offset : Int) < 0 := Int.not_lt.mpr (Int.natCast_nonneg offset)
  rw [position_line, Nat.add_sub_cancel, ← lastLineStart_take]
  simp only [position, before, if_neg forward, Int.toNat_natCast]

/-- No offset lies before its line. -/
theorem position_column_nonneg (source : List UInt8) (offset : Nat) :
    0 ≤ (position source offset).column := by
  have le : lineStart source ((position source offset).line - 1) ≤ offset := by
    rw [position_line, Nat.add_sub_cancel, ← lastLineStart_take]
    exact Nat.le_trans (lastLineStart_le _) (List.length_take_le _ _)
  rw [position_column]
  exact Int.sub_nonneg.mpr (Int.ofNat_le.mpr le)

/-- **There and back.** The position of an offset in the source names one of the lines, and a column on
this line or at its end; the offset is the start of the line plus the column. -/
theorem position_of_inside {source : List UInt8} {offset : Nat} (inside : offset ≤ source.length) :
    1 ≤ (position source offset).line ∧
      (position source offset).line ≤ (lines source).length ∧
      0 ≤ (position source offset).column ∧
      (∃ line, (lines source)[(position source offset).line - 1]? = some line ∧
        (position source offset).column ≤ line.length) ∧
      (offset : Int) = lineStart source ((position source offset).line - 1) +
        (position source offset).column := by
  have counted : (position source offset).line - 1 = (source.take offset).count lineFeed := by
    rw [position_line, Nat.add_sub_cancel]
  obtain ⟨line, there, starts, stops⟩ := (onLine_iff inside _).mpr counted.symm
  obtain ⟨within, -⟩ := List.getElem?_eq_some_iff.mp there
  have first : 1 ≤ (position source offset).line := by
    rw [position_line]
    exact Nat.le_add_left 1 _
  have column := position_column source offset
  exact ⟨first, by omega, position_column_nonneg source offset, ⟨line, there, by omega⟩, by omega⟩

/-! ## Order -/

/-- **A greater offset has a later position**, beyond the end of the source as well. -/
theorem position_before (source : List UInt8) {first second : Nat} (h : first < second) :
    (position source first).Before (position source second) := by
  have counts : (source.take first).count lineFeed ≤ (source.take second).count lineFeed :=
    (List.take_sublist_take_left (Nat.le_of_lt h)).count_le lineFeed
  rcases Nat.lt_or_eq_of_le counts with fewer | same
  · left
    rw [position_line, position_line]
    exact Nat.succ_lt_succ fewer
  · right
    have line : (position source first).line = (position source second).line := by
      rw [position_line, position_line, same]
    refine ⟨line, ?_⟩
    rw [position_column, position_column, line]
    omega

/-- Different offsets have different positions. -/
theorem position_injective (source : List UInt8) {first second : Nat}
    (h : position source first = position source second) : first = second := by
  rcases Nat.lt_trichotomy first second with before | same | behind
  · exact absurd h (position_before source before).ne
  · exact same
  · exact absurd h.symm (position_before source behind).ne

end Source

end LuaLint
