import LuaLint.Proofs.Source.Lines

/-!
# The place of a line in a source

A slot is a source with one line left out: what comes before the line and what comes after it. Filled with
one line or another it makes sources that agree everywhere else, and an offset behind the slot moves by the
difference in length (`Slot.shifted`).

* **Lines** (`Slot.lines_filled`): the line stands in the row of lines between those above and those below,
  which do not depend on it.
* **Numbers** (`Slot.position_line_filled`): an offset before the slot is on a line above; one behind it is
  as many lines further down as there are line feeds in between. So an offset outside the line keeps its
  number (`Slot.position_line_shifted`).
-/

namespace LuaLint.Source

/-- A source with one line left out. -/
structure Slot where
  before : List UInt8
  after : List UInt8
  /-- A line begins where the slot is. -/
  opens : before = [] ∨ before.getLast? = some lineFeed
  /-- A line ends where the slot is. -/
  closes : after = [] ∨ after.head? = some lineFeed

namespace Slot

variable (s : Slot) {line line' : List UInt8}

/-- The source with a line in the slot. -/
def filled (line : List UInt8) : List UInt8 := s.before ++ line ++ s.after

/-- How many lines are above the slot. -/
def number : Nat := s.before.count lineFeed

/-- Where an offset outside the slot is found after one line was put in the place of another. -/
def shifted (line line' : List UInt8) (offset : Nat) : Nat :=
  if offset < s.before.length then offset else offset + line'.length - line.length

/-- The lines above the slot. -/
def above : List (List UInt8) := (lines s.before).dropLast

/-- The lines below the slot. -/
def below : List (List UInt8) := (lines s.after).tail

/-! ## Lines -/

theorem length_above : s.above.length = s.number := by
  rw [above, List.length_dropLast, lines, Text.length_split, number, Nat.add_sub_cancel]

/-- A line and what comes after the slot. -/
theorem lines_append_after (unbroken : lineFeed ∉ line) :
    lines (line ++ s.after) = line :: s.below := by
  have alone : Text.split lineFeed line = [line] := Text.split_of_not_mem unbroken
  rw [below, lines]
  rcases s.closes with none | begins
  · rw [none, List.append_nil, alone]
    rfl
  · obtain ⟨next, cut⟩ := List.head?_eq_some_iff.mp begins
    rw [cut, Text.split_append, alone, lines, Text.split_cons_self]
    rfl

/-- **The line stands between those above and those below.** -/
theorem lines_filled (unbroken : lineFeed ∉ line) :
    lines (s.filled line) = s.above ++ line :: s.below := by
  have rest := s.lines_append_after unbroken
  rw [filled, above, List.append_assoc]
  rcases s.opens with none | ends
  · rw [none, List.nil_append, rest]
    rfl
  · obtain ⟨front, cut⟩ := List.getLast?_eq_some_iff.mp ends
    have halves : lines (front ++ lineFeed :: []) = lines front ++ [[]] := Text.split_append _ _ _
    rw [cut, halves, List.dropLast_concat, List.append_assoc, List.singleton_append, ← rest]
    exact Text.split_append lineFeed front (line ++ s.after)

/-- A line above or below does not depend on the one in the slot. -/
theorem getElem?_lines_filled (unbroken : lineFeed ∉ line) (unbroken' : lineFeed ∉ line') {k : Nat}
    (elsewhere : k ≠ s.number) : (lines (s.filled line'))[k]? = (lines (s.filled line))[k]? := by
  rw [s.lines_filled unbroken, s.lines_filled unbroken']
  rcases Nat.lt_or_gt_of_ne elsewhere with before | behind
  · rw [← s.length_above] at before
    rw [List.getElem?_append_left before, List.getElem?_append_left before]
  · rw [← s.length_above] at behind
    obtain ⟨i, rfl⟩ := Nat.exists_eq_add_of_lt behind
    have position : s.above.length + i + 1 - s.above.length = i + 1 := by omega
    rw [List.getElem?_append_right (by omega), List.getElem?_append_right (by omega), position,
      List.getElem?_cons_succ, List.getElem?_cons_succ]

/-! ## Numbers -/

/-- **The line of an offset**, counted from one: above the slot it is the line that it is in what comes
before; from there on, one line further for each line feed after the slot. -/
theorem position_line_filled (unbroken : lineFeed ∉ line) (offset : Nat) :
    (position (s.filled line) offset).line =
      if offset < s.before.length then (position s.before offset).line
      else s.number + 1 + (s.after.take (offset - s.before.length - line.length)).count lineFeed := by
  rw [position_line, position_line, filled]
  split
  · rename_i before
    rw [List.append_assoc, List.take_append_of_le_length (Nat.le_of_lt before)]
  · rename_i behind
    have none : (line.take (offset - s.before.length)).count lineFeed = 0 :=
      List.count_eq_zero.mpr fun feed => unbroken (List.mem_of_mem_take feed)
    rw [List.append_assoc, List.take_append, List.take_append,
      List.take_of_length_le (Nat.le_of_not_lt behind), List.count_append, List.count_append, none,
      number]
    omega

/-- Before the slot no offset lies on its line. -/
theorem position_line_before {offset : Nat} (before : offset < s.before.length) :
    (position s.before offset).line ≤ s.number := by
  rw [position_line, number]
  rcases s.opens with none | ends
  · rw [none] at before
    exact absurd before (Nat.not_lt_zero offset)
  · obtain ⟨front, cut⟩ := List.getLast?_eq_some_iff.mp ends
    rw [cut, List.length_append, List.length_singleton] at before
    rw [cut, List.take_append_of_le_length (Nat.le_of_lt_succ before), List.count_append,
      List.count_singleton_self]
    exact Nat.succ_le_succ ((List.take_sublist offset front).count_le lineFeed)

/-- **The offsets in the source that lie on the line in the slot** are those of its bytes and of what ends
it. -/
theorem position_line_eq_iff (unbroken : lineFeed ∉ line) {offset : Nat}
    (inside : offset ≤ (s.filled line).length) :
    (position (s.filled line) offset).line = s.number + 1 ↔
      s.before.length ≤ offset ∧ offset ≤ s.before.length + line.length := by
  rw [s.position_line_filled unbroken]
  split
  · rename_i before
    have above := s.position_line_before before
    omega
  · rename_i behind
    by_cases within : offset ≤ s.before.length + line.length
    · have zero : offset - s.before.length - line.length = 0 := by omega
      rw [zero, List.take_zero, List.count_nil]
      omega
    · obtain ⟨i, length⟩ := Nat.exists_eq_add_of_lt (Nat.lt_of_not_le within)
      rw [filled, List.length_append, List.length_append] at inside
      rcases s.closes with none | begins
      · rw [none, List.length_nil] at inside
        omega
      · obtain ⟨next, cut⟩ := List.head?_eq_some_iff.mp begins
        have taken : offset - s.before.length - line.length = i + 1 := by omega
        rw [taken, cut, List.take_succ_cons, List.count_cons_self]
        omega

/-- **An offset outside the line keeps the number of its line.** -/
theorem position_line_shifted (unbroken : lineFeed ∉ line) (unbroken' : lineFeed ∉ line')
    {offset : Nat} (elsewhere : (position (s.filled line) offset).line ≠ s.number + 1) :
    (position (s.filled line') (s.shifted line line' offset)).line =
      (position (s.filled line) offset).line := by
  rw [s.position_line_filled unbroken] at elsewhere
  rw [s.position_line_filled unbroken, s.position_line_filled unbroken', shifted]
  by_cases before : offset < s.before.length
  · simp only [if_pos before]
  · rw [if_neg before] at elsewhere
    have behind : s.before.length + line.length < offset := by
      refine Nat.lt_of_not_le fun within => elsewhere ?_
      have zero : offset - s.before.length - line.length = 0 := by omega
      rw [zero]
      rfl
    have same : offset + line'.length - line.length - s.before.length - line'.length =
        offset - s.before.length - line.length := by omega
    have behind' : ¬ offset + line'.length - line.length < s.before.length := by omega
    simp only [if_neg before, if_neg behind', same]

end Slot

end LuaLint.Source
