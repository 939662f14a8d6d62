import LuaLint.Proofs.Source.Lines

/-!
# A source with one line more

A source is the row of its lines, joined by line feeds (`lines_ofLines`). So an editor that opens a new line puts one item into the row (`withLine`), and nothing else changes: a line above it
keeps its number and its offsets, a line below it gets the next number, and its offsets grow by the bytes
of the new line and by one line feed (`shifted`).

That an offset and its shifted offset lie on the same line (`position_shifted`) is read off the sums of
lengths that say where lines lie (`OnLine`), and these are compared part by part: above the new line and
from it on.
-/

namespace LuaLint.Source

/-! ## The row of lines -/

/-- The source with the given lines. -/
def ofLines (rows : List (List UInt8)) : List UInt8 := [lineFeed].intercalate rows

/-- Lines without a line feed in them, joined, are the lines of what they make. -/
theorem lines_ofLines {rows : List (List UInt8)} (some : rows ≠ [])
    (unbroken : ∀ row ∈ rows, lineFeed ∉ row) : lines (ofLines rows) = rows :=
  Text.split_intercalate some unbroken

theorem not_mem_of_mem_lines {source line : List UInt8} (h : line ∈ lines source) :
    lineFeed ∉ line :=
  fun feed => (Text.mem_of_mem_split h lineFeed feed).2 rfl

/-! ## One line more -/

/-- The source with a line put in before its `k`th line, if lines are counted from zero; at its end, if
it has no such line. -/
def withLine (source : List UInt8) (k : Nat) (line : List UInt8) : List UInt8 :=
  ofLines ((lines source).take k ++ line :: (lines source).drop k)

/-- Where an offset is found after the line was put in. -/
def shifted (source : List UInt8) (k : Nat) (line : List UInt8) (offset : Nat) : Nat :=
  if offset < lineStart source k then offset else offset + line.length + 1

/-! ## Where lines start -/

/-- How many bytes some lines take, with a line feed after each of them. -/
def extent (rows : List (List UInt8)) : Nat :=
  rows.foldr (fun line rest => line.length + 1 + rest) 0

theorem extent_append (above below : List (List UInt8)) :
    extent (above ++ below) = extent above + extent below := by
  induction above with
  | nil => simp [extent]
  | cons row above ih =>
    simp only [extent, List.cons_append, List.foldr_cons] at ih ⊢
    omega

/-- A line starts where the lines above it end. -/
theorem lineStart_eq_extent (source : List UInt8) (k : Nat) :
    lineStart source k = extent ((lines source).take k) :=
  rfl

theorem lineStart_add (source : List UInt8) (k i : Nat) :
    lineStart source (k + i) =
      lineStart source k + extent (((lines source).drop k).take i) := by
  rw [lineStart_eq_extent, List.take_add, extent_append, lineStart_eq_extent]

theorem lineStart_mono (source : List UInt8) {j k : Nat} (h : j ≤ k) :
    lineStart source j ≤ lineStart source k := by
  obtain ⟨i, rfl⟩ := Nat.exists_eq_add_of_le h
  rw [lineStart_add]
  omega

theorem lineStart_succ {source row : List UInt8} {j : Nat} (h : (lines source)[j]? = some row) :
    lineStart source (j + 1) = lineStart source j + row.length + 1 := by
  rw [← List.head?_drop] at h
  obtain ⟨rest, cut⟩ := List.head?_eq_some_iff.mp h
  rw [lineStart_add, cut]
  simp only [extent, List.take_succ_cons, List.take_zero, List.foldr_cons, List.foldr_nil]
  omega

/-! ## The lines of the longer source -/

section

variable {source line row : List UInt8} {j k offset : Nat} (unbroken : lineFeed ∉ line)
include unbroken

/-- The new line stands in its place among the others. -/
theorem lines_withLine :
    lines (withLine source k line) = (lines source).take k ++ line :: (lines source).drop k := by
  refine lines_ofLines (by simp) fun row member => ?_
  rcases List.mem_append.mp member with above | member
  · exact not_mem_of_mem_lines (List.mem_of_mem_take above)
  · rcases List.mem_cons.mp member with rfl | below
    · exact unbroken
    · exact not_mem_of_mem_lines (List.mem_of_mem_drop below)

/-- Above the new line, lines and what lies on them stay. -/
theorem OnLine.above (h : OnLine source j offset) (above : j < k) :
    OnLine (withLine source k line) j offset ∧ offset < lineStart source k := by
  obtain ⟨row, at_j, low, high⟩ := h
  have inside : j < (lines source).length := (List.getElem?_eq_some_iff.mp at_j).1
  have length : j < ((lines source).take k).length := by
    rw [List.length_take]
    omega
  have same : lineStart (withLine source k line) j = lineStart source j := by
    rw [lineStart_eq_extent, lines_withLine unbroken, List.take_append_of_le_length (by omega),
      List.take_take, Nat.min_eq_left (by omega), lineStart_eq_extent]
  constructor
  · refine ⟨row, ?_, by omega, by omega⟩
    rw [lines_withLine unbroken, List.getElem?_append_left length, List.getElem?_take_of_lt above,
      at_j]
  · have next := lineStart_succ at_j
    have := lineStart_mono source (show j + 1 ≤ k from above)
    omega

/-- From the new line on, lines and what lies on them move by one line. -/
theorem OnLine.below (h : OnLine source j offset) (below : k ≤ j) :
    OnLine (withLine source k line) (j + 1) (offset + line.length + 1) ∧
      lineStart source k ≤ offset := by
  obtain ⟨row, at_j, low, high⟩ := h
  have inside : j < (lines source).length := (List.getElem?_eq_some_iff.mp at_j).1
  obtain ⟨i, rfl⟩ := Nat.exists_eq_add_of_le below
  have length : ((lines source).take k).length = k := by
    rw [List.length_take]
    omega
  have moved : lineStart (withLine source k line) (k + i + 1) =
      lineStart source (k + i) + line.length + 1 := by
    rw [lineStart_eq_extent, lines_withLine unbroken, lineStart_add, lineStart_eq_extent]
    have cut : ((lines source).take k ++ line :: (lines source).drop k).take (k + (i + 1)) =
        (lines source).take k ++ (line :: (lines source).drop k).take (i + 1) := by
      rw [List.take_append, length, List.take_of_length_le (by omega), Nat.add_sub_cancel_left]
    rw [Nat.add_assoc, cut, extent_append, List.take_succ_cons]
    simp only [extent, List.foldr_cons]
    omega
  constructor
  · refine ⟨row, ?_, by omega, by omega⟩
    rw [lines_withLine unbroken, List.getElem?_append_right (by omega), length,
      show k + i + 1 - k = i + 1 by omega, List.getElem?_cons_succ, List.getElem?_drop, at_j]
  · have := lineStart_mono source below
    omega

/-- **An offset and its shifted offset lie on the same line**, whose number has grown by one if the new
line stands above it. -/
theorem position_shifted (inside : offset ≤ source.length) :
    (position (withLine source k line) (shifted source k line offset)).line =
      if (position source offset).line ≤ k then (position source offset).line
      else (position source offset).line + 1 := by
  rw [position_line, position_line]
  generalize found : (source.take offset).count lineFeed = j
  have here : OnLine source j offset := (onLine_iff inside j).mpr found
  by_cases above : j < k
  · obtain ⟨stays, before⟩ := here.above unbroken above
    rw [shifted, if_pos before, if_pos (by omega), (onLine_iff stays.le j).mp stays]
  · obtain ⟨moves, behind⟩ := here.below unbroken (Nat.le_of_not_lt above)
    rw [shifted, if_neg (by omega), if_neg (by omega), (onLine_iff moves.le (j + 1)).mp moves]

end

end LuaLint.Source
