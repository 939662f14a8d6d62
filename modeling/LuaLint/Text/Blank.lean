/-!
# Classes of characters, and blanks

A class of characters is given as a table of intervals of code points, both ends included.

The class that is needed most is that of the **blanks**, the characters that count as white space in
directives and lists of ids: the ASCII blanks, the four separators of the control area, and the space
separators, line separator and paragraph separator of Unicode. `trim` takes them off both ends of a text.
-/

namespace LuaLint.Text

/-- The number lies in one of the intervals. -/
def covers (intervals : List (Nat × Nat)) (n : Nat) : Bool :=
  intervals.any fun (first, last) => first ≤ n && n ≤ last

/-- The blank characters, as intervals in increasing order. -/
def blankIntervals : List (Nat × Nat) := [
  (0x09, 0x0D), (0x1C, 0x20), (0x85, 0x85), (0xA0, 0xA0), (0x1680, 0x1680), (0x2000, 0x200A),
  (0x2028, 0x2029), (0x202F, 0x202F), (0x205F, 0x205F), (0x3000, 0x3000)]

/-- The character is white space. -/
def isBlank (c : Char) : Bool := covers blankIntervals c.toNat

/-- The text without the blanks at its ends. -/
def trim (text : List Char) : List Char :=
  ((text.dropWhile isBlank).reverse.dropWhile isBlank).reverse

/-- Nothing is left of blanks. -/
theorem dropWhile_of_blank {gap : List Char} (blank : ∀ c ∈ gap, isBlank c = true) :
    gap.dropWhile isBlank = [] := by
  have none : (gap ++ []).dropWhile isBlank = [] := List.dropWhile_append_of_pos blank
  rwa [List.append_nil] at none

/-- Only blanks are dropped. -/
theorem mem_dropWhile_isBlank {c : Char} (solid : isBlank c = false) {text : List Char}
    (h : c ∈ text) : c ∈ text.dropWhile isBlank := by
  induction text with
  | nil => exact h
  | cons d text ih =>
    by_cases blank : isBlank d = true
    · rw [List.dropWhile_cons_of_pos blank]
      rcases List.mem_cons.mp h with rfl | later
      · rw [solid] at blank
        cases blank
      · exact ih later
    · rwa [List.dropWhile_cons_of_neg blank]

/-- **Nothing is left exactly of blanks.** -/
theorem trim_eq_nil_iff {text : List Char} : trim text = [] ↔ ∀ c ∈ text, isBlank c = true := by
  constructor
  · intro nothing c hc
    cases solid : isBlank c with
    | true => rfl
    | false =>
      have front := mem_dropWhile_isBlank solid hc
      have left := mem_dropWhile_isBlank solid (List.mem_reverse.mpr front)
      have kept : c ∈ trim text := List.mem_reverse.mpr left
      rw [nothing] at kept
      cases kept
  · intro blank
    rw [trim, dropWhile_of_blank blank]
    rfl

end LuaLint.Text
