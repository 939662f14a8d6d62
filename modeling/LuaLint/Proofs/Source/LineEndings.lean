import LuaLint.Proofs.Source.Coordinates
import Mathlib.Data.List.Forall2

/-!
# Lines that end with a carriage return and a line feed

A source can be written with either of two line endings. `withReturns` puts a carriage return before every
line feed, and `returned` says where an offset is found after that: one byte further for each line feed
before it.

* **Lines** (`lines_withReturns`): each line stays as it is or gets a carriage return at its end.
* **Positions** (`position_withReturns`): an offset keeps its line and its column. What is added before
  an offset is added to the start of its line as well.
-/

namespace LuaLint.Source

/-- The byte that stands before a line feed in some sources. -/
def carriageReturn : UInt8 := 0x0D

/-- The source with a carriage return before every line feed. -/
def withReturns (source : List UInt8) : List UInt8 :=
  source.flatMap fun b => if b = lineFeed then [carriageReturn, lineFeed] else [b]

/-- Where an offset is found after carriage returns were put in. -/
def returned (source : List UInt8) (offset : Nat) : Nat :=
  offset + (source.take offset).count lineFeed

/-! ## One byte more -/

@[simp] theorem withReturns_nil : withReturns [] = [] := rfl

@[simp] theorem withReturns_lineFeed (source : List UInt8) :
    withReturns (lineFeed :: source) = carriageReturn :: lineFeed :: withReturns source := by
  simp [withReturns]

theorem withReturns_cons {b : UInt8} (h : b ≠ lineFeed) (source : List UInt8) :
    withReturns (b :: source) = b :: withReturns source := by
  simp [withReturns, h]

theorem withReturns_append (front back : List UInt8) :
    withReturns (front ++ back) = withReturns front ++ withReturns back :=
  List.flatMap_append

/-! ## Lines -/

/-- **Each line stays as it is or gets a carriage return at its end.** -/
theorem lines_withReturns (source : List UInt8) :
    List.Forall₂ (fun line line' => line' = line ∨ line' = line ++ [carriageReturn])
      (lines source) (lines (withReturns source)) := by
  induction source with
  | nil => exact .cons (.inl rfl) .nil
  | cons b source ih =>
    by_cases feed : b = lineFeed
    · subst feed
      have cut : lines (withReturns (lineFeed :: source)) =
          [carriageReturn] :: lines (withReturns source) := by
        rw [withReturns_lineFeed]
        exact Text.split_cons_of_ne (by decide) (Text.split_cons_self _ _)
      rw [cut, lines, Text.split_cons_self]
      exact .cons (.inr rfl) ih
    · obtain ⟨line, rest, cut⟩ := Text.split_eq_cons lineFeed source
      obtain ⟨line', rest', cut'⟩ := Text.split_eq_cons lineFeed (withReturns source)
      simp only [lines] at ih ⊢
      rw [withReturns_cons feed, Text.split_cons_of_ne feed cut, Text.split_cons_of_ne feed cut']
      rw [cut, cut'] at ih
      obtain ⟨first, others⟩ := List.forall₂_cons.mp ih
      refine .cons ?_ others
      rcases first with rfl | rfl
      · exact .inl rfl
      · exact .inr rfl

/-! ## Positions -/

/-- As many carriage returns are put in as there are line feeds. -/
theorem length_withReturns (source : List UInt8) :
    (withReturns source).length = source.length + source.count lineFeed := by
  induction source with
  | nil => rfl
  | cons b source ih =>
    by_cases feed : b = lineFeed
    · subst feed
      rw [withReturns_lineFeed, List.count_cons_self, List.length_cons, List.length_cons, ih,
        List.length_cons]
      omega
    · rw [withReturns_cons feed, List.count_cons_of_ne feed, List.length_cons, ih, List.length_cons]
      omega

/-- No line feed is added or taken away. -/
theorem count_withReturns (source : List UInt8) :
    (withReturns source).count lineFeed = source.count lineFeed := by
  induction source with
  | nil => rfl
  | cons b source ih =>
    by_cases feed : b = lineFeed
    · subst feed
      rw [withReturns_lineFeed, List.count_cons_of_ne (by decide), List.count_cons_self, ih,
        List.count_cons_self]
    · rw [withReturns_cons feed, List.count_cons_of_ne feed, ih, List.count_cons_of_ne feed]

/-- Without a line feed nothing is put in. -/
theorem withReturns_of_not_mem {source : List UInt8} (h : lineFeed ∉ source) :
    withReturns source = source := by
  induction source with
  | nil => rfl
  | cons b source ih =>
    rw [List.mem_cons, not_or] at h
    rw [withReturns_cons (Ne.symm h.1), ih h.2]

/-- **What lies before an offset lies before the offset that it is moved to.** -/
theorem take_withReturns (source : List UInt8) (offset : Nat) :
    (withReturns source).take (returned source offset) = withReturns (source.take offset) := by
  have cut := withReturns_append (source.take offset) (source.drop offset)
  rw [List.take_append_drop] at cut
  by_cases inside : offset ≤ source.length
  · have length : returned source offset = (withReturns (source.take offset)).length := by
      rw [length_withReturns, List.length_take, Nat.min_eq_left inside, returned]
    rw [cut, length, List.take_left]
  · have whole : source.take offset = source := List.take_of_length_le (by omega)
    rw [whole, List.take_of_length_le]
    rw [length_withReturns, returned, whole]
    omega

/-- Behind the last line feed begins the last line, which has moved by all that was put in. -/
theorem lastLineStart_withReturns (bytes : List UInt8) :
    lastLineStart (withReturns bytes) = lastLineStart bytes + bytes.count lineFeed := by
  by_cases more : lineFeed ∈ bytes
  · obtain ⟨front, tail, rfl, unbroken⟩ := exists_last_lineFeed more
    have ends : withReturns (front ++ lineFeed :: tail) =
        (withReturns front ++ [carriageReturn]) ++ lineFeed :: tail := by
      rw [withReturns_append, withReturns_lineFeed, withReturns_of_not_mem unbroken]
      simp
    rw [ends, lastLineStart_append unbroken, lastLineStart_append unbroken, List.length_append,
      List.length_singleton, length_withReturns, List.count_append, List.count_cons_self,
      List.count_eq_zero.mpr unbroken]
    omega
  · rw [withReturns_of_not_mem more, List.count_eq_zero.mpr more, Nat.add_zero]

/-- **An offset keeps its line and its column**, in the source and beyond its end. -/
theorem position_withReturns (source : List UInt8) (offset : Nat) :
    position (withReturns source) (returned source offset) = position source offset := by
  have before_eq (bytes : List UInt8) (o : Nat) : before bytes o = bytes.take o := by
    rw [before, if_neg (by omega), Int.toNat_natCast]
  simp only [position, before_eq, take_withReturns, count_withReturns, lastLineStart_withReturns]
  congr 1
  simp only [returned]
  omega

end LuaLint.Source
