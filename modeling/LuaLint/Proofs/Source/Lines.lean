import LuaLint.Source.Position

/-!
# Where the lines of a source lie

There are two ways to say on which line an offset lies. One enumerates the lines and adds up their
lengths: `lineStart` is the offset at which a line begins, and `OnLine` says that an offset lies on a
line or on what ends it. The other counts the line feeds before the offset, as `Source.position` does.

* **They agree** (`onLine_iff`) for every offset from the first byte to the end of the source, on a
  line feed and on an empty line as well. So every such offset lies on exactly one line.
* **The lines lie where they should** (`drop_lineStart`): at the start of a line stands the line, and
  after it a line feed or the end of the source.

`DashesAt` names the offsets at which two dashes stand, as they do before a directive and before a remark.
-/

namespace LuaLint.Source

/-- The offset at which a line begins, if lines are counted from zero: each line before it takes its
length and one line feed. -/
def lineStart (source : List UInt8) (k : Nat) : Nat :=
  ((lines source).take k).foldr (fun line rest => line.length + 1 + rest) 0

/-- The offset lies on the line, or on the line feed or the end of the source that ends it. -/
def OnLine (source : List UInt8) (k offset : Nat) : Prop :=
  ∃ line, (lines source)[k]? = some line ∧
    lineStart source k ≤ offset ∧ offset ≤ lineStart source k + line.length

/-! ## Dashes -/

/-- The byte of a dash. -/
def dash : UInt8 := 0x2D

/-- A pair of dashes begins at the offset. -/
def DashesAt (source : List UInt8) (offset : Nat) : Prop :=
  source[offset]? = some dash ∧ source[offset + 1]? = some dash

theorem DashesAt.drop {source : List UInt8} {n offset : Nat} (h : DashesAt source offset)
    (le : n ≤ offset) : DashesAt (source.drop n) (offset - n) := by
  obtain ⟨k, rfl⟩ := Nat.exists_eq_add_of_le le
  rw [DashesAt, List.getElem?_drop, List.getElem?_drop, Nat.add_sub_cancel_left, ← Nat.add_assoc]
  exact h

theorem DashesAt.of_drop {source rest : List UInt8} {offset : Nat}
    (h : source.drop offset = dash :: dash :: rest) : DashesAt source offset := by
  have first : (source.drop offset)[0]? = source[offset]? := List.getElem?_drop
  have second : (source.drop offset)[1]? = source[offset + 1]? := List.getElem?_drop
  rw [h] at first second
  exact ⟨first.symm, second.symm⟩

/-! ## One byte more -/

theorem lineStart_zero (source : List UInt8) : lineStart source 0 = 0 := by
  simp [lineStart]

/-- A line feed in front makes one more line, an empty one. -/
theorem lineStart_lineFeed (source : List UInt8) (k : Nat) :
    lineStart (lineFeed :: source) (k + 1) = lineStart source k + 1 := by
  simp [lineStart, lines, Nat.add_comm]

/-- Any other byte in front makes the first line longer. -/
theorem lineStart_cons {b : UInt8} (h : b ≠ lineFeed) (source : List UInt8) (k : Nat) :
    lineStart (b :: source) (k + 1) = lineStart source (k + 1) + 1 := by
  obtain ⟨line, rest, hs⟩ := Text.split_eq_cons lineFeed source
  simp only [lineStart, lines, Text.split_cons_of_ne h hs, hs, List.take_succ_cons,
    List.foldr_cons, List.length_cons]
  omega

/-- The first offset lies on the first line. -/
theorem onLine_zero (source : List UInt8) (k : Nat) : OnLine source k 0 ↔ k = 0 := by
  obtain ⟨line, rest, hs⟩ := Text.split_eq_cons lineFeed source
  constructor
  · rintro ⟨-, -, start, -⟩
    cases k with
    | zero => rfl
    | succ k =>
      simp only [lineStart, lines, hs, List.take_succ_cons, List.foldr_cons] at start
      omega
  · rintro rfl
    exact ⟨line, by simp [lines, hs], by simp [lineStart_zero], by simp⟩

theorem onLine_lineFeed (source : List UInt8) (k offset : Nat) :
    OnLine (lineFeed :: source) k (offset + 1) ↔ ∃ j, k = j + 1 ∧ OnLine source j offset := by
  cases k with
  | zero =>
    simp [OnLine, lines, lineStart_zero]
  | succ k =>
    simp only [OnLine, lineStart_lineFeed, lines, Text.split_cons_self, List.getElem?_cons_succ,
      Nat.add_right_cancel_iff]
    constructor
    · rintro ⟨line, at_k, lo, hi⟩
      exact ⟨k, rfl, line, at_k, by omega, by omega⟩
    · rintro ⟨j, rfl, line, at_k, lo, hi⟩
      exact ⟨line, at_k, by omega, by omega⟩

theorem onLine_cons {b : UInt8} (h : b ≠ lineFeed) (source : List UInt8) (k offset : Nat) :
    OnLine (b :: source) k (offset + 1) ↔ OnLine source k offset := by
  obtain ⟨line, rest, hs⟩ := Text.split_eq_cons lineFeed source
  cases k with
  | zero =>
    simp [OnLine, lines, lineStart_zero, Text.split_cons_of_ne h hs, hs]
  | succ k =>
    simp only [OnLine, lineStart_cons h, lines, Text.split_cons_of_ne h hs, hs,
      List.getElem?_cons_succ]
    constructor
    · rintro ⟨line, at_k, lo, hi⟩
      exact ⟨line, at_k, by omega, by omega⟩
    · rintro ⟨line, at_k, lo, hi⟩
      exact ⟨line, at_k, by omega, by omega⟩

/-! ## The two ways agree -/

/-- **An offset lies on the line whose number is the count of line feeds before it.** -/
theorem onLine_iff {source : List UInt8} {offset : Nat} (h : offset ≤ source.length) (k : Nat) :
    OnLine source k offset ↔ (source.take offset).count lineFeed = k := by
  induction source generalizing offset k with
  | nil =>
    obtain rfl : offset = 0 := Nat.le_zero.mp h
    rw [onLine_zero, List.take_zero, List.count_nil, eq_comm]
  | cons b source ih =>
    cases offset with
    | zero => rw [onLine_zero, List.take_zero, List.count_nil, eq_comm]
    | succ offset =>
      have inside : offset ≤ source.length := by simpa using h
      rw [List.take_succ_cons]
      by_cases hb : b = lineFeed
      · subst hb
        rw [onLine_lineFeed, List.count_cons_self]
        constructor
        · rintro ⟨j, rfl, hj⟩
          rw [(ih inside j).mp hj]
        · rintro rfl
          exact ⟨_, rfl, (ih inside _).mpr rfl⟩
      · rw [onLine_cons hb, List.count_cons_of_ne hb]
        exact ih inside k

/-- What lies on a line lies in the source, or at its end. -/
theorem OnLine.le {source : List UInt8} {k offset : Nat} (h : OnLine source k offset) :
    offset ≤ source.length := by
  induction source generalizing k offset with
  | nil =>
    obtain ⟨line, at_k, -, stop⟩ := h
    cases k with
    | zero =>
      obtain rfl : [] = line := by simpa [lines, Text.split] using at_k
      simpa [lineStart_zero] using stop
    | succ k => simp [lines, Text.split] at at_k
  | cons b source ih =>
    cases offset with
    | zero => exact Nat.zero_le _
    | succ offset =>
      refine Nat.succ_le_succ ?_
      by_cases hb : b = lineFeed
      · subst hb
        obtain ⟨j, -, hj⟩ := (onLine_lineFeed source k offset).mp h
        exact ih hj
      · exact ih ((onLine_cons hb source k offset).mp h)

/-- The line of a position, for an offset in the source. -/
theorem position_line (source : List UInt8) (offset : Nat) :
    (position source offset).line = (source.take offset).count lineFeed + 1 := by
  have forward : ¬ (offset : Int) < 0 := by omega
  simp [position, before, forward]

/-! ## The bytes of a line -/

/-- **The lines lie where they should.** At the start of a line stands the line, which has no line
feed in it, and after it a line feed or the end of the source. -/
theorem drop_lineStart {source line : List UInt8} {k : Nat} (h : (lines source)[k]? = some line) :
    lineFeed ∉ line ∧ ∃ rest, source.drop (lineStart source k) = line ++ rest ∧
      (rest = [] ∨ ∃ next, rest = lineFeed :: next) := by
  induction source generalizing k line with
  | nil =>
    cases k with
    | zero =>
      obtain rfl : [] = line := by simpa [lines, Text.split] using h
      exact ⟨by simp, [], by simp, Or.inl rfl⟩
    | succ k => simp [lines, Text.split] at h
  | cons b source ih =>
    by_cases hb : b = lineFeed
    · subst hb
      cases k with
      | zero =>
        obtain rfl : [] = line := by simpa [lines] using h
        exact ⟨by simp, _, by simp [lineStart_zero], Or.inr ⟨source, rfl⟩⟩
      | succ k =>
        rw [lineStart_lineFeed, List.drop_succ_cons]
        exact ih (by simpa [lines] using h)
    · obtain ⟨first, rest, hs⟩ := Text.split_eq_cons lineFeed source
      cases k with
      | zero =>
        obtain rfl : b :: first = line := by simpa [lines, Text.split_cons_of_ne hb hs] using h
        have front : (lines source)[0]? = some first := by simp [lines, hs]
        obtain ⟨unbroken, after, here, ends⟩ := ih front
        rw [lineStart_zero, List.drop_zero] at here ⊢
        exact ⟨by simp [Ne.symm hb, unbroken], after, by rw [here]; rfl, ends⟩
      | succ k =>
        rw [lineStart_cons hb, List.drop_succ_cons]
        exact ih (by simpa [lines, Text.split_cons_of_ne hb hs, hs] using h)

end LuaLint.Source
