import LuaLint.Proofs.Text.Lower
import Mathlib.Data.List.Basic

/-!
# Trimming and lower-casing settle at once

A text that was trimmed and then lower-cased is changed by neither of them any more.

* **Trimmed texts** (`trimmed_trim`, `trim_of_trimmed`): after trimming no blank stands at either end, and
  such a text is left as it is.
* **Images** (`small_of_image?`, `solid_of_image?`): the table of lower-case forms is closed. No form that it
  gives has another form itself, and none is a blank, a comma or one of the two letters with rules of
  their own. This is read off the ends of the runs, run by run (`runs_miss`, `runs_avoid`), and not
  letter by letter.
* **One step** (`lowerAfter_cons`): whatever stands around a character, one or two characters come in its
  place. They are small, and are either that character or neither a blank nor a comma.
* **Whole texts** (`mem_lower`, `lower_lower`, `Trimmed.lower`): so a lower-cased text is small, has the
  commas that the text had and no others, and begins and ends with a blank only if the text did.
-/

namespace LuaLint.Text

/-! ## Trimmed texts -/

/-- No blank stands at either end of the text. -/
structure Trimmed (text : List Char) : Prop where
  begins : ∀ c ∈ text.head?, isBlank c = false
  ends : ∀ c ∈ text.getLast?, isBlank c = false

/-- No blank is dropped from the front if none stands there. -/
theorem dropWhile_of_begins {text : List Char} (h : ∀ c ∈ text.head?, isBlank c = false) :
    text.dropWhile isBlank = text := by
  cases text with
  | nil => rfl
  | cons c text => exact List.dropWhile_cons_of_neg (by simp [h c rfl])

/-- What is left begins with no blank. -/
theorem begins_dropWhile (text : List Char) :
    ∀ c ∈ (text.dropWhile isBlank).head?, isBlank c = false := by
  intro c hc
  have first := List.head?_dropWhile_not isBlank text
  rw [Option.mem_def.mp hc] at first
  exact first

/-- A text with no blank at its ends is trimmed already. -/
theorem trim_of_trimmed {text : List Char} (h : Trimmed text) : trim text = text := by
  have back : text.reverse.dropWhile isBlank = text.reverse := by
    apply dropWhile_of_begins
    rw [List.head?_reverse]
    exact h.ends
  rw [trim, dropWhile_of_begins h.begins, back, List.reverse_reverse]

/-- The last character stays the last if characters are dropped from the front. -/
theorem getLast?_dropWhile {text : List Char} {c : Char}
    (h : c ∈ (text.dropWhile isBlank).getLast?) : c ∈ text.getLast? := by
  have nonempty : text.dropWhile isBlank ≠ [] := by
    intro nothing
    rw [nothing] at h
    cases h
  rw [← List.takeWhile_append_dropWhile (p := isBlank) (l := text),
    List.getLast?_append_of_ne_nil _ nonempty]
  exact h

/-- **After trimming no blank stands at either end.** -/
theorem trimmed_trim (text : List Char) : Trimmed (trim text) where
  begins := by
    intro c hc
    rw [trim, List.head?_reverse] at hc
    have first := getLast?_dropWhile hc
    rw [List.getLast?_reverse] at first
    exact begins_dropWhile text c first
  ends := by
    intro c hc
    rw [trim, List.getLast?_reverse] at hc
    exact begins_dropWhile _ c hc

/-- Trimming puts in no characters. -/
theorem mem_of_mem_trim {text : List Char} {c : Char} (h : c ∈ trim text) : c ∈ text := by
  have front := (List.dropWhile_sublist isBlank).subset (List.mem_reverse.mp h)
  exact (List.dropWhile_sublist isBlank).subset (List.mem_reverse.mp front)

/-- Blanks on both sides of any text are taken off. -/
theorem trim_padded {before after : List Char} (hb : ∀ c ∈ before, isBlank c = true)
    (ha : ∀ c ∈ after, isBlank c = true) (text : List Char) :
    trim (before ++ text ++ after) = trim text := by
  rw [trim_append_blank ha, trim, List.dropWhile_append_of_pos hb, trim]

/-! ## Images -/

/-- A small character: lower-casing leaves it as it is, whatever stands around it. -/
structure Small (c : Char) : Prop where
  fixed : lowerChar c = c
  ne_dotted : c ≠ 'İ'
  ne_sigma : c ≠ 'Σ'

/-- The character is neither a blank nor a comma. -/
structure Solid (c : Char) : Prop where
  isBlank_eq : isBlank c = false
  ne_comma : c ≠ ','

namespace LowerRun

/-- The lower-case form of the first character of the run. -/
def low (r : LowerRun) : Nat := (r.first + r.offset).toNat

/-- The lower-case form of the last character of the run. -/
def high (r : LowerRun) : Nat := (r.last + r.offset).toNat

/-- The distance between neighbours, or zero if the run has one character only. -/
def gap (r : LowerRun) : Nat := if r.first = r.last then 0 else r.stride

/-- All lower-case forms of the run are below or above an interval. -/
def avoids (r : LowerRun) (first last : Nat) : Bool := Nat.blt r.high first || Nat.blt last r.low

/-- No lower-case form of the run is in the other run: it is below or above, or between two neighbours. -/
def misses (r other : LowerRun) : Bool :=
  r.avoids other.first other.last ||
    (r.gap % other.stride).beq 0 && !((r.low - other.first) % other.stride).beq 0

variable {r other : LowerRun} {n m : Nat}

theorem image?_eq_some_iff : r.image? n = some m ↔
    (r.first ≤ n ∧ n ≤ r.last ∧ (n - r.first) % r.stride = 0) ∧ (n + r.offset : Int).toNat = m := by
  simp [image?, and_assoc]

/-- A lower-case form lies between those of the ends. -/
theorem bounds (h : r.image? n = some m) : r.low ≤ m ∧ m ≤ r.high := by
  obtain ⟨⟨above, below, -⟩, rfl⟩ := image?_eq_some_iff.mp h
  unfold low high
  omega

/-- An interval that all lower-case forms avoid holds none of them. -/
theorem not_between {first last : Nat} (apart : r.avoids first last = true) (h : r.image? n = some m) :
    ¬ (first ≤ m ∧ m ≤ last) := by
  have ends := bounds h
  simp only [avoids, Bool.or_eq_true, Nat.blt_eq] at apart
  omega

/-- The forms stand as far apart as the characters. -/
theorem form_eq (positive : 0 < r.low) (h : r.image? n = some m) : m = r.low + (n - r.first) := by
  obtain ⟨⟨above, -, -⟩, rfl⟩ := image?_eq_some_iff.mp h
  unfold low at positive ⊢
  omega

theorem gap_dvd (h : r.image? n = some m) : r.gap ∣ n - r.first := by
  obtain ⟨⟨above, below, onStride⟩, -⟩ := image?_eq_some_iff.mp h
  unfold gap
  split
  · have alone : n - r.first = 0 := by omega
    simp [alone]
  · exact Nat.dvd_of_mod_eq_zero onStride

/-- **A lower-case form has no other form in a run that is missed.** -/
theorem image?_of_misses (apart : r.misses other = true) (h : r.image? n = some m) :
    other.image? m = none := by
  by_contra some
  obtain ⟨k, hk⟩ := Option.ne_none_iff_exists'.mp some
  obtain ⟨⟨above, below, onStride⟩, -⟩ := image?_eq_some_iff.mp hk
  rw [misses, Bool.or_eq_true] at apart
  rcases apart with outside | between
  · exact not_between outside h ⟨above, below⟩
  · -- all forms are as far off the strides of the other run as the first one
    simp only [Bool.and_eq_true, Bool.not_eq_true'] at between
    have divides := Nat.dvd_of_mod_eq_zero (Nat.eq_of_beq_eq_true between.1)
    have off := Nat.ne_of_beq_eq_false between.2
    have beyond : other.first < r.low := by
      by_contra le
      apply off
      rw [Nat.sub_eq_zero_of_le (Nat.le_of_not_lt le), Nat.zero_mod]
    have shift : m - other.first = (r.low - other.first) + (n - r.first) := by
      have form := form_eq (Nat.zero_lt_of_lt beyond) h
      omega
    obtain ⟨q, steps⟩ := Nat.dvd_trans divides (gap_dvd h)
    rw [shift, steps, Nat.add_mul_mod_self_left] at onStride
    exact off onStride

end LowerRun

/-- No lower-case form of any run is in a run. -/
theorem runs_miss : (lowerRuns.all fun r => lowerRuns.all r.misses) = true := by decide +kernel

/-- Numbers that stand for no lower-case form: blanks, the comma, the two capitals with rules of their own,
and what is no character. -/
def formless : List (Nat × Nat) :=
  blankIntervals ++ [(0x2C, 0x2C), (0x130, 0x130), (0x3A3, 0x3A3), (0xD800, 0xDFFF)]

/-- No lower-case form of any run is among them, and all are characters. -/
theorem runs_avoid : (lowerRuns.all fun r =>
    Nat.blt r.high 0x110000 && formless.all fun i => r.avoids i.1 i.2) = true := by decide +kernel

section

variable {r : LowerRun} {n m : Nat} (run : r ∈ lowerRuns) (h : r.image? n = some m)

include run h

/-- What a run gives is a character, and none of the numbers that stand for no lower-case form. -/
theorem formed_of_image? : (Char.ofNat m).toNat = m ∧ covers formless m = false := by
  have table := List.all_eq_true.mp runs_avoid r run
  rw [Bool.and_eq_true, Nat.blt_eq, List.all_eq_true] at table
  obtain ⟨below, apart⟩ := table
  have outside : ∀ i ∈ formless, ¬ (i.1 ≤ m ∧ m ≤ i.2) := by
    intro i hi
    exact LowerRun.not_between (apart i hi) h
  constructor
  · have scalar := outside (0xD800, 0xDFFF) (by decide)
    have top := (LowerRun.bounds h).2
    have valid : m.isValidChar := by
      unfold Nat.isValidChar
      omega
    rw [Char.ofNat, dif_pos valid]
    rfl
  · simpa [covers] using outside

theorem ne_of_image? {d : Char} (listed : covers formless d.toNat = true) : Char.ofNat m ≠ d := by
  obtain ⟨number, apart⟩ := formed_of_image? run h
  intro same
  rw [← same, number, apart] at listed
  cases listed

/-- What a run gives has no other lower-case form. -/
theorem small_of_image? : Small (Char.ofNat m) where
  fixed := by
    have none : lowerRuns.findSome? (·.image? (Char.ofNat m).toNat) = none := by
      rw [List.findSome?_eq_none_iff, (formed_of_image? run h).1]
      intro other among
      have apart := List.all_eq_true.mp (List.all_eq_true.mp runs_miss r run) other among
      exact LowerRun.image?_of_misses apart h
    rw [lowerChar, none]
  ne_dotted := ne_of_image? run h (by decide)
  ne_sigma := ne_of_image? run h (by decide)

/-- What a run gives is neither a blank nor a comma. -/
theorem solid_of_image? : Solid (Char.ofNat m) where
  isBlank_eq := by
    obtain ⟨number, apart⟩ := formed_of_image? run h
    rw [formless, covers, List.any_append, Bool.or_eq_false_iff] at apart
    rw [isBlank, number]
    exact apart.1
  ne_comma := ne_of_image? run h (by decide)

end

/-- **The lower-case form of a character is its own, or that of a capital.** -/
theorem lowerChar_eq_or (c : Char) :
    lowerChar c = c ∨ Small (lowerChar c) ∧ Solid (lowerChar c) := by
  cases found : lowerRuns.findSome? (·.image? c.toNat) with
  | none => exact .inl (by rw [lowerChar, found])
  | some m =>
    obtain ⟨r, run, form⟩ := List.exists_of_findSome?_eq_some found
    have image : lowerChar c = Char.ofNat m := by rw [lowerChar, found]
    rw [image]
    exact .inr ⟨small_of_image? run form, solid_of_image? run form⟩

/-! ## One step -/

/-- What may come in the place of a character. -/
structure LowersTo (c : Char) (image : List Char) : Prop where
  ne_nil : image ≠ []
  small : ∀ d ∈ image, Small d
  same_or_solid : ∀ d ∈ image, d = c ∨ Solid d

/-- The four characters that come in the place of the two capitals with rules of their own. -/
theorem small_of_special {d : Char} (h : d ∈ ['i', '\u0307', 'ς', 'σ']) : Small d ∧ Solid d := by
  have all : (['i', '\u0307', 'ς', 'σ'].all fun d =>
      lowerChar d == d && d != 'İ' && d != 'Σ' && !isBlank d && d != ',') = true := by decide +kernel
  have checked := List.all_eq_true.mp all d h
  simp only [Bool.and_eq_true, beq_iff_eq, bne_iff_ne, Bool.not_eq_true'] at checked
  obtain ⟨⟨⟨⟨fixed, ne_dotted⟩, ne_sigma⟩, isBlank_eq⟩, ne_comma⟩ := checked
  exact ⟨⟨fixed, ne_dotted, ne_sigma⟩, isBlank_eq, ne_comma⟩

theorem lowersTo_of_special {c : Char} {image : List Char} (ne_nil : image ≠ [])
    (special : ∀ d ∈ image, d ∈ ['i', '\u0307', 'ς', 'σ']) : LowersTo c image where
  ne_nil := ne_nil
  small d hd := (small_of_special (special d hd)).1
  same_or_solid d hd := .inr (small_of_special (special d hd)).2

/-- The other characters come down by the table. -/
theorem lowersTo_lowerChar {c : Char} (undotted : c ≠ 'İ') (sigma : c ≠ 'Σ') :
    LowersTo c [lowerChar c] where
  ne_nil := List.cons_ne_nil _ _
  small := by
    rintro d (_ | ⟨_, ⟨⟩⟩)
    rcases lowerChar_eq_or c with own | ⟨small, -⟩
    · rw [own]
      exact ⟨own, undotted, sigma⟩
    · exact small
  same_or_solid := by
    rintro d (_ | ⟨_, ⟨⟩⟩)
    exact (lowerChar_eq_or c).imp id And.right

/-- **What comes in the place of a character**, whatever stands around it. -/
theorem lowerAfter_cons (before : List Char) (c : Char) (text : List Char) :
    ∃ image, lowerAfter before (c :: text) = image ++ lowerAfter (c :: before) text ∧
      LowersTo c image := by
  by_cases dotted : c = 'İ'
  · subst dotted
    exact ⟨['i', '\u0307'], rfl, lowersTo_of_special (by simp) (by simp)⟩
  · by_cases sigma : c = 'Σ'
    · subst sigma
      refine ⟨[if meetsCased before && !meetsCased text then 'ς' else 'σ'], rfl,
        lowersTo_of_special (by simp) ?_⟩
      intro d hd
      rw [List.mem_singleton.mp hd]
      split <;> simp
    · exact ⟨[lowerChar c], lowerAfter.eq_4 _ _ _ dotted sigma, lowersTo_lowerChar dotted sigma⟩

/-! ## Whole texts -/

/-- A character of a lower-cased text is small, and stood in the text or is neither a blank nor a
comma. -/
theorem mem_lowerAfter {before text : List Char} {d : Char} (h : d ∈ lowerAfter before text) :
    Small d ∧ (d ∈ text ∨ Solid d) := by
  induction text generalizing before with
  | nil => cases h
  | cons c text ih =>
    obtain ⟨image, step, lowers⟩ := lowerAfter_cons before c text
    rw [step, List.mem_append] at h
    rcases h with here | later
    · refine ⟨lowers.small d here, ?_⟩
      rcases lowers.same_or_solid d here with rfl | solid
      · exact .inl List.mem_cons_self
      · exact .inr solid
    · obtain ⟨small, origin⟩ := ih later
      exact ⟨small, origin.imp (List.mem_cons_of_mem c) id⟩

theorem mem_lower {text : List Char} {d : Char} (h : d ∈ lower text) :
    Small d ∧ (d ∈ text ∨ Solid d) :=
  mem_lowerAfter h

/-- A text of small characters is left as it is. -/
theorem lower_of_small {text : List Char} (h : ∀ c ∈ text, Small c) : lower text = text := by
  have after : ∀ before, lowerAfter before text = text := by
    induction text with
    | nil => exact fun _ => rfl
    | cons c text ih =>
      intro before
      obtain ⟨small, others⟩ := List.forall_mem_cons.mp h
      rw [lowerAfter.eq_4 _ _ _ small.ne_dotted small.ne_sigma, small.fixed, ih others]
  exact after []

/-- **Lower-casing twice changes nothing more.** -/
theorem lower_lower (text : List Char) : lower (lower text) = lower text :=
  lower_of_small fun _ h => (mem_lower h).1

/-- Something comes in the place of every character. -/
theorem lower_eq_nil_iff {text : List Char} : lower text = [] ↔ text = [] := by
  constructor
  · intro nothing
    cases text with
    | nil => rfl
    | cons c text =>
      obtain ⟨image, step, lowers⟩ := lowerAfter_cons [] c text
      rw [lower, step, List.append_eq_nil_iff] at nothing
      exact absurd nothing.1 lowers.ne_nil
  · rintro rfl
    rfl

/-- A text is lower-cased up to any place, and from there on with what stood before in view. -/
theorem lowerAfter_append (before text rest : List Char) :
    ∃ front, lowerAfter before (text ++ rest) = front ++ lowerAfter (text.reverse ++ before) rest := by
  induction text generalizing before with
  | nil => exact ⟨[], rfl⟩
  | cons c text ih =>
    obtain ⟨image, step, -⟩ := lowerAfter_cons before c (text ++ rest)
    obtain ⟨front, later⟩ := ih (c :: before)
    refine ⟨image ++ front, ?_⟩
    rw [List.cons_append, step, later, List.append_assoc, List.reverse_cons, List.append_assoc,
      List.singleton_append]

/-- What comes in the place of a character that is no blank holds no blank. -/
theorem LowersTo.isBlank_eq {c d : Char} {image : List Char} (h : LowersTo c image)
    (hc : isBlank c = false) (hd : d ∈ image) : isBlank d = false := by
  rcases h.same_or_solid d hd with rfl | solid
  · exact hc
  · exact solid.isBlank_eq

/-- **A trimmed text is trimmed in lower case.** -/
theorem Trimmed.lower {text : List Char} (h : Trimmed text) : Trimmed (lower text) where
  begins := by
    intro d hd
    cases text with
    | nil => cases hd
    | cons c text =>
      obtain ⟨image, step, lowers⟩ := lowerAfter_cons [] c text
      rw [Text.lower, step, List.head?_append_of_ne_nil _ lowers.ne_nil] at hd
      exact lowers.isBlank_eq (h.begins c rfl) (List.mem_of_mem_head? hd)
  ends := by
    intro d hd
    rcases List.eq_nil_or_concat' text with rfl | ⟨front, c, rfl⟩
    · cases hd
    · obtain ⟨lowered, cut⟩ := lowerAfter_append [] front [c]
      obtain ⟨image, step, lowers⟩ := lowerAfter_cons (front.reverse ++ []) c []
      rw [Text.lower, cut, step, lowerAfter, List.append_nil,
        List.getLast?_append_of_ne_nil _ lowers.ne_nil] at hd
      exact lowers.isBlank_eq (h.ends c (by simp)) (List.mem_of_getLast? hd)

end LuaLint.Text
