/-!
# Taking a sequence apart

A reader of a sequence takes what is left of it and returns a value with what is left after that. A
**step** also proves how much was used up, so that readers may call one another in any pattern and
each reading still ends: what is left gets shorter.

`split sep` cuts a sequence at every separator. The separators are dropped, so there is always one
more piece than there are separators, and an empty sequence has one piece, the empty one.
-/

namespace LuaLint

/-! ## Steps of a reader -/

/-- A value that was read, and what is left after it: fewer than `limit` items. -/
structure Step (σ α : Type) (limit : Nat) where
  value : α
  rest : List σ
  rest_lt : rest.length < limit

namespace Step

variable {σ : Type}

/-- A reader that may leave the sequence as it is leaves fewer items than one more than there were. -/
theorem none_used (text : List σ) : text.length < text.length + 1 :=
  Nat.lt_succ_self text.length

/-- A reader that uses up the first item leaves fewer than there were. -/
theorem one_used (first : σ) (rest : List σ) : rest.length < (first :: rest).length :=
  Nat.lt_succ_self rest.length

end Step

namespace Text

/-! ## Pieces between separators -/

variable {α : Type} [DecidableEq α]

/-- The pieces between the separators. -/
def split (sep : α) : List α → List (List α)
  | [] => [[]]
  | x :: rest =>
    if x = sep then [] :: split sep rest
    else match split sep rest with
      | piece :: pieces => (x :: piece) :: pieces
      | [] => [[x]]

theorem split_ne_nil (sep : α) (xs : List α) : split sep xs ≠ [] := by
  cases xs with
  | nil => simp [split]
  | cons x rest =>
    simp only [split]
    split
    · simp
    · split <;> simp

theorem length_split (sep : α) (xs : List α) : (split sep xs).length = xs.count sep + 1 := by
  induction xs with
  | nil => rfl
  | cons x rest ih =>
    simp only [split]
    by_cases h : x = sep
    · simp [h, ih]
    · have hne := split_ne_nil sep rest
      simp only [h, if_false]
      cases hs : split sep rest with
      | nil => exact absurd hs hne
      | cons piece pieces =>
        rw [hs] at ih
        simpa [List.count_cons, h] using ih

@[simp] theorem split_cons_self (sep : α) (xs : List α) :
    split sep (sep :: xs) = [] :: split sep xs := by
  simp [split]

/-- Anything else goes to the front of the first piece. -/
theorem split_cons_of_ne {sep x : α} (h : x ≠ sep) {xs piece : List α} {pieces : List (List α)}
    (hs : split sep xs = piece :: pieces) : split sep (x :: xs) = (x :: piece) :: pieces := by
  simp [split, h, hs]

theorem split_eq_cons (sep : α) (xs : List α) :
    ∃ piece pieces, split sep xs = piece :: pieces :=
  List.exists_cons_of_ne_nil (split_ne_nil sep xs)

theorem split_of_not_mem {sep : α} {xs : List α} (h : sep ∉ xs) : split sep xs = [xs] := by
  induction xs with
  | nil => rfl
  | cons x xs ih =>
    rw [List.mem_cons, not_or] at h
    exact split_cons_of_ne (Ne.symm h.1) (ih h.2)

/-- **A separator cuts for good**: the pieces before it and the pieces after it do not depend on each
other. -/
theorem split_append (sep : α) (xs ys : List α) :
    split sep (xs ++ sep :: ys) = split sep xs ++ split sep ys := by
  induction xs with
  | nil => simp [split]
  | cons x xs ih =>
    by_cases h : x = sep
    · subst h
      simp [ih]
    · obtain ⟨piece, pieces, hs⟩ := split_eq_cons sep xs
      rw [List.cons_append, split_cons_of_ne h hs]
      exact split_cons_of_ne h (by rw [ih, hs]; rfl)

/-- The items of a piece are items of the sequence, and none of them is the separator. -/
theorem mem_of_mem_split {sep : α} {xs piece : List α} (h : piece ∈ split sep xs) :
    ∀ x ∈ piece, x ∈ xs ∧ x ≠ sep := by
  induction xs generalizing piece with
  | nil =>
    rw [split, List.mem_singleton] at h
    simp [h]
  | cons y ys ih =>
    by_cases separates : y = sep
    · subst separates
      rw [split_cons_self, List.mem_cons] at h
      intro x hx
      rcases h with rfl | h
      · cases hx
      · exact ⟨List.mem_cons_of_mem y (ih h x hx).1, (ih h x hx).2⟩
    · obtain ⟨first, others, cut⟩ := split_eq_cons sep ys
      rw [split_cons_of_ne separates cut, List.mem_cons] at h
      rw [cut] at ih
      intro x hx
      rcases h with rfl | h
      · rcases List.mem_cons.mp hx with rfl | hx
        · exact ⟨List.mem_cons_self, separates⟩
        · obtain ⟨inside, apart⟩ := ih List.mem_cons_self x hx
          exact ⟨List.mem_cons_of_mem y inside, apart⟩
      · obtain ⟨inside, apart⟩ := ih (List.mem_cons_of_mem first h) x hx
        exact ⟨List.mem_cons_of_mem y inside, apart⟩

/-- **Pieces without a separator in them, joined, are the pieces of what they make.** -/
theorem split_intercalate {sep : α} {pieces : List (List α)} (some : pieces ≠ [])
    (apart : ∀ piece ∈ pieces, sep ∉ piece) : split sep ([sep].intercalate pieces) = pieces := by
  induction pieces with
  | nil => exact absurd rfl some
  | cons piece rest ih =>
    obtain ⟨first, others⟩ := List.forall_mem_cons.mp apart
    cases rest with
    | nil => rw [List.intercalate_singleton, split_of_not_mem first]
    | cons next rest =>
      rw [List.intercalate_cons_cons, List.append_assoc, List.singleton_append, split_append,
        split_of_not_mem first, ih (List.cons_ne_nil next rest) others]
      rfl

/-- The first separator is found whatever stands behind it. -/
theorem append_separator_inj {sep : α} {front front' rest rest' : List α} (h : sep ∉ front)
    (h' : sep ∉ front') (same : front ++ sep :: rest = front' ++ sep :: rest') :
    front = front' ∧ rest = rest' := by
  have cut := congrArg (split sep) same
  rw [split_append, split_append, split_of_not_mem h, split_of_not_mem h'] at cut
  obtain ⟨rfl, -⟩ := List.cons.inj cut
  exact ⟨rfl, (List.cons.inj (List.append_cancel_left same)).2⟩

/-- What has no separator in it goes to the end of the last piece. -/
theorem split_append_of_not_mem {sep : α} {tail : List α} (h : sep ∉ tail) (xs : List α) :
    ∃ front last, split sep xs = front ++ [last] ∧
      split sep (xs ++ tail) = front ++ [last ++ tail] := by
  induction xs with
  | nil => exact ⟨[], [], rfl, split_of_not_mem h⟩
  | cons x xs ih =>
    obtain ⟨front, last, cut, longer⟩ := ih
    by_cases hx : x = sep
    · subst hx
      refine ⟨[] :: front, last, ?_, ?_⟩
      · rw [split_cons_self, cut, List.cons_append]
      · rw [List.cons_append, split_cons_self, longer, List.cons_append]
    · cases front with
      | nil =>
        exact ⟨[], x :: last, split_cons_of_ne hx cut, split_cons_of_ne hx longer⟩
      | cons piece front =>
        exact ⟨(x :: piece) :: front, last, split_cons_of_ne hx cut, split_cons_of_ne hx longer⟩

/-- A change of the items that keeps the separators keeps the cuts. -/
theorem split_map {sep : α} {f : α → α} (keeps : ∀ x, f x = sep ↔ x = sep) (xs : List α) :
    split sep (xs.map f) = (split sep xs).map (List.map f) := by
  induction xs with
  | nil => rfl
  | cons x xs ih =>
    by_cases h : x = sep
    · have same : f x = sep := (keeps x).mpr h
      rw [List.map_cons, same, h, split_cons_self, split_cons_self, ih]
      rfl
    · obtain ⟨piece, pieces, hs⟩ := split_eq_cons sep xs
      rw [hs] at ih
      rw [List.map_cons, split_cons_of_ne (mt (keeps x).mp h) ih, split_cons_of_ne h hs]
      rfl

end Text

end LuaLint
