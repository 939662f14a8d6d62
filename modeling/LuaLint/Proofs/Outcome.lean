import Mathlib.Data.List.Forall2

/-!
# Outcomes of attempts

An attempt ends with a value or with an error. A chain of attempts ends with a value exactly if each
of them does, and of a list of attempts any part may be taken alone.

* **A chain** (`bind_eq_ok`) is taken apart into what the first attempt and what the second gave.
* **A list** (`mapM_cons_eq_ok`, `mapM_filter`) is taken apart in the same way, item by item, and gives
  values if each item does (`exists_mapM_eq_ok`). The values stand beside the items that give them
  (`mapM_eq_ok_iff`). Otherwise the first item that fails decides the error (`mapM_eq_error_iff`).
-/

namespace LuaLint.Outcome

variable {α β ε : Type}

/-- An attempt that does not fail gives a value. -/
theorem exists_of_isOk {x : Except ε α} (h : x.isOk = true) : ∃ a, x = .ok a := by
  rcases x with e | a
  · cases h
  · exact ⟨a, rfl⟩

/-- What is checked on an attempt holds of its value. -/
theorem of_all_toOption {x : Except ε α} {a : α} {p : α → Bool} (h : x.toOption.all p = true)
    (value : x = .ok a) : p a = true := by
  rw [value] at h
  exact h

/-- **A chain of two attempts gives a value exactly if both do.** -/
theorem bind_eq_ok {x : Except ε α} {f : α → Except ε β} {b : β} :
    x >>= f = .ok b ↔ ∃ a, x = .ok a ∧ f a = .ok b := by
  rcases x with e | a
  · simp [bind, Except.bind]
  · simp [bind, Except.bind]

/-- What is done with the value does not make an attempt fail. -/
theorem map_eq_error_iff {x : Except ε α} {f : α → β} {e : ε} : x.map f = .error e ↔ x = .error e := by
  rcases x with e' | a
  · simp [Except.map]
  · simp [Except.map]

/-- An attempt whose error is called something else gives the same values. -/
theorem mapError_eq_ok_iff {ε' : Type} {x : Except ε α} {f : ε → ε'} {a : α} :
    x.mapError f = .ok a ↔ x = .ok a := by
  rcases x with e | a'
  · simp [Except.mapError]
  · simp [Except.mapError]

/-- A list of attempts gives values exactly if the first does and the others do. -/
theorem mapM_cons_eq_ok {f : α → Except ε β} {x : α} {xs : List α} {ys : List β} :
    (x :: xs).mapM f = .ok ys ↔ ∃ y rest, f x = .ok y ∧ xs.mapM f = .ok rest ∧ ys = y :: rest := by
  rw [List.mapM_cons, bind_eq_ok]
  simp only [bind_eq_ok, pure, Except.pure, Except.ok.injEq]
  constructor
  · rintro ⟨y, first, rest, others, rfl⟩
    exact ⟨y, rest, first, others, rfl⟩
  · rintro ⟨y, rest, first, others, rfl⟩
    exact ⟨y, first, rest, others, rfl⟩

/-- **A list of attempts gives the values that its items give, one beside the other.** -/
theorem mapM_eq_ok_iff {f : α → Except ε β} {xs : List α} {ys : List β} :
    xs.mapM f = .ok ys ↔ List.Forall₂ (fun x y => f x = .ok y) xs ys := by
  induction xs generalizing ys with
  | nil =>
    rw [List.mapM_nil, List.forall₂_nil_left_iff]
    constructor
    · intro h
      cases h
      rfl
    · rintro rfl
      rfl
  | cons x xs ih =>
    rw [mapM_cons_eq_ok, List.forall₂_cons_left_iff]
    constructor
    · rintro ⟨y, rest, first, others, rfl⟩
      exact ⟨y, rest, first, ih.mp others, rfl⟩
    · rintro ⟨y, rest, first, others, rfl⟩
      exact ⟨y, rest, first, ih.mpr others, rfl⟩

/-- Each of the values is one that an item gives. -/
theorem exists_of_mem_mapM {f : α → Except ε β} {xs : List α} {ys : List β}
    (h : xs.mapM f = .ok ys) : ∀ y ∈ ys, ∃ x ∈ xs, f x = .ok y := by
  induction xs generalizing ys with
  | nil =>
    cases h
    intro y hy
    cases hy
  | cons x xs ih =>
    obtain ⟨first, rest, given, others, rfl⟩ := mapM_cons_eq_ok.mp h
    intro y hy
    rcases List.mem_cons.mp hy with rfl | hy
    · exact ⟨x, List.mem_cons_self, given⟩
    · obtain ⟨x', hx', eq⟩ := ih others y hy
      exact ⟨x', List.mem_cons_of_mem x hx', eq⟩

/-- Each of the items gives one of the values. -/
theorem forall_of_mapM_eq_ok {f : α → Except ε β} {xs : List α} {ys : List β}
    (h : xs.mapM f = .ok ys) : ∀ x ∈ xs, ∃ y ∈ ys, f x = .ok y := by
  induction xs generalizing ys with
  | nil => exact fun x none => absurd none List.not_mem_nil
  | cons x xs ih =>
    obtain ⟨first, rest, given, others, rfl⟩ := mapM_cons_eq_ok.mp h
    refine List.forall_mem_cons.mpr ⟨⟨first, List.mem_cons_self, given⟩, fun z hz => ?_⟩
    obtain ⟨y, hy, same⟩ := ih others z hz
    exact ⟨y, List.mem_cons_of_mem first hy, same⟩

/-- Attempts that each give a value give values together. -/
theorem exists_mapM_eq_ok {f : α → Except ε β} {xs : List α} (h : ∀ x ∈ xs, ∃ y, f x = .ok y) :
    ∃ ys, xs.mapM f = .ok ys := by
  induction xs with
  | nil => exact ⟨[], rfl⟩
  | cons x xs ih =>
    obtain ⟨y, first⟩ := h x (by simp)
    obtain ⟨rest, others⟩ := ih fun x hx => h x (by simp [hx])
    exact ⟨y :: rest, mapM_cons_eq_ok.mpr ⟨y, rest, first, others, rfl⟩⟩

/-- Attempts that end alike item by item end alike together. -/
theorem mapM_congr {f g : α → Except ε β} {xs : List α} (same : ∀ x ∈ xs, f x = g x) :
    xs.mapM f = xs.mapM g := by
  induction xs with
  | nil => rfl
  | cons x xs ih =>
    obtain ⟨first, others⟩ := List.forall_mem_cons.mp same
    rw [List.mapM_cons, List.mapM_cons, first, ih others]

theorem mapM_cons_of_error {f : α → Except ε β} {x : α} {e : ε} (first : f x = .error e) (xs : List α) :
    (x :: xs).mapM f = .error e := by
  rw [List.mapM_cons, first]
  rfl

theorem mapM_cons_eq_error_of_ok {f : α → Except ε β} {x : α} {y : β} {e : ε} (first : f x = .ok y)
    (xs : List α) : (x :: xs).mapM f = .error e ↔ xs.mapM f = .error e := by
  rw [List.mapM_cons, first]
  rcases xs.mapM f with other | ys
  · simp [bind, Except.bind]
  · simp [bind, Except.bind, pure, Except.pure]

/-- **A list of attempts fails as the first of its items does that fails.** -/
theorem mapM_eq_error_iff {f : α → Except ε β} {xs : List α} {e : ε} :
    xs.mapM f = .error e ↔ ∃ before x after, xs = before ++ x :: after ∧
      (∀ y ∈ before, ∀ other, f y ≠ .error other) ∧ f x = .error e := by
  induction xs with
  | nil =>
    refine iff_of_false nofun ?_
    rintro ⟨before, x, after, split, -⟩
    exact List.append_ne_nil_of_right_ne_nil before (List.cons_ne_nil x after) split.symm
  | cons x xs ih =>
    rcases first : f x with failure | y
    · rw [mapM_cons_of_error first]
      constructor
      · rintro ⟨⟩
        exact ⟨[], x, xs, rfl, fun _ none => absurd none List.not_mem_nil, first⟩
      · rintro ⟨_ | ⟨z, before⟩, w, after, split, none, fails⟩
        · obtain ⟨rfl, -⟩ := List.cons.inj split
          exact congrArg Except.error (Except.error.inj (first.symm.trans fails))
        · obtain ⟨rfl, -⟩ := List.cons.inj split
          exact absurd first (none x List.mem_cons_self failure)
    · rw [mapM_cons_eq_error_of_ok first, ih]
      constructor
      · rintro ⟨before, w, after, rfl, none, fails⟩
        refine ⟨x :: before, w, after, rfl, List.forall_mem_cons.mpr ⟨?_, none⟩, fails⟩
        intro other failed
        cases first.symm.trans failed
      · rintro ⟨_ | ⟨z, before⟩, w, after, split, none, fails⟩
        · obtain ⟨rfl, -⟩ := List.cons.inj split
          cases first.symm.trans fails
        · obtain ⟨rfl, rfl⟩ := List.cons.inj split
          exact ⟨before, w, after, rfl, (List.forall_mem_cons.mp none).2, fails⟩

/-- **If attempts are made for some of the items only**, the first of those that fails decides. -/
theorem mapM_filter_eq_error_iff {f : α → Except ε β} {p : α → Bool} {xs : List α} {e : ε} :
    (xs.filter p).mapM f = .error e ↔ ∃ before x after, xs = before ++ x :: after ∧ p x = true ∧
      (∀ y ∈ before, p y = true → ∀ other, f y ≠ .error other) ∧ f x = .error e := by
  rw [mapM_eq_error_iff]
  constructor
  · rintro ⟨kept, x, others, split, none, fails⟩
    obtain ⟨early, late, rfl, rfl, later⟩ := List.filter_eq_append_iff.mp split
    obtain ⟨between, after, rfl, left, passes, -⟩ := List.filter_eq_cons_iff.mp later
    refine ⟨early ++ between, x, after, (List.append_assoc ..).symm, passes, fun y hy kept => ?_, fails⟩
    rcases List.mem_append.mp hy with hy | hy
    · exact none y (List.mem_filter.mpr ⟨hy, kept⟩)
    · exact absurd kept (left y hy)
  · rintro ⟨before, x, after, rfl, passes, none, fails⟩
    refine ⟨before.filter p, x, after.filter p, ?_, fun y hy => ?_, fails⟩
    · rw [List.filter_append, List.filter_cons_of_pos passes]
    · obtain ⟨hy, kept⟩ := List.mem_filter.mp hy
      exact none y hy kept

/-- A list of attempts fails exactly if one of its items does. -/
theorem exists_mapM_eq_error_iff {f : α → Except ε β} {xs : List α} :
    (∃ e, xs.mapM f = .error e) ↔ ∃ x ∈ xs, ∃ e, f x = .error e := by
  constructor
  · rintro ⟨e, failed⟩
    obtain ⟨before, x, after, rfl, -, fails⟩ := mapM_eq_error_iff.mp failed
    exact ⟨x, List.mem_append_right before List.mem_cons_self, e, fails⟩
  · rintro ⟨x, hx, e, fails⟩
    rcases outcome : xs.mapM f with failure | ys
    · exact ⟨failure, rfl⟩
    · obtain ⟨y, -, given⟩ := forall_of_mapM_eq_ok outcome x hx
      cases fails.symm.trans given

/-- **Attempts that all give values may be made for some of the items only**, if it can be told from
the values which items those are. -/
theorem mapM_filter {f : α → Except ε β} {p : α → Bool} {q : β → Bool} {xs : List α} {ys : List β}
    (agree : ∀ x ∈ xs, ∀ y, f x = .ok y → q y = p x) (h : xs.mapM f = .ok ys) :
    (xs.filter p).mapM f = .ok (ys.filter q) := by
  induction xs generalizing ys with
  | nil =>
    cases h
    rfl
  | cons x xs ih =>
    obtain ⟨y, rest, first, others, rfl⟩ := mapM_cons_eq_ok.mp h
    have same : q y = p x := agree x (by simp) y first
    have later := ih (fun x hx => agree x (by simp [hx])) others
    by_cases hp : p x = true
    · rw [List.filter_cons_of_pos hp, List.filter_cons_of_pos (same.trans hp)]
      exact mapM_cons_eq_ok.mpr ⟨y, _, first, later, rfl⟩
    · rw [List.filter_cons_of_neg hp, List.filter_cons_of_neg (same ▸ hp)]
      exact later

end LuaLint.Outcome
