import LuaLint.Linter

/-!
# The order of a report

A report is put in the order of a numeric key, the start of each finding, and equal keys keep the
order in which they came. `byKey` is that order for any key, and `Linter.inOrder` is its case for
diagnostics.

* **What fixes the result** (`eq_of_ties`): a list in the order of its keys is determined by what it
  holds under each single key. Under one key `byKey` leaves everything in place (`filter_byKey`), so
  every law below is a comparison key by key.
* **Selecting commutes with ordering** (`byKey_filter`), for any selection and whatever ties there
  are; so does a change which leaves the keys alone (`byKey_map`).
* **Ties stay in the order of arrival** (`byKey_pairwise`): a relation that holds from left to right
  before ordering holds between equal keys after it.
* **It can be computed** by inserting one item after the other (`byKey_eq_foldr`).
-/

namespace LuaLint

namespace Keyed

variable {α β : Type} (key : α → Nat)

/-- A list put in the order of a key; equal keys keep their order. -/
def byKey (xs : List α) : List α := xs.mergeSort fun a b => decide (key a ≤ key b)

/-- Ordering neither loses nor repeats anything. -/
theorem byKey_perm (xs : List α) : (byKey key xs).Perm xs :=
  List.mergeSort_perm xs _

/-- Ordering keeps the members. -/
@[simp] theorem mem_byKey {x : α} {xs : List α} : x ∈ byKey key xs ↔ x ∈ xs :=
  (byKey_perm key xs).mem_iff

/-- Comparing keys is transitive. -/
theorem key_le_trans (a b c : α) : decide (key a ≤ key b) = true → decide (key b ≤ key c) = true →
    decide (key a ≤ key c) = true := by
  rw [decide_eq_true_eq, decide_eq_true_eq, decide_eq_true_eq]
  exact Nat.le_trans

/-- Any two keys compare. -/
theorem key_le_total (a b : α) : (decide (key a ≤ key b) || decide (key b ≤ key a)) = true := by
  rw [Bool.or_eq_true, decide_eq_true_eq, decide_eq_true_eq]
  exact Nat.le_total (key a) (key b)

/-- The keys rise. -/
theorem byKey_sorted (xs : List α) : (byKey key xs).Pairwise fun a b => key a ≤ key b :=
  (List.pairwise_mergeSort (key_le_trans key) (key_le_total key) xs).imp fun h => of_decide_eq_true h

/-- Under a single key ordering leaves everything in place. -/
theorem filter_byKey (k : Nat) (xs : List α) :
    (byKey key xs).filter (fun x => key x = k) = xs.filter fun x => key x = k := by
  have level : (xs.filter fun x => key x = k).Pairwise fun a b => decide (key a ≤ key b) = true := by
    refine List.pairwise_of_forall_mem_list ?_
    intro a ha b hb
    simp only [List.mem_filter, decide_eq_true_eq] at ha hb
    simp [ha.2, hb.2]
  have kept : (xs.filter fun x => key x = k).Sublist (byKey key xs) :=
    List.sublist_mergeSort (key_le_trans key) (key_le_total key) level List.filter_sublist
  have inside : (xs.filter fun x => key x = k).Sublist
      ((byKey key xs).filter fun x => key x = k) := by
    simpa [List.filter_filter] using kept.filter fun x => decide (key x = k)
  exact (inside.eq_of_length ((byKey_perm key xs).filter _).length_eq.symm).symm

/-- **A list in the order of its keys is determined by what it holds under each of them.** -/
theorem eq_of_ties {xs ys : List α} (hx : xs.Pairwise fun a b => key a ≤ key b)
    (hy : ys.Pairwise fun a b => key a ≤ key b)
    (ties : ∀ k, xs.filter (fun x => key x = k) = ys.filter fun x => key x = k) : xs = ys := by
  -- both lists begin with the first element under the least key
  induction xs generalizing ys with
  | nil =>
    cases ys with
    | nil => rfl
    | cons y ys => simpa using ties (key y)
  | cons x xs ih =>
    cases ys with
    | nil => simpa using ties (key x)
    | cons y ys =>
      rw [List.pairwise_cons] at hx hy
      have hxy : key y ≤ key x := by
        have : x ∈ (y :: ys).filter fun z => key z = key x := by rw [← ties]; simp
        rcases List.mem_cons.mp (List.mem_filter.mp this |>.1) with rfl | h
        · exact Nat.le_refl _
        · exact hy.1 x h
      have hyx : key x ≤ key y := by
        have : y ∈ (x :: xs).filter fun z => key z = key y := by rw [ties]; simp
        rcases List.mem_cons.mp (List.mem_filter.mp this |>.1) with rfl | h
        · exact Nat.le_refl _
        · exact hx.1 y h
      have same : key x = key y := Nat.le_antisymm hyx hxy
      have head : x = y := by
        have h := ties (key x)
        rw [List.filter_cons_of_pos (by simp), List.filter_cons_of_pos (by simp [same])] at h
        exact (List.cons.inj h).1
      subst head
      refine congrArg (x :: ·) (ih hx.2 hy.2 fun k => ?_)
      have h := ties k
      by_cases hk : key x = k
      · rw [List.filter_cons_of_pos (by simpa), List.filter_cons_of_pos (by simpa)] at h
        exact (List.cons.inj h).2
      · rwa [List.filter_cons_of_neg (by simpa), List.filter_cons_of_neg (by simpa)] at h

/-- **Selecting commutes with ordering.** -/
theorem byKey_filter (p : α → Bool) (xs : List α) :
    byKey key (xs.filter p) = (byKey key xs).filter p := by
  refine eq_of_ties key (byKey_sorted key _) ((byKey_sorted key xs).sublist List.filter_sublist)
    fun k => ?_
  have swap : ∀ zs : List α, (zs.filter p).filter (fun x => key x = k) =
      (zs.filter fun x => key x = k).filter p := fun zs => by
    simp only [List.filter_filter, Bool.and_comm]
  rw [filter_byKey, swap, swap, filter_byKey]

/-- A change that leaves the keys alone commutes with ordering. -/
theorem byKey_map (key' : β → Nat) (f : α → β) (h : ∀ x, key' (f x) = key x) (xs : List α) :
    byKey key' (xs.map f) = (byKey key xs).map f :=
  (List.map_mergeSort fun a _ b _ => by simp only [h]).symm

/-- **Ties stay in the order of arrival.** What holds from left to right before ordering holds
between equal keys after it. -/
theorem byKey_pairwise {R : α → α → Prop} {xs : List α} (h : xs.Pairwise R) :
    (byKey key xs).Pairwise fun a b => key a < key b ∨ key a = key b ∧ R a b := by
  have ties : ∀ k, ((byKey key xs).filter fun x => key x = k).Pairwise R := fun k => by
    rw [filter_byKey]
    exact h.sublist List.filter_sublist
  have sorted := byKey_sorted key xs
  generalize byKey key xs = ys at ties sorted
  induction ys with
  | nil => exact .nil
  | cons y ys ih =>
    rw [List.pairwise_cons] at sorted ⊢
    refine ⟨fun b hb => ?_, ih (fun k => (ties k).sublist ?_) sorted.2⟩
    · rcases Nat.lt_or_eq_of_le (sorted.1 b hb) with hlt | heq
      · exact Or.inl hlt
      · have first := ties (key y)
        rw [List.filter_cons_of_pos (by simp), List.pairwise_cons] at first
        exact Or.inr ⟨heq, first.1 b (by simp [hb, heq])⟩
    · exact (List.sublist_cons_self y ys).filter _

/-! ## Ordering by insertion -/

/-- Puts an item before the first one of an ordered list whose key is not less. -/
def insertByKey (x : α) : List α → List α
  | [] => [x]
  | y :: ys => if key x ≤ key y then x :: y :: ys else y :: insertByKey x ys

/-- What has a lesser key is passed over, and what has not is not. -/
theorem insertByKey_append {x : α} {xs ys : List α} (less : ∀ y ∈ xs, key y < key x)
    (more : ∀ y ∈ ys, key x ≤ key y) : insertByKey key x (xs ++ ys) = xs ++ x :: ys := by
  induction xs with
  | nil =>
    cases ys with
    | nil => rfl
    | cons y ys => exact if_pos (more y (by simp))
  | cons y xs ih =>
    have stop : ¬ key x ≤ key y := Nat.not_le.mpr (less y (by simp))
    rw [List.cons_append, insertByKey, if_neg stop, ih fun z hz => less z (by simp [hz]),
      List.cons_append]

/-- **One item more is inserted into the order of the others.** -/
theorem byKey_cons (x : α) (xs : List α) :
    byKey key (x :: xs) = insertByKey key x (byKey key xs) := by
  have sorted := byKey_sorted key (x :: xs)
  obtain ⟨front, back, whole, rest, less⟩ := List.mergeSort_cons (key_le_trans key) (key_le_total key) x xs
  unfold byKey at sorted ⊢
  rw [whole] at sorted ⊢
  rw [rest, insertByKey_append key (fun y hy => ?_) fun y hy => ?_]
  · exact Nat.not_le.mp (by simpa using less y hy)
  · exact (List.pairwise_cons.mp (List.pairwise_append.mp sorted).2.1).1 y hy

/-- The order of a key can be found by inserting one item after the other. -/
theorem byKey_eq_foldr (xs : List α) : byKey key xs = xs.foldr (insertByKey key) [] := by
  induction xs with
  | nil => exact List.mergeSort_nil
  | cons x xs ih => rw [byKey_cons, ih, List.foldr_cons]

end Keyed

namespace Linter

open Keyed

/-- The order of a report is the order of the starts. -/
theorem inOrder_eq_byKey (found : List Diagnostic) : inOrder found = byKey Diagnostic.start found :=
  rfl

/-- Suppressing and ordering commute. -/
theorem unsuppressed_inOrder (source : List UInt8) (found : List Diagnostic) :
    unsuppressed source (inOrder found) = inOrder (unsuppressed source found) :=
  (byKey_filter Diagnostic.start _ found).symm

/-- **The starts in a report rise.** -/
theorem starts_rise_of_lint {l : Linter} {parser : Parser} {source : List UInt8} {found : List Diagnostic}
    (report : (l.lint parser source).2 = .ok found) : found.Pairwise fun d e => d.start ≤ e.start := by
  unfold lint at report
  rcases read : parser.read source with fault | tree
  · rw [read] at report
    cases report
    exact .nil
  · rw [read] at report
    unfold lintTree at report
    rcases gathered : (gather (l.turn tree ⟨source, l.standardLibrary⟩) l.rules).2 with flaw | all
    · simp only [gathered, Except.map, reduceCtorEq] at report
    · simp only [gathered, Except.map, Except.ok.injEq] at report
      rw [← report]
      exact (byKey_sorted Diagnostic.start all).sublist List.filter_sublist

end Linter

end LuaLint
