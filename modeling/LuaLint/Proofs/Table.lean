import LuaLint.Table
import Mathlib.Data.List.Nodup

/-!
# Tables and lists in which names come again

* **Distinct names.** A table is a list here, which could hold a name twice. If its names differ, a
  look-up finds what is listed (`Table.get?_eq_some_iff_mem`), so no look-up sees the order of the entries
  (`Table.get?_of_perm`). Putting a value into the table keeps the names distinct
  (`Table.nodup_names_put`).
* **The latest item that gives something.** Where several items of a list speak about one thing, the last
  of them often decides. A search from the end of a list stops at that item
  (`Latest.findSome?_reverse_eq_some_iff`), and the items that say nothing can be left out beforehand
  (`Latest.findSome?_filterMap`).
-/

namespace LuaLint

namespace Table

variable {α : Type} {t : Table α}

/-- In a table that has each name once, what is under a name is what a look-up finds. -/
theorem get?_eq_some_iff_mem (apart : (names t).Nodup) {name : String} {value : α} :
    get? t name = some value ↔ (name, value) ∈ t := by
  induction t with
  | nil => exact iff_of_false nofun List.not_mem_nil
  | cons entry rest ih =>
    obtain ⟨other, old⟩ := entry
    obtain ⟨new, apart⟩ := List.nodup_cons.mp apart
    unfold get? at ih ⊢
    rw [List.lookup_cons, List.mem_cons, Prod.mk.injEq]
    by_cases same : name = other
    · subst same
      have later : (name, value) ∉ rest := fun h => new (List.mem_map_of_mem (f := (·.1)) h)
      simp [later, eq_comm]
    · have differ : (name == other) = false := beq_eq_false_iff_ne.mpr same
      rw [differ]
      simpa [same] using ih apart

/-- Where a name is not listed, a look-up finds nothing. -/
theorem get?_eq_none_iff {name : String} : get? t name = none ↔ name ∉ names t := by
  rw [get?, List.lookup_eq_none_iff, names, List.mem_map, not_exists]
  simp only [bne_iff_ne, not_and, ne_comm, ne_eq]

/-- **No look-up sees the order of the entries.** -/
theorem get?_of_perm (apart : (names t).Nodup) {other : Table α} (order : other.Perm t)
    (name : String) : get? other name = get? t name := by
  have apart' : (names other).Nodup := (order.map Prod.fst).nodup_iff.mpr apart
  ext value
  rw [get?_eq_some_iff_mem apart', get?_eq_some_iff_mem apart, order.mem_iff]

theorem nodup_names_put (apart : (names t).Nodup) (name : String) (value : α) :
    (names (put name value t)).Nodup := by
  rw [names_put]
  split
  · exact apart
  · rename_i new
    exact apart.append (List.nodup_singleton name) (List.disjoint_singleton.mpr new)

end Table

namespace Latest

variable {α β γ : Type}

/-- **A search from the end finds the last item that gives something**: nothing after it does. -/
theorem findSome?_reverse_eq_some_iff {f : α → Option β} {xs : List α} {b : β} :
    xs.reverse.findSome? f = some b ↔
      ∃ before x after, xs = before ++ x :: after ∧ f x = some b ∧ ∀ y ∈ after, f y = none := by
  rw [List.findSome?_eq_some_iff]
  constructor
  · rintro ⟨after, x, before, cut, here, none_after⟩
    refine ⟨before.reverse, x, after.reverse, ?_, here, fun y hy => ?_⟩
    · rw [← List.reverse_reverse xs, cut]
      simp
    · exact none_after y (List.mem_reverse.mp hy)
  · rintro ⟨before, x, after, rfl, here, none_after⟩
    refine ⟨after.reverse, x, before.reverse, by simp, here, fun y hy => ?_⟩
    exact none_after y (List.mem_reverse.mp hy)

/-- A search among what the items give is a search among the items. -/
theorem findSome?_filterMap (f : α → Option β) (g : β → Option γ) (xs : List α) :
    (xs.filterMap f).findSome? g = xs.findSome? fun x => (f x).bind g := by
  induction xs with
  | nil => rfl
  | cons x xs ih =>
    rcases given : f x with _ | b
    · rw [List.filterMap_cons_none given, ih, List.findSome?_cons, given]
      rfl
    · rw [List.filterMap_cons_some given, List.findSome?_cons, List.findSome?_cons, ih, given]
      rfl

end Latest

end LuaLint
