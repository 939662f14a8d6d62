import LuaLint.Log
import LuaLint.Proofs.Outcome

/-!
# Which values can be written

A value can be written exactly if none of the whole numbers in it is too long and it is not nested too deep
(`Value.Writable`). Both written forms ask for the same: the one in messages (`Value.shown_eq_ok_iff`), and the
one that is read as a plain word (`Value.text_eq_ok_iff`). So an event that shows a value can be worded
exactly if the value can be written.

The proof goes by the structure of the value, for any number of calls that are left. An array or a table
takes one of them, and it is as deep as its deepest item and one more.
-/

namespace LuaLint.Toml

variable {limits : Limits}

/-- The number has no more digits than the limit. -/
def Limits.Admits (limits : Limits) (n : Int) : Prop := ∀ most ∈ limits.digits, n.natAbs < Nat.pow 10 most

/-- A number can be written if it is short enough. -/
theorem Limits.decimal_eq_ok_iff {n : Int} : (∃ word, limits.decimal n = .ok word) ↔ limits.Admits n := by
  unfold decimal Admits
  rcases limits.digits with _ | most
  · simp
  · dsimp only
    by_cases short : n.natAbs < Nat.pow 10 most
    · rw [if_pos short]
      exact iff_of_true ⟨_, rfl⟩ fun _ limit => Option.mem_some_iff.mp limit ▸ short
    · rw [if_neg short]
      exact iff_of_false nofun fun admitted => short (admitted most rfl)

/-- One digit is not too long. -/
theorem Limits.admits_of_lt_ten {n : Int} (one : n.natAbs < 10)
    (some : ∀ most ∈ limits.digits, most ≠ 0) : limits.Admits n := fun most limit =>
  Nat.lt_of_lt_of_le one (Nat.le_self_pow (some most limit) 10)

/-- A number that is too long is refused. -/
theorem Limits.decimal_of_long {n : Int} {most : Nat} (limit : limits.digits = some most)
    (long : ¬ limits.Admits n) : limits.decimal n = .error (.longNumber most) := by
  have more : ¬ n.natAbs < Nat.pow 10 most := fun short => long fun other same =>
    Option.some.inj (limit.symm.trans same) ▸ short
  unfold decimal
  rw [limit]
  exact if_neg more

namespace Value

mutual

/-- The whole numbers in a value. -/
def numbers : Value → List Int
  | integer n => [n]
  | array items => numbersOfItems items
  | table entries => numbersOfEntries entries
  | _ => []

/-- The whole numbers in several values. -/
def numbersOfItems : List Value → List Int
  | [] => []
  | v :: rest => v.numbers ++ numbersOfItems rest

/-- The whole numbers in the values of entries. -/
def numbersOfEntries : List (String × Value) → List Int
  | [] => []
  | (_, v) :: rest => v.numbers ++ numbersOfEntries rest

end

mutual

/-- How many arrays and tables stand within one another. -/
def depth : Value → Nat
  | array items => depthOfItems items + 1
  | table entries => depthOfEntries entries + 1
  | _ => 0

/-- The depth of the deepest of several values. -/
def depthOfItems : List Value → Nat
  | [] => 0
  | v :: rest => max v.depth (depthOfItems rest)

/-- The depth of the deepest value of entries. -/
def depthOfEntries : List (String × Value) → Nat
  | [] => 0
  | (_, v) :: rest => max v.depth (depthOfEntries rest)

end

/-- The value is within the limits. -/
def Writable (limits : Limits) (v : Value) : Prop :=
  (∀ n ∈ v.numbers, limits.Admits n) ∧ v.depth ≤ limits.calls

/-! ## In messages -/

mutual

/-- **A value can be shown exactly if it is within the limits**, as to the calls that are left. -/
theorem shown_eq_ok_iff : ∀ (calls : Nat) (v : Value), (∃ word, v.shown limits calls = .ok word) ↔
    (∀ n ∈ v.numbers, limits.Admits n) ∧ v.depth ≤ calls
  | calls, string _ | calls, float _ | calls, boolean true | calls, boolean false | calls, date _
  | calls, time _ | calls, dateTime _ _ _ => by
    simp [shown, numbers, depth, pure, Except.pure]
  | calls, integer n => by
    simp [shown, numbers, depth, Limits.decimal_eq_ok_iff]
  | 0, array _ | 0, table _ => by
    simp [shown, depth, throw, throwThe, MonadExceptOf.throw]
  | calls + 1, array items => by
    have inner := shownItems_eq_ok_iff calls items
    simp only [shown, numbers, depth, Nat.add_le_add_iff_right, ← inner]
    rcases shownItems limits calls items <;> simp [bind, Except.bind, pure, Except.pure]
  | calls + 1, table entries => by
    have inner := shownEntries_eq_ok_iff calls entries
    simp only [shown, numbers, depth, Nat.add_le_add_iff_right, ← inner]
    rcases shownEntries limits calls entries <;> simp [bind, Except.bind, pure, Except.pure]

theorem shownItems_eq_ok_iff : ∀ (calls : Nat) (items : List Value),
    (∃ words, shownItems limits calls items = .ok words) ↔
      (∀ n ∈ numbersOfItems items, limits.Admits n) ∧ depthOfItems items ≤ calls
  | calls, [] => by simp [shownItems, numbersOfItems, depthOfItems, pure, Except.pure]
  | calls, v :: rest => by
    have first := shown_eq_ok_iff calls v
    have others := shownItems_eq_ok_iff calls rest
    simp only [shownItems, numbersOfItems, depthOfItems, List.forall_mem_append, Nat.max_le]
    rw [and_and_and_comm, ← first, ← others]
    simp [Outcome.bind_eq_ok, pure, Except.pure]

theorem shownEntries_eq_ok_iff : ∀ (calls : Nat) (entries : List (String × Value)),
    (∃ words, shownEntries limits calls entries = .ok words) ↔
      (∀ n ∈ numbersOfEntries entries, limits.Admits n) ∧ depthOfEntries entries ≤ calls
  | calls, [] => by simp [shownEntries, numbersOfEntries, depthOfEntries, pure, Except.pure]
  | calls, (key, v) :: rest => by
    have first := shown_eq_ok_iff calls v
    have others := shownEntries_eq_ok_iff calls rest
    simp only [shownEntries, numbersOfEntries, depthOfEntries, List.forall_mem_append, Nat.max_le]
    rw [and_and_and_comm, ← first, ← others]
    simp [Outcome.bind_eq_ok, pure, Except.pure]

end

/-! ## As a word -/

/-- **A value can be read as a word exactly if it is within the limits.** -/
theorem text_eq_ok_iff (v : Value) : (∃ word, v.text limits = .ok word) ↔ v.Writable limits := by
  unfold Writable
  cases v with
  | string _ => simp [text, numbers, depth, pure, Except.pure]
  | date _ => simp [text, numbers, depth, pure, Except.pure]
  | time _ => simp [text, numbers, depth, pure, Except.pure]
  | dateTime _ _ _ => simp [text, numbers, depth, pure, Except.pure]
  | integer n => exact shown_eq_ok_iff _ _
  | float x => exact shown_eq_ok_iff _ _
  | boolean b => exact shown_eq_ok_iff _ _
  | array items => exact shown_eq_ok_iff _ _
  | table entries => exact shown_eq_ok_iff _ _

end Value

end LuaLint.Toml
