import LuaLint.Text.Blank
import LuaLint.Text.Lower
import LuaLint.Text.Split

/-!
# The rules that a directive names

A directive names rules by their ids, with commas between them, or names none and then means every
rule. Ids are trimmed and lower-cased; a list in which nothing is left after that names none.

**A list that is blank as a whole** is set aside before it is cut. That comes to the same as to cut it
and to find no id in it (`ofList_some`).
-/

namespace LuaLint

/-- Which rules a directive is about. -/
inductive RuleSet
  | all
  | only (ids : List String)
deriving Repr, DecidableEq

namespace RuleSet

/-- The rule is among those meant. -/
def covers (ruleId : String) : RuleSet → Bool
  | all => true
  | only ids => ids.contains ruleId

/-- The ids in a list with commas. -/
def idsOf (list : List Char) : List String :=
  (((Text.split ',' list).map Text.trim).filter (!·.isEmpty)).map
    fun id => String.ofList (Text.lower id)

/-- The rules that a directive with the given list means. -/
def ofList : Option (List Char) → RuleSet
  | none => all
  | some list =>
    if (Text.trim list).isEmpty then all
    else match idsOf list with
      | [] => all
      | ids => only ids

/-- No id is named in blanks. -/
theorem idsOf_of_blank {list : List Char} (blank : ∀ c ∈ list, Text.isBlank c = true) :
    idsOf list = [] := by
  have nothing : ((Text.split ',' list).map Text.trim).filter (!·.isEmpty) = [] := by
    refine List.filter_eq_nil_iff.mpr fun trimmed h => ?_
    obtain ⟨piece, hp, rfl⟩ := List.mem_map.mp h
    have none : Text.trim piece = [] :=
      Text.trim_eq_nil_iff.mpr fun c hc => blank c (Text.mem_of_mem_split hp c hc).1
    simp [none]
  rw [idsOf, nothing, List.map_nil]

/-- **The check of the whole list and that of its ids agree**: no id is found in a list that is blank as a
whole. -/
theorem ofList_some (list : List Char) :
    ofList (some list) = match idsOf list with
      | [] => all
      | ids => only ids := by
  rw [ofList]
  split
  · rename_i nothing
    rw [idsOf_of_blank (Text.trim_eq_nil_iff.mp (List.isEmpty_iff.mp nothing))]
  · rfl

end RuleSet

end LuaLint
