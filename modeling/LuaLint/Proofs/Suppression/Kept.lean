import LuaLint.Proofs.Suppression.Verdict
import Mathlib.Data.List.Basic

/-!
# Which indexes are kept

Two sources can be compared by what they leave of the same findings, although the findings themselves
stand at other places in the one than in the other. What is compared then are indexes: `keptIndexes` are
those of the findings that a source leaves.

* **What is left stands at the indexes that are kept** (`unsuppressed_eq_kept`), in its order and number.
* **Findings that have moved** (`keptIndexes_of_displaced`): if the second source treats each finding at
  its new place as the first one does at the old place, both keep the same indexes.
* **The same suppressions** (`ofSource_congr`) come from lines that have the same directives.
-/

namespace LuaLint

/-- The indexes of the diagnostics that the source leaves. -/
def keptIndexes (source : List UInt8) (found : List Diagnostic) : List Nat :=
  found.findIdxs fun d => d ∈ unsuppressed source found

/-- The same findings, rule by rule, with each start moved from `o` to `place o`. -/
def Displaced (place : Nat → Nat) (found moved : List Diagnostic) : Prop :=
  List.Forall₂ (fun d m => m.ruleId = d.ruleId ∧ m.start = place d.start) found moved

variable {source edited : List UInt8} {found moved : List Diagnostic} {place : Nat → Nat}

/-- The indexes that are kept are those of what is not dropped. -/
theorem keptIndexes_eq (source : List UInt8) (found : List Diagnostic) :
    keptIndexes source found = found.findIdxs fun d => !dropped source d := by
  rw [keptIndexes, List.findIdxs_eq_filterMap_zipIdx, List.findIdxs_eq_filterMap_zipIdx]
  refine List.filterMap_congr fun ⟨d, i⟩ member => ?_
  have reported : d ∈ found := (List.mem_zipIdx' member).2 ▸ List.getElem_mem _
  have same : decide (d ∈ unsuppressed source found) = !dropped source d := by
    rw [Bool.eq_iff_iff, decide_eq_true_iff, mem_unsuppressed_iff_not_dropped reported, Bool.not_eq_true,
      Bool.not_eq_true']
  simp only [same]

/-- The items that pass a test stand at the indexes of those that do. -/
theorem filter_eq_filterMap_findIdxs {α : Type} (test : α → Bool) (items before : List α) :
    items.filter test =
      (items.findIdxs test before.length).filterMap fun i => (before ++ items)[i]? := by
  induction items generalizing before with
  | nil => rfl
  | cons a items ih =>
    have next := ih (before ++ [a])
    rw [List.length_append, List.length_singleton, List.append_assoc, List.singleton_append] at next
    rw [List.findIdxs_cons]
    by_cases passes : test a = true
    · rw [List.filter_cons_of_pos passes, if_pos passes, List.filterMap_cons_some (b := a) (by simp), next]
    · rw [List.filter_cons_of_neg passes, if_neg passes, next]

/-- **What is left stands at the indexes that are kept.** -/
theorem unsuppressed_eq_kept (source : List UInt8) (found : List Diagnostic) :
    unsuppressed source found = (keptIndexes source found).filterMap (found[·]?) := by
  rw [keptIndexes_eq, unsuppressed_eq_filter]
  exact filter_eq_filterMap_findIdxs _ found []

/-- **Findings that are dropped alike at their new places are kept under the same indexes.** -/
theorem keptIndexes_of_displaced (same : Displaced place found moved)
    (alike : ∀ d ∈ found, ∀ m : Diagnostic, m.ruleId = d.ruleId → m.start = place d.start →
      dropped edited m = dropped source d) :
    keptIndexes edited moved = keptIndexes source found := by
  rw [keptIndexes_eq, keptIndexes_eq]
  generalize 0 = first
  induction same generalizing first with
  | nil => rfl
  | @cons d m found moved here _ ih =>
    rw [List.findIdxs_cons, List.findIdxs_cons, alike d List.mem_cons_self m here.1 here.2,
      ih (fun d later => alike d (List.mem_cons_of_mem _ later))]

/-! ## The same suppressions -/

/-- Lines that have the same directives make the same suppressions. -/
theorem ofSource_congr
    (same : ∀ scope, (Source.lines edited).map (Directive.inLine? scope) =
      (Source.lines source).map (Directive.inLine? scope)) :
    Suppressions.ofSource edited = Suppressions.ofSource source := by
  have file := congrArg (List.filterMap id) (same .file)
  rw [List.filterMap_map, List.filterMap_map, Function.id_comp] at file
  simp only [Suppressions.ofSource, file, same .line]

end LuaLint
