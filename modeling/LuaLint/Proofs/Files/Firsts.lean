import LuaLint.Proofs.Files.Search
import LuaLint.Proofs.Files.Walk
import Mathlib

/-!
# The first spelling of each location

The paths of a command line stand for candidates, among them several spellings of one location: a file
that is named and found in a directory too, or found through a link. Of each location the first spelling
is checked, and this says all about which candidates are: **those at whose index their location comes up
for the first time** (`filesToCheck_firsts`).

The loop over the candidates keeps the locations that it has seen. A candidate at the end of the list is
judged by those before it (`leaders_concat`), and so the loop and the condition on indexes agree by
induction from the front (`firstsBy_eq_leaders`).
-/

namespace LuaLint.Disk

section leaders

variable {α β : Type} [BEq β] {key : α → β}

/-- The items before which no other has the same key, each with its index. -/
def leaders (key : α → β) (items : List α) : List (α × Nat) :=
  items.zipIdx.filter fun item => !((items.take item.2).map key).contains (key item.1)

/-- An item at the end is a leader if no other has its key. -/
theorem leaders_concat (items : List α) (a : α) :
    leaders key (items ++ [a]) = leaders key items ++
      if (items.map key).contains (key a) then [] else [(a, items.length)] := by
  unfold leaders
  rw [List.zipIdx_append, List.filter_append, List.zipIdx_singleton, Nat.zero_add]
  congr 1
  · apply List.filter_congr
    intro item listed
    have inside : item.2 < items.length := by simpa using List.snd_lt_of_mem_zipIdx listed
    rw [List.take_append_of_le_length (Nat.le_of_lt inside)]
  · rw [List.filter_singleton, List.take_left]
    cases (items.map key).contains (key a) <;> rfl

theorem leaders_sublist (items : List α) : ((leaders key items).map (·.1)).Sublist items := by
  have within : ((leaders key items).map (·.1)).Sublist (items.zipIdx.map (·.1)) :=
    List.filter_sublist.map _
  rwa [List.zipIdx_map_fst] at within

variable [LawfulBEq β]

/-- **The items that are kept are the leaders**, in their order. -/
theorem firstsBy_eq_leaders (items : List α) :
    firstsBy key [] items = (leaders key items).map (·.1) := by
  induction items using List.reverseRecOn with
  | nil => rfl
  | append_singleton items a ih =>
    have alone : firstsBy key [] [a] = [a] := rfl
    rw [firstsBy_append, leaders_concat, List.map_append, ih, alone, List.filter_singleton]
    cases (items.map key).contains (key a) <;> rfl

/-- Each item has a leader with its key, which does not come after it. -/
theorem exists_leader {items : List α} {a : α} {i : Nat} (ha : (a, i) ∈ items.zipIdx) :
    ∃ b j, (b, j) ∈ leaders key items ∧ j ≤ i ∧ key b = key a := by
  induction i using Nat.strongRecOn generalizing a with
  | ind i ih =>
    by_cases old : key a ∈ (items.take i).map key
    · -- the leader of an earlier item with the key is that of this one too
      obtain ⟨c, hc, same⟩ := List.mem_map.mp old
      obtain ⟨j, hj, rfl⟩ := List.mem_iff_getElem.mp hc
      have before : j < i := Nat.lt_of_lt_of_le hj (List.length_take_le i items)
      have listed : ((items.take i)[j], j) ∈ items.zipIdx := by
        rw [List.getElem_take]
        exact List.mk_mem_zipIdx_iff_getElem?.mpr (List.getElem?_eq_getElem _)
      obtain ⟨b, k, leader, early, same'⟩ := ih j before listed
      exact ⟨b, k, leader, Nat.le_trans early (Nat.le_of_lt before), same'.trans same⟩
    · exact ⟨a, i, List.mem_filter.mpr ⟨ha, by simpa using old⟩, Nat.le_refl i, rfl⟩

end leaders

variable {d : Disk}

/-- Paths that lead to no directory stand for themselves. -/
theorem candidates_of_no_directory {ps : List Path} (h : ∀ p ∈ ps, d.isDirectory p = false) :
    d.candidates ps = ps := by
  induction ps with
  | nil => rfl
  | cons p ps ih =>
    have alone : d.expand p = [p] := if_neg (Bool.eq_false_iff.mp (h p List.mem_cons_self))
    have others := ih fun q hq => h q (List.mem_cons_of_mem p hq)
    unfold candidates at others ⊢
    rw [List.flatMap_cons, alone, others, List.singleton_append]

/-- **The candidates to be checked are those whose location has not come up before.** They stand in the
order of the candidates, no two of them mean the same location, and each candidate has one with its
meaning that does not come after it. Further paths on the command line only add files at the end, and the
files to be checked, given as paths, are checked as they are, if none of them is a directory. -/
theorem filesToCheck_firsts (d : Disk) (ps : List Path) :
    let kept := leaders d.canonical (d.candidates ps)
    d.filesToCheck ps = kept.map (·.1) ∧
      (d.filesToCheck ps).Sublist (d.candidates ps) ∧
      (d.filesToCheck ps).Pairwise (d.canonical · ≠ d.canonical ·) ∧
      (∀ q i, (q, i) ∈ (d.candidates ps).zipIdx →
        ∃ p j, (p, j) ∈ kept ∧ j ≤ i ∧ d.canonical p = d.canonical q) ∧
      (∀ qs, d.filesToCheck ps <+: d.filesToCheck (ps ++ qs)) ∧
      ((∀ p ∈ d.filesToCheck ps, d.isDirectory p = false) →
        d.filesToCheck (d.filesToCheck ps) = d.filesToCheck ps) := by
  intro kept
  have first : d.filesToCheck ps = kept.map (·.1) := firstsBy_eq_leaders (d.candidates ps)
  have apart : (d.filesToCheck ps).Pairwise (d.canonical · ≠ d.canonical ·) :=
    firstsBy_pairwise (d.candidates ps)
  refine ⟨first, ?_, apart, fun q i => exists_leader, fun qs => ?_, fun files => ?_⟩
  · rw [first]
    exact leaders_sublist (d.candidates ps)
  · rw [filesToCheck_append]
    exact List.prefix_append _ _
  · have again : d.filesToCheck (d.filesToCheck ps) =
        firstsBy d.canonical [] (d.filesToCheck ps) :=
      congrArg _ (candidates_of_no_directory files)
    rw [again]
    exact firstsBy_of_pairwise apart fun p _ => List.not_mem_nil

/-- Of two files that are found again through a link each is checked once, and checking the result gives the
same files. -/
theorem filesToCheck_firsts_looped :
    let ps := [Path.ofText "a-b.lua", .ofText "self/a-b.lua", .ofText "a", .ofText "self/a"]
    let files := [Path.ofText "a-b.lua", .ofText "a/b.lua"]
    looped.candidates ps = [.ofText "a-b.lua", .ofText "self/a-b.lua", .ofText "a/b.lua",
        .ofText "self/a/b.lua"] ∧
      looped.filesToCheck ps = files ∧ (∀ p ∈ files, looped.isDirectory p = false) ∧
      looped.filesToCheck files = files := by
  intro ps files
  have found : looped.candidates ps = [.ofText "a-b.lua", .ofText "self/a-b.lua", .ofText "a/b.lua",
      .ofText "self/a/b.lua"] := by
    rw [looped_eq]
    cbv
  have checked : looped.filesToCheck ps = files := by
    rw [looped_eq]
    cbv
  have noDirectory : ∀ p ∈ files, looped.isDirectory p = false := by
    rw [looped_eq]
    intro p hp
    simp only [files, List.mem_cons, List.not_mem_nil, or_false] at hp
    rcases hp with rfl | rfl
    · cbv
    · cbv
  obtain ⟨-, -, -, -, -, again⟩ := filesToCheck_firsts looped ps
  rw [checked] at again
  exact ⟨found, checked, noDirectory, again noDirectory⟩

end LuaLint.Disk
