import LuaLint.Proofs.Files.Search
import LuaLint.Proofs.Files.Walk
import Mathlib

/-!
# Spellings of a directory

Two paths that lead to one directory need not stand for the same files. The files below are named by going
on from the path as it is written, and are skipped by the names in what comes of that.

* **What a path means goes on from where it leads** (`Disk.canonicalFrom_append`), whatever the working
  directory is (`Disk.canonicalFrom_congr`). So what lies below a directory means the same for each
  spelling of it (`Disk.canonical_below`).
* **A path without a skipped name stands for what is not skipped below it** (`Disk.mem_locations_iff`), and
  one with a skipped name stands for nothing (`Disk.filesToCheck_of_skipped`).
* So **two spellings stand for the same locations if both have a skipped name or neither has**, and
  otherwise only if there is nothing to check at all (`Disk.locations_of_spellings`).
* A directory below one that is called `build` is checked by a path from inside and not by the path from
  the root (`Disk.checkout_skipped`).
-/

namespace LuaLint.Disk

variable {d d' : Disk} {p q : Path} {l : Location} {members : List (String × Entry)}

/-! ## Meanings below a directory -/

/-- **Components mean what the last of them mean from the location that the others mean**, if links are
followed at all. -/
theorem canonicalFrom_append {depth : Nat} (some : depth ≠ 0) (here : Location)
    (parts rest : List String) : d.canonicalFrom depth here (parts ++ rest) =
      d.canonicalFrom depth (d.canonicalFrom depth here parts) rest := by
  fun_induction canonicalFrom d depth here parts with
  | case1 => rfl
  | case2 depth here parts ih => rw [List.cons_append, canonicalFrom, if_pos rfl, ih some]
  | case3 depth here parts other ih =>
    rw [List.cons_append, canonicalFrom, if_neg other, if_pos rfl, ih some]
  | case4 => exact absurd rfl some
  | case5 here name parts stays descends target link depth reached ihTarget ihRest =>
    rw [List.cons_append, canonicalFrom, if_neg stays, if_neg descends, link]
    exact ihRest some
  | case6 depth here name parts stays descends noLink ih =>
    rw [List.cons_append, canonicalFrom, if_neg stays, if_neg descends]
    split
    · rename_i target link
      exact absurd link (noLink target)
    · exact ih some

/-- What components mean from a location does not hang on the working directory. -/
theorem canonicalFrom_congr (same : d'.root = d.root) (depth : Nat) (here : Location)
    (parts : List String) : d'.canonicalFrom depth here parts = d.canonicalFrom depth here parts := by
  have entries : d'.at? = d.at? := by
    funext l
    rw [at?, at?, same]
  fun_induction canonicalFrom d depth here parts with
  | case1 => rw [canonicalFrom]
  | case2 depth here parts ih => rw [canonicalFrom, if_pos rfl, ih]
  | case3 depth here parts other ih => rw [canonicalFrom, if_neg other, if_pos rfl, ih]
  | case4 here name parts stays descends target link =>
    rw [canonicalFrom, if_neg stays, if_neg descends, entries, link]
  | case5 here name parts stays descends target link depth reached ihTarget ihRest =>
    rw [canonicalFrom, if_neg stays, if_neg descends, entries, link]
    dsimp only
    rw [ihTarget]
    exact ihRest
  | case6 depth here name parts stays descends noLink ih =>
    rw [canonicalFrom, if_neg stays, if_neg descends, entries]
    split
    · rename_i target link
      exact absurd link (noLink target)
    · exact ih

/-- **What lies below a directory means the same for each path that leads there.** -/
theorem canonical_below (leads : d.follow p = .ok l) (parts : List String) :
    d.canonical (p.below parts) = d.canonicalFrom d.linkDepth l parts := by
  have deep : d.linkDepth ≠ 0 := Nat.ne_of_gt (Nat.add_pos_left (by decide) _)
  have meant : d.canonicalFrom d.linkDepth (d.origin p) p.parts = l := canonical_of_follow leads
  calc d.canonical (p.below parts)
      = d.canonicalFrom d.linkDepth (d.origin p) (p.parts ++ parts) := rfl
    _ = d.canonicalFrom d.linkDepth l parts := by rw [canonicalFrom_append deep, meant]

/-! ## What a spelling stands for -/

/-- The locations to check for the paths of a command line. -/
def locations (d : Disk) (ps : List Path) : List Location := (d.filesToCheck ps).map d.canonical

/-- Of each location that a candidate means one spelling is checked. -/
theorem mem_locations {ps : List Path} {m : Location} :
    m ∈ d.locations ps ↔ ∃ p ∈ d.candidates ps, d.canonical p = m := by
  rw [locations, List.mem_map]
  apply exists_mem_filesToCheck
  intro p _ q _ same meant
  exact same.symm.trans meant

theorem candidates_of_directory (leads : d.follow p = .ok l)
    (directory : d.at? l = some (.directory members)) : d.candidates [p] = d.luaFiles p := by
  have isDirectory : d.isDirectory p = true := by
    rw [Disk.isDirectory, entry_eq_ok_iff.mpr ⟨l, leads, directory⟩]
  rw [candidates, List.flatMap_singleton, expand, if_pos isDirectory]

/-- A file below a directory is skipped for a name in the path to the directory, or for one below it. -/
theorem isSkipped_below (p : Path) (parts : List String) :
    isSkipped (p.below parts) = (isSkipped p || parts.any skippedNames.contains) :=
  List.any_append

/-- **A path with a skipped name stands for nothing**, if it leads to a directory. -/
theorem filesToCheck_of_skipped (leads : d.follow p = .ok l)
    (directory : d.at? l = some (.directory members)) (skipped : isSkipped p = true) :
    d.filesToCheck [p] = [] := by
  apply List.eq_nil_iff_forall_not_mem.mpr
  intro q hq
  have listed : q ∈ d.candidates [p] := (mem_firstsBy hq).1
  rw [candidates_of_directory leads directory] at listed
  obtain ⟨parts, -, rfl, kept⟩ := (mem_luaFiles_iff leads directory).mp listed
  rw [isSkipped_below, skipped] at kept
  cases kept

theorem locations_of_skipped (leads : d.follow p = .ok l)
    (directory : d.at? l = some (.directory members)) (skipped : isSkipped p = true) :
    d.locations [p] = [] :=
  congrArg (List.map d.canonical) (filesToCheck_of_skipped leads directory skipped)

/-- **A path without a skipped name stands for the files below**, as far as no name below is skipped, and
for what they mean from where the path leads. -/
theorem mem_locations_iff (leads : d.follow p = .ok l)
    (directory : d.at? l = some (.directory members)) (visible : isSkipped p = false)
    {m : Location} : m ∈ d.locations [p] ↔
      ∃ parts ∈ (Entry.directory members).luaBelow, parts.any skippedNames.contains = false ∧
        d.canonicalFrom d.linkDepth l parts = m := by
  rw [mem_locations, candidates_of_directory leads directory]
  constructor
  · rintro ⟨q, listed, meant⟩
    obtain ⟨parts, walked, rfl, kept⟩ := (mem_luaFiles_iff leads directory).mp listed
    rw [isSkipped_below, visible] at kept
    exact ⟨parts, walked, kept, (canonical_below leads parts).symm.trans meant⟩
  · rintro ⟨parts, walked, kept, meant⟩
    have listed : isSkipped (p.below parts) = false := by rw [isSkipped_below, visible, kept]; rfl
    exact ⟨p.below parts, (mem_luaFiles_iff leads directory).mpr ⟨parts, walked, rfl, listed⟩,
      (canonical_below leads parts).trans meant⟩

/-! ## Two spellings -/

/-- Such a path stands for no location exactly if there is nothing below that is not skipped. -/
theorem locations_eq_nil_iff (leads : d.follow p = .ok l)
    (directory : d.at? l = some (.directory members)) (visible : isSkipped p = false) :
    d.locations [p] = [] ↔
      ∀ parts ∈ (Entry.directory members).luaBelow, parts.any skippedNames.contains = true := by
  rw [List.eq_nil_iff_forall_not_mem]
  constructor
  · intro none parts walked
    by_contra kept
    exact none _ ((mem_locations_iff leads directory visible).mpr
      ⟨parts, walked, Bool.eq_false_iff.mpr kept, rfl⟩)
  · intro skipped m hm
    obtain ⟨parts, walked, kept, -⟩ := (mem_locations_iff leads directory visible).mp hm
    cases (skipped parts walked).symm.trans kept

section spellings

variable (same : d'.root = d.root) (p_leads : d.follow p = .ok l) (q_leads : d'.follow q = .ok l)
  (directory : d.at? l = some (.directory members))
include same p_leads q_leads directory

/-- Two spellings without a skipped name stand for the same locations, whatever the working directories
are. -/
theorem locations_congr (p_visible : isSkipped p = false) (q_visible : isSkipped q = false)
    (m : Location) : m ∈ d.locations [p] ↔ m ∈ d'.locations [q] := by
  have directory' : d'.at? l = some (.directory members) := by rw [at?, same]; exact directory
  have deep : d'.linkDepth = d.linkDepth := by rw [linkDepth, linkDepth, same]
  rw [mem_locations_iff p_leads directory p_visible, mem_locations_iff q_leads directory' q_visible,
    deep]
  simp only [canonicalFrom_congr same]

/-- **Two spellings of a directory stand for the same locations exactly if both have a skipped name or
neither has**, or if there is nothing below the directory that is not skipped. One that has a skipped name
stands for no file at all. -/
theorem locations_of_spellings :
    ((∀ m, m ∈ d.locations [p] ↔ m ∈ d'.locations [q]) ↔ isSkipped p = isSkipped q ∨
      ∀ parts ∈ (Entry.directory members).luaBelow, ∃ part ∈ parts, part ∈ skippedNames) ∧
    (isSkipped p = true → d.filesToCheck [p] = []) := by
  have directory' : d'.at? l = some (.directory members) := by rw [at?, same]; exact directory
  have nothing : (∀ parts ∈ (Entry.directory members).luaBelow,
      parts.any skippedNames.contains = true) ↔
      ∀ parts ∈ (Entry.directory members).luaBelow, ∃ part ∈ parts, part ∈ skippedNames := by
    simp only [List.any_eq_true, List.contains_iff_mem]
  refine ⟨?_, filesToCheck_of_skipped p_leads directory⟩
  rw [← nothing]
  cases p_sees : isSkipped p with
  | false =>
    cases q_sees : isSkipped q with
    | false =>
      exact iff_of_true (locations_congr same p_leads q_leads directory p_sees q_sees) (.inl rfl)
    | true =>
      rw [← locations_eq_nil_iff p_leads directory p_sees,
        locations_of_skipped q_leads directory' q_sees]
      simp [List.eq_nil_iff_forall_not_mem]
  | true =>
    rw [locations_of_skipped p_leads directory p_sees]
    cases q_sees : isSkipped q with
    | false =>
      rw [← locations_eq_nil_iff q_leads directory' q_sees]
      simp [List.eq_nil_iff_forall_not_mem]
    | true =>
      rw [locations_of_skipped q_leads directory' q_sees]
      exact iff_of_true (fun _ => Iff.rfl) (.inl rfl)

end spellings

/-! ### A project in a directory that is called `build` -/

/-- A project with one file, seen from its own directory. -/
def checkout : Disk :=
  { root := [("build", .directory [("game", .directory [("main.lua", .file [])])])]
    cwd := ["build", "game"] }

/-- Seen from the directory above, the project is named by another path, which means the same. -/
theorem locations_of_spellings_checkout :
    let above := { checkout with cwd := ["build"] }
    checkout.follow (.ofText ".") = .ok ["build", "game"] ∧
      above.follow (.ofText "game") = .ok ["build", "game"] ∧
      checkout.locations [.ofText "."] = [["build", "game", "main.lua"]] ∧
      ∀ m, m ∈ checkout.locations [.ofText "."] ↔ m ∈ above.locations [.ofText "game"] := by
  intro above
  have inside : checkout.follow (.ofText ".") = .ok ["build", "game"] := by cbv
  have outside : above.follow (.ofText "game") = .ok ["build", "game"] := by cbv
  have directory : checkout.at? ["build", "game"] = some (.directory [("main.lua", .file [])]) := by cbv
  have same : above.root = checkout.root := rfl
  refine ⟨inside, outside, by cbv, ?_⟩
  exact (locations_of_spellings same inside outside directory).1.mpr (.inl (by cbv))

/-- **Named from the root, the project is not checked**: its path goes through a directory called `build`. -/
theorem checkout_skipped :
    checkout.follow (.ofText ".") = checkout.follow (.ofText "/build/game") ∧
      checkout.isDirectory (.ofText "/build/game") = true ∧
      checkout.locations [.ofText "."] = [["build", "game", "main.lua"]] ∧
      checkout.locations [.ofText "/build/game"] = [] := by
  refine ⟨?_, ?_, ?_, ?_⟩
  · cbv
  · cbv
  · cbv
  · cbv

end LuaLint.Disk
