import LuaLint.Proofs.Files.Canonical
import LuaLint.Proofs.Files.Search
import Mathlib

/-!
# Files that are left out

Of the paths that mean one location the first is checked, whether it can be read or not. If it cannot,
and a later one can, the file is not checked at all.

* **When this happens** (`Disk.read_iff`): a path that means a file can be read unless it is astray, that
  is, unless it goes through too many links or leads back from where it cannot be followed.
* So **a file is checked unless the first of its paths is astray** (`Disk.checked_iff_not_astray`).
-/

namespace LuaLint.Disk

variable {d : Disk} {p q : Path} {content : List UInt8}

/-- The path cannot be followed for a reason that its meaning does not show: it goes through too many
links, or it goes on to the same directory or the one above from where it cannot be followed. -/
def Astray (d : Disk) (p : Path) : Prop :=
  d.follow p = .error .tooManyLinks ∨ "." ∈ (d.halt p).left ∨ ".." ∈ (d.halt p).left

/-- A path that is astray cannot be followed. -/
theorem Astray.follow_ne (astray : d.Astray p) (l : Location) : d.follow p ≠ .ok l := by
  intro followed
  obtain ⟨done, -⟩ := Halt.outcome_eq_ok_iff.mp ((follow_eq_outcome p).symm.trans followed)
  unfold Astray at astray
  rw [followed, done] at astray
  rcases astray with many | same | back
  · cases many
  · cases same
  · cases back

/-- **A path that means what is there can be followed**, unless it is astray. -/
theorem follow_of_canonical {e : Entry} (there : d.at? (d.canonical p) = some e)
    (onCourse : ¬ d.Astray p) : d.follow p = .ok (d.canonical p) := by
  cases followed : d.follow p with
  | ok l => rw [canonical_of_follow followed]
  | error reason =>
    obtain ⟨name, rest, left, obstacle⟩ :=
      Halt.outcome_eq_error_iff.mp ((follow_eq_outcome p).symm.trans followed)
    have missing : d.at? ((d.halt p).here ++ [name]) = none := by
      refine Decidable.not_not.mp fun found => onCourse (.inl ?_)
      rw [followed, ← obstacle, obstacle_eq_tooManyLinks_iff.mpr found]
    have beyond : d.Beyond (d.halt p).here (d.halt p).left := by
      refine ⟨fun same => onCourse (.inr (.inl same)), fun back => onCourse (.inr (.inr back)), ?_⟩
      intro next head
      rw [left, List.head?_cons] at head
      exact Option.some.inj head ▸ missing
    have nothing := beyond.at?_eq_none (left ▸ List.cons_ne_nil name rest)
    rw [canonical_of_halt beyond] at there
    cases nothing.symm.trans there

/-- A path that can be read leads to the location that it means. -/
theorem follow_of_read (reads : d.read p = .ok content) : d.follow p = .ok (d.canonical p) := by
  obtain ⟨l, followed, -⟩ := read_eq_ok_iff.mp reads
  rw [canonical_of_follow followed]
  exact followed

/-- **A path that means a file reads it unless it is astray.** -/
theorem read_iff (there : d.at? (d.canonical p) = some (.file content)) :
    d.read p = .ok content ↔ ¬ d.Astray p := by
  constructor
  · intro reads astray
    exact astray.follow_ne _ (follow_of_read reads)
  · intro onCourse
    exact read_eq_ok_iff.mpr ⟨_, follow_of_canonical there onCourse, there⟩

/-! ## The files to check -/

/-- **A file is checked unless the first of its paths is astray.** If one of the paths can be read, then
the first that means its location is the only one of them to be checked, and the file that is read is
checked exactly if that path is not astray. -/
theorem checked_iff_not_astray {ps : List Path} (hq : q ∈ d.candidates ps) (reads : d.read q = .ok content) :
    ∃ p, (d.candidates ps).find? (d.canonical · == d.canonical q) = some p ∧
      (d.filesToCheck ps).filter (d.canonical · == d.canonical q) = [p] ∧
      ((∃ r ∈ d.filesToCheck ps, d.follow r = d.follow q ∧ d.read r = .ok content) ↔
        ¬ d.Astray p) := by
  have kept : (d.filesToCheck ps).filter (d.canonical · == d.canonical q) =
      ((d.candidates ps).find? (d.canonical · == d.canonical q)).toList :=
    filter_firstsBy List.not_mem_nil (d.candidates ps)
  cases first : (d.candidates ps).find? (d.canonical · == d.canonical q) with
  | none => exact absurd (beq_self_eq_true _) (List.find?_eq_none.mp first q hq)
  | some p =>
    rw [first, Option.toList_some] at kept
    have only (r : Path) : r = p ↔ r ∈ d.filesToCheck ps ∧ d.canonical r = d.canonical q := by
      rw [← List.mem_singleton, ← kept, List.mem_filter, beq_iff_eq]
    obtain ⟨checked, same⟩ := (only p).mp rfl
    refine ⟨p, rfl, kept, ?_, ?_⟩
    · rintro ⟨r, hr, followed, -⟩ astray
      rw [follow_of_read reads] at followed
      obtain rfl := (only r).mpr ⟨hr, canonical_of_follow followed⟩
      exact astray.follow_ne _ followed
    · intro onCourse
      have there : d.at? (d.canonical p) = some (.file content) := same ▸ at?_of_read reads
      refine ⟨p, checked, ?_, (read_iff there).mpr onCourse⟩
      rw [follow_of_canonical there onCourse, follow_of_read reads, same]

/-- A directory with a file, and a directory in it with a link to the file. -/
def linked : Disk :=
  { root := [("work", .directory [("a.lua", .file [0x61]),
      ("lib", .directory [("b.lua", .link "../a.lua")])])]
    cwd := ["work"] }

/-- A file that is found through a link is left out because of a path that goes through a missing
directory and back. -/
theorem checked_iff_not_astray_linked :
    let ps := [Path.ofText "gone/../a.lua", Path.ofText "lib"]
    Path.ofText "lib/b.lua" ∈ linked.candidates ps ∧
      linked.read (.ofText "lib/b.lua") = .ok [0x61] ∧
      linked.Astray (.ofText "gone/../a.lua") ∧
      ¬ ∃ r ∈ linked.filesToCheck ps,
        linked.follow r = linked.follow (.ofText "lib/b.lua") ∧ linked.read r = .ok [0x61] := by
  intro ps
  have found : linked.candidates ps = [.ofText "gone/../a.lua", .ofText "lib/b.lua"] := by cbv
  have listed : Path.ofText "lib/b.lua" ∈ linked.candidates ps := by
    rw [found]
    exact List.mem_cons_of_mem _ List.mem_cons_self
  have reads : linked.read (.ofText "lib/b.lua") = .ok [0x61] := by cbv
  have back : (linked.halt (.ofText "gone/../a.lua")).left = ["gone", "..", "a.lua"] := by cbv
  have astray : linked.Astray (.ofText "gone/../a.lua") := by
    refine .inr (.inr ?_)
    rw [back]
    decide
  obtain ⟨p, first, -, checked⟩ := checked_iff_not_astray listed reads
  have same : linked.canonical (.ofText "gone/../a.lua") = linked.canonical (.ofText "lib/b.lua") := by
    cbv
  rw [found, List.find?_cons, beq_iff_eq.mpr same] at first
  obtain rfl := Option.some.inj first
  exact ⟨listed, reads, astray, fun any => checked.mp any astray⟩

end LuaLint.Disk
