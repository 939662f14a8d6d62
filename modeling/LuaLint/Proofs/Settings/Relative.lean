import LuaLint.Proofs.Files.Descent
import LuaLint.Proofs.Files.Spelling
import LuaLint.Proofs.Settings.Nearest

/-!
# Settings for a relative path

The search for settings goes up by the text of a path, and a relative path does not show what is above the
working directory.

* **What is loaded is what the directory where the search ends would load** (`loaded_of_ends`), by whatever links
  or detours a path comes there, and it is the default if the search ends nowhere (`loaded_of_not_ends`).
* **The directories that are looked into** (`Shows`) are, from the absolute path of a directory, all those above
  it (`shows_absolute_iff`), and from a relative path that goes down, those of them that are not above the
  working directory (`shows_descending_iff`).
* From a relative path that goes down the search ends where it ends from the absolute path, or, if that is above
  the working directory, nowhere (`ends_descending_iff`). So **such a path gives the settings of its
  directory exactly if they do not come from above the working directory**, or are the default ones anyway
  (`load_of_relative`).
* Where they differ (`load_relative_differs`): a file above the working directory is not found from `.`, and a file
  below a directory is found from `../..`.
-/

namespace LuaLint.Settings

open Disk (Dotless)

variable {limits : Toml.Limits} {recorded : Bool} {d : Disk} {p start start' dir dir' : Path}
  {l m : Location} {front : List String} {members : List (String × Entry)}

/-! ## What is loaded -/

/-- The settings that hold in a directory, unless there are none because of what is in a file. -/
def loaded (limits : Toml.Limits) (recorded : Bool) (d : Disk) (start : Path) : Option Settings :=
  (load limits recorded d start).outcome.toOption

/-- The path of a file plays no part in the settings that are read from it. -/
theorem readFrom_outcome_congr {path path' : Path} (same : d.read path = d.read path') :
    (readFrom limits recorded d path).outcome.toOption =
      (readFrom limits recorded d path').outcome.toOption := by
  rw [readFrom, readFrom, same]
  rcases d.read path' with reason | bytes
  · rfl
  · dsimp only
    rcases Toml.read limits bytes with (_ | (flaw | refusal)) | data
    · rfl
    · rfl
    · rfl
    · rfl

theorem loaded_congr (nearest : Nearest d start dir) (nearest' : Nearest d start' dir')
    (same : d.read (dir.below [fileName]) = d.read (dir'.below [fileName])) :
    loaded limits recorded d start = loaded limits recorded d start' := by
  rw [loaded, loaded, load, load, nearest.find?_eq, nearest'.find?_eq]
  exact readFrom_outcome_congr same

/-- **What is loaded hangs on the directory where the search ends**, and not on the path to it. -/
theorem loaded_of_follow (nearest : Nearest d start dir) (nearest' : Nearest d start' dir')
    (leads : d.follow dir = .ok m) (leads' : d.follow dir' = .ok m) :
    loaded limits recorded d start = loaded limits recorded d start' := by
  obtain ⟨content, reads⟩ := Disk.isFile_iff.mp (hasFile_iff.mp nearest.has)
  obtain ⟨content', reads'⟩ := Disk.isFile_iff.mp (hasFile_iff.mp nearest'.has)
  have meant : d.canonical (dir.below [fileName]) = d.canonical (dir'.below [fileName]) := by
    rw [Disk.canonical_below leads, Disk.canonical_below leads']
  apply loaded_congr nearest nearest'
  apply Disk.read_eq_of_canonical meant
  · rw [reads, reads']
    exact Iff.rfl
  · rw [reads]
    rfl

theorem Nearest.unique (nearest : Nearest d start dir) (nearest' : Nearest d start dir') : dir = dir' := by
  have found := nearest.find?_eq.symm.trans nearest'.find?_eq
  exact Path.below_injective [fileName] (Option.some.inj found)

/-! ## Where the search ends -/

/-- The search from a directory ends in the directory at the location. -/
def Ends (d : Disk) (start : Path) (m : Location) : Prop :=
  ∃ dir, Nearest d start dir ∧ d.follow dir = .ok m

theorem exists_directory_of_hasFile (has : HasFile d dir) :
    ∃ m inside, d.follow dir = .ok m ∧ d.at? m = some (.directory inside) := by
  obtain ⟨l, content, leads, -⟩ := has
  exact Disk.exists_directory_of_below (List.cons_ne_nil fileName []) leads

theorem loaded_of_not_ends (nowhere : ∀ m, ¬ Ends d start m) : loaded limits recorded d start = some defaults := by
  cases found : find? d start with
  | none =>
    rw [loaded, load_of_none found]
    rfl
  | some path =>
    obtain ⟨dir, nearest, -⟩ := find?_eq_some_iff.mp found
    obtain ⟨m, inside, leads, -⟩ := exists_directory_of_hasFile nearest.has
    exact absurd ⟨dir, nearest, leads⟩ (nowhere m)

/-- A directory that has a file of settings is the nearest to itself. -/
theorem nearest_self (has : HasFile d dir) : Nearest d dir dir where
  above := ⟨rfl, List.prefix_refl dir.parts⟩
  has := has
  deepest _ above deeper := absurd above.2.length_le (Nat.not_le_of_lt deeper)

/-- **What is loaded is what the directory where the search ends would load.** -/
theorem loaded_of_ends (home : Dotless d.cwd) (ends : Ends d start m) :
    loaded limits recorded d start = loaded limits recorded d (.absolute m) := by
  obtain ⟨dir, nearest, leads⟩ := ends
  obtain ⟨n, inside, leads', directory⟩ := exists_directory_of_hasFile nearest.has
  obtain rfl : m = n := Except.ok.inj (leads.symm.trans leads')
  have dotless : Dotless m := Disk.dotless_follow home leads
  obtain ⟨l, content, further, there⟩ := nearest.has
  have has : HasFile d (.absolute m) :=
    ⟨l, content, Disk.follow_below_absolute dotless directory leads further, there⟩
  exact loaded_of_follow nearest (nearest_self has) leads
    (Disk.follow_absolute dotless directory (List.prefix_refl m))

/-! ## Directories that are looked into -/

/-- The search from a directory looks into the directory at the location. -/
def Shows (d : Disk) (start : Path) (m : Location) : Prop :=
  ∃ dir, dir.AtOrAbove start ∧ d.follow dir = .ok m

theorem atOrAbove_absolute_iff :
    dir.AtOrAbove (.absolute l) ↔ ∃ m, m <+: l ∧ dir = .absolute m := by
  constructor
  · rintro ⟨root, within⟩
    exact ⟨dir.parts, within, congrArg (Path.mk · dir.parts) root⟩
  · rintro ⟨m, within, rfl⟩
    exact ⟨rfl, within⟩

theorem atOrAbove_iff : dir.AtOrAbove p ↔ ∃ front, front <+: p.parts ∧ dir = { p with parts := front } := by
  constructor
  · rintro ⟨root, within⟩
    exact ⟨dir.parts, within, congrArg (Path.mk · dir.parts) root⟩
  · rintro ⟨front, within, rfl⟩
    exact ⟨rfl, within⟩

/-- **From its absolute path, all directories above a directory are looked into**, and no others. -/
theorem shows_absolute_iff (dotless : Dotless l) (directory : d.at? l = some (.directory members)) :
    Shows d (.absolute l) m ↔ m <+: l := by
  have leads {n : Location} (above : n <+: l) : d.follow (.absolute n) = .ok n :=
    Disk.follow_absolute dotless directory above
  constructor
  · rintro ⟨dir, above, followed⟩
    obtain ⟨n, within, rfl⟩ := atOrAbove_absolute_iff.mp above
    rw [leads within] at followed
    exact Except.ok.inj followed ▸ within
  · intro above
    exact ⟨.absolute m, atOrAbove_absolute_iff.mpr ⟨m, above, rfl⟩, leads above⟩

/-- The search from an absolute path ends where the nearest directory on the way is. -/
theorem ends_absolute_iff (dotless : Dotless l) (directory : d.at? l = some (.directory members)) :
    Ends d (.absolute l) m ↔ Nearest d (.absolute l) (.absolute m) := by
  constructor
  · rintro ⟨dir, nearest, leads⟩
    obtain ⟨n, within, rfl⟩ := atOrAbove_absolute_iff.mp nearest.above
    rw [Disk.follow_absolute dotless directory within] at leads
    exact Except.ok.inj leads ▸ nearest
  · intro nearest
    obtain ⟨n, within, same⟩ := atOrAbove_absolute_iff.mp nearest.above
    obtain rfl : m = n := congrArg Path.parts same
    exact ⟨_, nearest, Disk.follow_absolute dotless directory within⟩

theorem Ends.unique (ends : Ends d start m) {n : Location} (ends' : Ends d start n) : m = n := by
  obtain ⟨dir, nearest, leads⟩ := ends
  obtain ⟨dir', nearest', leads'⟩ := ends'
  obtain rfl := nearest.unique nearest'
  exact Except.ok.inj (leads.symm.trans leads')

/-! ## Going down -/

section descending

variable (relative : p.isAbsolute = false) (dotless : Dotless (d.cwd ++ p.parts))
  (directory : d.at? (d.cwd ++ p.parts) = some (.directory members))
include relative dotless directory

theorem halt_alike (within : front <+: p.parts) :
    d.halt { p with parts := front } = ⟨Disk.linkLimit, d.cwd ++ front, []⟩ ∧
      d.halt (.absolute (d.cwd ++ front)) = ⟨Disk.linkLimit, d.cwd ++ front, []⟩ := by
  have below : Dotless p.parts := dotless.of_suffix (List.suffix_append d.cwd p.parts)
  exact ⟨Disk.halt_descending relative below directory within,
    Disk.halt_absolute dotless directory ((List.prefix_append_right_inj d.cwd).mpr within)⟩

theorem follow_descending (within : front <+: p.parts) :
    d.follow { p with parts := front } = .ok (d.cwd ++ front) := by
  obtain ⟨alone, -⟩ := halt_alike relative dotless directory within
  rw [Disk.follow_of_halt (congrArg Disk.Halt.left alone), alone]

/-- **Going down, the directories between the working directory and the last one are looked into.** -/
theorem shows_descending_iff : Shows d p m ↔ d.cwd <+: m ∧ m <+: d.cwd ++ p.parts := by
  have leads {front : List String} (within : front <+: p.parts) :=
    follow_descending relative dotless directory within
  constructor
  · rintro ⟨dir, above, followed⟩
    obtain ⟨front, within, rfl⟩ := atOrAbove_iff.mp above
    rw [leads within] at followed
    obtain rfl := Except.ok.inj followed
    exact ⟨List.prefix_append d.cwd front, (List.prefix_append_right_inj d.cwd).mpr within⟩
  · rintro ⟨⟨front, rfl⟩, above⟩
    have within := (List.prefix_append_right_inj d.cwd).mp above
    exact ⟨_, atOrAbove_iff.mpr ⟨front, within, rfl⟩, leads within⟩

theorem read_descending (within : front <+: p.parts) :
    d.read (({ p with parts := front } : Path).below [fileName]) =
      d.read ((Path.absolute (d.cwd ++ front)).below [fileName]) := by
  obtain ⟨down, absolute⟩ := halt_alike relative dotless directory within
  exact Disk.read_below_congr (down.trans absolute.symm) (congrArg Disk.Halt.left down) [fileName]

theorem hasFile_descending_iff (within : front <+: p.parts) :
    HasFile d { p with parts := front } ↔ HasFile d (.absolute (d.cwd ++ front)) := by
  rw [hasFile_iff, hasFile_iff, Disk.isFile_iff, Disk.isFile_iff,
    read_descending relative dotless directory within]

/-- A directory is the nearest from both paths, if it is not above the working directory. -/
theorem nearest_descending_iff (within : front <+: p.parts) :
    Nearest d p { p with parts := front } ↔
      Nearest d (.absolute (d.cwd ++ p.parts)) (.absolute (d.cwd ++ front)) := by
  have alike {front : List String} (within : front <+: p.parts) :
      HasFile d { p with parts := front } ↔ HasFile d (.absolute (d.cwd ++ front)) :=
    hasFile_descending_iff relative dotless directory within
  have below {front : List String} (within : front <+: p.parts) : d.cwd ++ front <+: d.cwd ++ p.parts :=
    (List.prefix_append_right_inj d.cwd).mpr within
  constructor
  · intro nearest
    refine ⟨atOrAbove_absolute_iff.mpr ⟨_, below within, rfl⟩, (alike within).mp nearest.has, ?_⟩
    intro other above deeper has
    obtain ⟨n, inside, rfl⟩ := atOrAbove_absolute_iff.mp above
    -- a deeper directory is below the working directory too, and so the relative path shows it
    have far : (d.cwd ++ front).length < n.length := deeper
    rw [List.length_append] at far
    obtain ⟨longer, rfl⟩ : d.cwd <+: n :=
      List.prefix_of_prefix_length_le (List.prefix_append _ _) inside (Nat.le_of_add_right_le far.le)
    have inside : longer <+: p.parts := (List.prefix_append_right_inj d.cwd).mp inside
    refine nearest.deepest _ (atOrAbove_iff.mpr ⟨longer, inside, rfl⟩) ?_ ((alike inside).mpr has)
    rw [List.length_append] at far
    exact Nat.lt_of_add_lt_add_left far
  · intro nearest
    refine ⟨atOrAbove_iff.mpr ⟨front, within, rfl⟩, (alike within).mpr nearest.has, ?_⟩
    intro other above deeper has
    obtain ⟨longer, inside, rfl⟩ := atOrAbove_iff.mp above
    refine nearest.deepest _ (atOrAbove_absolute_iff.mpr ⟨_, below inside, rfl⟩) ?_ ((alike inside).mp has)
    change (d.cwd ++ front).length < (d.cwd ++ longer).length
    rw [List.length_append, List.length_append]
    exact Nat.add_lt_add_left deeper _

/-- **Going down, the search ends where it ends from the absolute path, unless that is above the working
directory.** -/
theorem ends_descending_iff :
    Ends d p m ↔ Ends d (.absolute (d.cwd ++ p.parts)) m ∧ d.cwd <+: m := by
  rw [ends_absolute_iff dotless directory]
  constructor
  · rintro ⟨dir, nearest, leads⟩
    obtain ⟨front, within, rfl⟩ := atOrAbove_iff.mp nearest.above
    rw [follow_descending relative dotless directory within] at leads
    obtain rfl := Except.ok.inj leads
    refine ⟨?_, List.prefix_append d.cwd front⟩
    exact (nearest_descending_iff relative dotless directory within).mp nearest
  · rintro ⟨nearest, front, rfl⟩
    have within : front <+: p.parts := (List.prefix_append_right_inj d.cwd).mp nearest.above.2
    exact ⟨_, (nearest_descending_iff relative dotless directory within).mpr nearest,
      follow_descending relative dotless directory within⟩

/-- Going down, the same is loaded unless that comes from above the working directory. -/
theorem loaded_descending_iff (home : Dotless d.cwd) :
    loaded limits recorded d p = loaded limits recorded d (.absolute (d.cwd ++ p.parts)) ↔
      ∀ m, Ends d (.absolute (d.cwd ++ p.parts)) m →
        d.cwd <+: m ∨ loaded limits recorded d (.absolute (d.cwd ++ p.parts)) = some defaults := by
  have ends_iff (m : Location) :
      Ends d p m ↔ Ends d (.absolute (d.cwd ++ p.parts)) m ∧ d.cwd <+: m :=
    ends_descending_iff relative dotless directory
  constructor
  · intro same m ends
    by_cases below : d.cwd <+: m
    · exact .inl below
    · refine .inr (same.symm.trans (loaded_of_not_ends fun n stops => ?_))
      obtain ⟨ends', below'⟩ := ends_iff n |>.mp stops
      exact below (ends.unique ends' ▸ below')
  · intro kept
    by_cases stops : ∃ m, Ends d p m
    · obtain ⟨m, stops⟩ := stops
      rw [loaded_of_ends home stops, loaded_of_ends home (ends_iff m |>.mp stops).1]
    · rw [loaded_of_not_ends (not_exists.mp stops)]
      by_cases ends : ∃ m, Ends d (.absolute (d.cwd ++ p.parts)) m
      · obtain ⟨m, ends⟩ := ends
        rcases kept m ends with below | default
        · exact absurd ⟨m, (ends_iff m).mpr ⟨ends, below⟩⟩ stops
        · exact default.symm
      · exact (loaded_of_not_ends (not_exists.mp ends)).symm

end descending

/-! ## Where a path leads -/

/-- **The search goes up by the text of a path, which need not be the way up from where it leads.** From the
absolute path of a directory all directories above it are looked into. From a path that leads there
all directories that its text shows are: what is loaded is what the one would load in which the search
ends, and the same as from the absolute path if both searches end in one, and it is the default if the
search ends nowhere. From a relative path that goes down these are the directories from the working
directory on, and the same is loaded as from the absolute path exactly if that does not come from above
the working directory or is the default. -/
theorem load_of_relative (limits : Toml.Limits) (recorded : Bool) (home : Dotless d.cwd)
    (relative : p.isAbsolute = false)
    (leads : d.follow p = .ok l) (directory : d.at? l = some (.directory members)) :
    (∀ m, Shows d (.absolute l) m ↔ m <+: l) ∧
    (∀ dir, dir.AtOrAbove p → ∃ m inside, d.follow dir = .ok m ∧ d.at? m = some (.directory inside)) ∧
    (∀ m, Ends d p m → loaded limits recorded d p = loaded limits recorded d (.absolute m) ∧
      (Ends d (.absolute l) m → loaded limits recorded d p = loaded limits recorded d (.absolute l))) ∧
    ((∀ m, ¬ Ends d p m) → loaded limits recorded d p = some defaults) ∧
    (l = d.cwd ++ p.parts →
      (∀ m, Shows d p m ↔ d.cwd <+: m ∧ m <+: l) ∧
      (loaded limits recorded d p = loaded limits recorded d (.absolute l) ↔
        ∀ m, Ends d (.absolute l) m →
          d.cwd <+: m ∨ loaded limits recorded d (.absolute l) = some defaults)) := by
  have dotless : Dotless l := Disk.dotless_follow home leads
  refine ⟨fun m => shows_absolute_iff dotless directory, ?_, ?_, loaded_of_not_ends, ?_⟩
  · intro dir above
    obtain ⟨front, within, rfl⟩ := atOrAbove_iff.mp above
    exact Disk.exists_directory_of_prefix leads directory within
  · intro m ends
    refine ⟨loaded_of_ends home ends, fun ends' => ?_⟩
    rw [loaded_of_ends home ends, loaded_of_ends home ends']
  · rintro rfl
    exact ⟨fun m => shows_descending_iff relative dotless directory,
      loaded_descending_iff relative dotless directory home⟩

/-- Two files of settings: one above the working directory, and one below it, which is a link. -/
def annexed : Disk where
  root := [("a", .directory [
    (fileName, .file (Utf8.encode "std = \"lua54\"")),
    ("own", .file (Utf8.encode "std = \"roblox\"")),
    ("b", .directory [("c", .directory [(fileName, .link "../../own"), ("d", .directory [])])])])]
  cwd := ["a", "b"]

/-- Settings below the working directory are those of both searches, though one of them does not come to the
directory above. -/
theorem load_of_relative_annexed :
    let d := annexed
    let down := Path.ofText "c/d"
    let l := ["a", "b", "c", "d"]
    Dotless d.cwd ∧ down.isAbsolute = false ∧ d.follow down = .ok l ∧ d.at? l = some (.directory []) ∧
      Shows d (.absolute l) ["a"] ∧ ¬ Shows d down ["a"] ∧
      loaded {} false d down = loaded {} false d (.absolute l) ∧
      (loaded {} false d down).map standardLibrary = some "roblox" := by
  intro d down l
  have home : Dotless d.cwd := by decide
  have relative : down.isAbsolute = false := by cbv
  have leads : d.follow down = .ok l := by cbv
  have directory : d.at? l = some (.directory []) := by cbv
  obtain ⟨all, -, -, -, descending⟩ := load_of_relative {} false home relative leads directory
  obtain ⟨shown, same⟩ := descending (by cbv)
  refine ⟨home, relative, leads, directory, (all ["a"]).mpr ⟨["b", "c", "d"], rfl⟩, ?_, ?_, by cbv⟩
  · intro above
    exact absurd ((shown ["a"]).mp above).1.length_le (by decide)
  · refine same.mpr fun m ends => .inl ?_
    have found : find? d (.absolute l) = some (.absolute ["a", "b", "c", fileName]) := by cbv
    obtain ⟨dir, nearest, text⟩ := find?_eq_some_iff.mp found
    obtain rfl : dir = .absolute ["a", "b", "c"] := Path.below_injective [fileName] text
    have ends' : Ends d (.absolute l) ["a", "b", "c"] := ⟨_, nearest, by cbv⟩
    exact ends.unique ends' ▸ ⟨["c"], rfl⟩

/-- **A relative path can be wrong in both ways.** From `.` the settings in a directory above are missed, and
from `../..` settings are found that are in no directory above. -/
theorem load_relative_differs :
    let d := annexed
    let others : Settings := { defaults with standardLibrary := "lua54" }
    others ≠ defaults ∧
      d.follow (.ofText ".") = .ok ["a", "b"] ∧
      loaded {} false d (.ofText ".") = some defaults ∧
      loaded {} false d (.absolute ["a", "b"]) = some others ∧
      d.follow (.ofText "../..") = .ok [] ∧
      loaded {} false d (.ofText "../..") = some others ∧
      loaded {} false d (.absolute []) = some defaults := by
  intro d others
  refine ⟨fun same => ?_, ?_, ?_, ?_, ?_, ?_, ?_⟩
  · exact absurd (congrArg standardLibrary same) (by decide)
  · cbv
  · cbv
  · cbv
  · cbv
  · cbv
  · cbv

end LuaLint.Settings
