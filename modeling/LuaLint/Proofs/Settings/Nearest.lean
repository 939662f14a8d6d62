import LuaLint.Proofs.Settings.Loading
import Mathlib

/-!
# The nearest settings

The search for settings goes up from a directory and takes the first file of that name. The directories
on the way are those that the path shows (`Path.mem_upward_iff`), the deeper ones first
(`Path.upward_pairwise`).

* **The file that is found is that of the deepest directory that has one** (`find?_eq_some_iff`); a
  directory or a link that leads nowhere is passed over, whatever it is called.
* So **no other file matters** (`load_nearest`): not one further up, also if the one that is found is no
  document, and none elsewhere.
-/

namespace LuaLint

namespace Path

/-- The directory is the one that a path begins at, or above it as the path shows. -/
def AtOrAbove (dir start : Path) : Prop := dir.root = start.root ∧ dir.parts <+: start.parts

theorem mem_upward_iff {dir start : Path} : dir ∈ start.upward ↔ dir.AtOrAbove start := by
  unfold upward
  rw [List.mem_map]
  constructor
  · rintro ⟨n, -, rfl⟩
    exact ⟨rfl, List.take_prefix _ _⟩
  · rintro ⟨root, within⟩
    have short : dir.parts.length ≤ start.parts.length := within.length_le
    refine ⟨start.parts.length - dir.parts.length, ?_, ?_⟩
    · exact List.mem_range.mpr (Nat.lt_succ_of_le (Nat.sub_le _ _))
    · rw [Nat.sub_sub_self short, ← List.prefix_iff_eq_take.mp within, ← root]

/-- The search comes to deeper directories first. -/
theorem upward_pairwise (start : Path) :
    start.upward.Pairwise fun a b => b.parts.length < a.parts.length := by
  unfold upward
  rw [List.pairwise_map]
  refine List.pairwise_lt_range.imp_of_mem fun {m n} hm hn before => ?_
  have far : n ≤ start.parts.length := Nat.le_of_lt_succ (List.mem_range.mp hn)
  rw [List.length_take, List.length_take]
  omega

theorem below_injective (parts : List String) : Function.Injective (below · parts) := by
  rintro ⟨root, above⟩ ⟨root', above'⟩ same
  rw [Path.mk.injEq] at same ⊢
  exact same.imp_right List.append_cancel_right

end Path

/-- In a list in which a measure falls, a search finds the greatest item that passes. -/
theorem find?_eq_some_iff_of_falling {α : Type} {items : List α} {measure : α → Nat} {passes : α → Bool}
    (falls : items.Pairwise fun a b => measure b < measure a) {a : α} :
    items.find? passes = some a ↔
      a ∈ items ∧ passes a = true ∧ ∀ b ∈ items, measure a < measure b → ¬ passes b = true := by
  rw [List.find?_eq_some_iff_append]
  constructor
  · rintro ⟨here, before, after, rfl, none⟩
    refine ⟨List.mem_append_right _ List.mem_cons_self, here, fun b hb greater => ?_⟩
    obtain ⟨-, later, -⟩ := List.pairwise_append.mp falls
    rcases List.mem_append.mp hb with hb | hb
    · simpa using none b hb
    · rcases List.mem_cons.mp hb with rfl | hb
      · exact absurd greater (Nat.lt_irrefl _)
      · exact absurd greater (Nat.lt_asymm ((List.pairwise_cons.mp later).1 b hb))
  · rintro ⟨listed, here, deepest⟩
    obtain ⟨before, after, rfl⟩ := List.append_of_mem listed
    refine ⟨here, before, after, rfl, fun b hb => ?_⟩
    have greater : measure a < measure b :=
      (List.pairwise_append.mp falls).2.2 b hb a List.mem_cons_self
    simpa using deepest b (List.mem_append_left _ hb) greater

namespace Settings

variable {d : Disk} {start dir path : Path}

/-- In the directory the name of the settings is that of a file, or of a link that leads to one. -/
def HasFile (d : Disk) (dir : Path) : Prop :=
  ∃ l content, d.follow (dir.below [fileName]) = .ok l ∧ d.at? l = some (.file content)

/-- The directory is the deepest on the way up that has a file of settings. -/
structure Nearest (d : Disk) (start dir : Path) : Prop where
  above : dir.AtOrAbove start
  has : HasFile d dir
  deepest : ∀ other, other.AtOrAbove start → dir.parts.length < other.parts.length → ¬ HasFile d other

theorem hasFile_iff : HasFile d dir ↔ d.isFile (dir.below [fileName]) = true := by
  rw [Disk.isFile_iff, HasFile, exists_comm]
  exact exists_congr fun content => Disk.read_eq_ok_iff.symm

/-- **The file that is found is that of the deepest directory that has one.** -/
theorem find?_eq_some_iff :
    find? d start = some path ↔ ∃ dir, Nearest d start dir ∧ dir.below [fileName] = path := by
  unfold find?
  rw [List.find?_map, Option.map_eq_some_iff]
  refine exists_congr fun dir => and_congr_left fun _ => ?_
  rw [find?_eq_some_iff_of_falling start.upward_pairwise]
  simp only [Path.mem_upward_iff, Function.comp_apply, ← hasFile_iff]
  constructor
  · rintro ⟨above, has, deepest⟩
    exact ⟨above, has, deepest⟩
  · intro nearest
    exact ⟨nearest.above, nearest.has, nearest.deepest⟩

/-- No file is found exactly if no directory on the way up has one. -/
theorem find?_eq_none_iff :
    find? d start = none ↔ ∀ dir, dir.AtOrAbove start → ¬ HasFile d dir := by
  unfold find?
  rw [List.find?_map, Option.map_eq_none_iff, List.find?_eq_none]
  simp only [Path.mem_upward_iff, Function.comp_apply, ← hasFile_iff]

theorem Nearest.find?_eq (nearest : Nearest d start dir) :
    find? d start = some (dir.below [fileName]) :=
  find?_eq_some_iff.mpr ⟨dir, nearest, rfl⟩

/-- Which directory is the nearest depends on those up to it. -/
theorem Nearest.of_agree {d' : Disk} (nearest : Nearest d start dir)
    (agree : ∀ other, other.AtOrAbove start → dir.parts.length ≤ other.parts.length →
      (HasFile d' other ↔ HasFile d other)) : Nearest d' start dir where
  above := nearest.above
  has := (agree dir nearest.above (Nat.le_refl _)).mpr nearest.has
  deepest other above deeper has :=
    nearest.deepest other above deeper ((agree other above (Nat.le_of_lt deeper)).mp has)

/-- What is made of a file of settings depends on its bytes. -/
theorem readFrom_congr (limits : Toml.Limits) (recorded : Bool) {d' : Disk}
    (same : d'.read path = d.read path) :
    readFrom limits recorded d' path = readFrom limits recorded d path := by
  rw [readFrom, readFrom, same]

/-- **Only the nearest file of settings counts.** If no directory on the way up has one, the settings are the
default ones. Otherwise there is a deepest directory that has one, and they are what is read from its
file. They stay the same on any disk where the directories up to this one have files of settings alike
and this file has the same bytes, and they are the default ones if its text is no document, whatever
there is further up. -/
theorem load_nearest (limits : Toml.Limits) (recorded : Bool) (d : Disk) (start : Path) :
    ((∃ dir, Nearest d start dir) ∨ ∀ dir, dir.AtOrAbove start → ¬ HasFile d dir) ∧
    ((∀ dir, dir.AtOrAbove start → ¬ HasFile d dir) →
      load limits recorded d start = ⟨[], .ok defaults⟩) ∧
    ∀ dir, Nearest d start dir →
      load limits recorded d start = readFrom limits recorded d (dir.below [fileName]) ∧
      (∀ d' : Disk,
        (∀ other, other.AtOrAbove start → dir.parts.length ≤ other.parts.length →
          (HasFile d' other ↔ HasFile d other)) →
        d'.read (dir.below [fileName]) = d.read (dir.below [fileName]) →
        load limits recorded d' start = load limits recorded d start) ∧
      ∀ text flaw, d.read (dir.below [fileName]) = .ok (Utf8.encode text) →
        Toml.document limits text.toList = .error (.flaw flaw) →
        (load limits recorded d start).outcome = .ok defaults := by
  have reads {d : Disk} {dir : Path} (nearest : Nearest d start dir) :
      load limits recorded d start = readFrom limits recorded d (dir.below [fileName]) := by
    rw [load, nearest.find?_eq]
  refine ⟨?_, fun none => load_of_none (find?_eq_none_iff.mpr none), fun dir nearest => ?_⟩
  · cases found : find? d start with
    | none => exact .inr (find?_eq_none_iff.mp found)
    | some path =>
      obtain ⟨dir, nearest, -⟩ := find?_eq_some_iff.mp found
      exact .inl ⟨dir, nearest⟩
  · refine ⟨reads nearest, fun d' agree same => ?_, fun text flaw read document => ?_⟩
    · rw [reads (nearest.of_agree agree), reads nearest, readFrom_congr limits recorded same]
    · rw [load_of_flawed nearest.find?_eq read document]

/-! ### Several files of that name -/

/-- Three directories inside one another. In the innermost the name of the settings is that of a directory, in
the next that of a link that leads nowhere, and in the outermost that of a link to a text that breaks
off. -/
def threefold (top : List (String × Entry)) : Disk :=
  { root := ("a", .directory [("b", .directory [("c", .directory [(fileName, .directory [])]),
      (fileName, .link "gone")]), (fileName, .link "draft"),
      ("draft", .file (Utf8.encode "std ="))]) :: top
    cwd := ["a", "b", "c"] }

/-- The link to the text that breaks off is the nearest, and so a document above it does not count. -/
theorem load_nearest_threefold :
    let d := threefold [(fileName, .file (Utf8.encode "std = \"lua54\""))]
    let start := Path.absolute d.cwd
    Nearest d start (.absolute ["a"]) ∧ HasFile d (.absolute []) ∧
      (load {} true d start).outcome = .ok defaults ∧
      load {} true (threefold []) start = load {} true d start := by
  intro d start
  have found : find? d start = some (.absolute ["a", fileName]) := by cbv
  obtain ⟨dir, nearest, same⟩ := find?_eq_some_iff.mp found
  obtain rfl : dir = .absolute ["a"] := Path.below_injective [fileName] same
  have reads : d.read (.absolute ["a", fileName]) = .ok (Utf8.encode "std =") := by cbv
  have alike : (threefold []).read (.absolute ["a", fileName]) = .ok (Utf8.encode "std =") := by cbv
  have stopped : (Toml.document {} "std =".toList).map (fun _ => ()) = .error (.flaw .value) := by
    decide +kernel
  obtain ⟨-, -, counts⟩ := load_nearest {} true d start
  obtain ⟨-, congr, broken⟩ := counts _ nearest
  refine ⟨nearest, hasFile_iff.mpr (by cbv), broken "std =" .value reads (Outcome.map_eq_error_iff.mp stopped), ?_⟩
  refine congr (threefold []) (fun other above deep => ?_) (alike.trans reads.symm)
  have way : start.upward = [.absolute ["a", "b", "c"], .absolute ["a", "b"], .absolute ["a"],
      .absolute []] := by cbv
  have on_way := Path.mem_upward_iff.mpr above
  simp only [way, List.mem_cons, List.not_mem_nil, or_false] at on_way
  have agree (other : Path) (same : (threefold []).isFile (other.below [fileName]) =
      d.isFile (other.below [fileName])) : HasFile (threefold []) other ↔ HasFile d other := by
    rw [hasFile_iff, hasFile_iff, same]
  rcases on_way with rfl | rfl | rfl | rfl
  · exact agree _ (by cbv)
  · exact agree _ (by cbv)
  · exact agree _ (by cbv)
  · cases deep

end Settings

end LuaLint
