import LuaLint.Files.Search
import LuaLint.Proofs.Files.Names
import Mathlib

/-!
# The Lua files below a directory

A directory is walked by recursion on its entries. Links are entries like others that have nothing below
them, so a walk ends whatever the links lead to, and needs no memory of where it has been.

* **What a walk comes to** (`Entry.mem_luaBelow_iff`): the entries below that have the name of a Lua file,
  of any kind and at any depth, as long as a look-up finds them there.
* **No path comes up twice** (`Entry.luaBelow_nodup`), since names differ in each directory.
* **The order** is that of components, which is linear (`Path.le_iff`). So the files come in strictly
  rising order (`Disk.luaFiles_pairwise`).
* `Disk.luaFiles_listing` puts these together for a directory that a path leads to: all Lua files below
  real directories are listed, but for those with a skipped name anywhere in their path as it is written.
-/

namespace LuaLint

/-- A name is that of a Lua file if `.lua` stands at its end, whatever stands before. -/
theorem isLuaName_iff {name : String} : isLuaName name = true ↔ ∃ stem, name = stem ++ ".lua" := by
  unfold isLuaName
  rw [List.isSuffixOf_iff_suffix]
  constructor
  · rintro ⟨stem, same⟩
    refine ⟨String.ofList stem, String.toList_injective ?_⟩
    rw [String.toList_append, String.toList_ofList, same]
  · rintro ⟨stem, rfl⟩
    exact ⟨stem.toList, String.toList_append.symm⟩

namespace Entry

/-! ## What a walk comes to -/

/-- A walk among members comes to their names and to what lies below them. -/
theorem mem_luaAmong {members : List (String × Entry)} {name : String} {rest : List String} :
    name :: rest ∈ luaAmong members ↔
      ∃ e, (name, e) ∈ members ∧ (isLuaName name = true ∧ rest = [] ∨ rest ∈ e.luaBelow) := by
  induction members with
  | nil => exact iff_of_false List.not_mem_nil (by rintro ⟨e, none, -⟩; cases none)
  | cons member members ih =>
    obtain ⟨other, e⟩ := member
    have here : name :: rest ∈ (if isLuaName other then [[other]] else []) ↔
        name = other ∧ isLuaName name = true ∧ rest = [] := by
      split <;> simp_all
    have below : name :: rest ∈ e.luaBelow.map (other :: ·) ↔ name = other ∧ rest ∈ e.luaBelow := by
      simp [eq_comm, and_comm]
    rw [luaAmong, List.mem_append, List.mem_append, here, below, ih, ← and_or_left]
    simp only [List.mem_cons, Prod.mk.injEq, or_and_right, exists_or, and_assoc, exists_and_left,
      exists_eq_left]

/-- A walk does not come to where it begins. -/
theorem nil_not_mem_luaAmong (members : List (String × Entry)) : [] ∉ luaAmong members := by
  induction members with
  | nil => exact List.not_mem_nil
  | cons member members ih =>
    rw [luaAmong]
    split <;> simp [ih]

theorem nil_not_mem_luaBelow (e : Entry) : [] ∉ e.luaBelow := by
  cases e with
  | directory members => exact nil_not_mem_luaAmong members
  | file => exact List.not_mem_nil
  | link => exact List.not_mem_nil

/-- A walk comes to the members of a directory and to what lies below them. -/
theorem cons_mem_luaBelow_iff {e : Entry} (u : e.Unambiguous) {name : String} {rest : List String} :
    name :: rest ∈ e.luaBelow ↔
      ∃ member, e.at? [name] = some member ∧
        (isLuaName name = true ∧ rest = [] ∨ rest ∈ member.luaBelow) := by
  cases e with
  | directory members =>
    have apart := (unambiguous_directory_iff.mp u).1
    have found : (directory members).at? [name] = Table.get? members name := by
      rw [at?]
      cases Table.get? members name <;> rfl
    rw [luaBelow, mem_luaAmong, found]
    simp only [Table.get?_eq_some_iff_mem apart]
  | file => exact iff_of_false List.not_mem_nil (by rintro ⟨_, none, -⟩; cases none)
  | link => exact iff_of_false List.not_mem_nil (by rintro ⟨_, none, -⟩; cases none)

/-- **A walk comes to the entries with the name of a Lua file**, wherever they are below. -/
theorem mem_luaBelow_iff {e : Entry} (u : e.Unambiguous) {front : List String} {name : String} :
    front ++ [name] ∈ e.luaBelow ↔
      isLuaName name = true ∧ ∃ found, e.at? (front ++ [name]) = some found := by
  induction front generalizing e with
  | nil =>
    rw [List.nil_append, cons_mem_luaBelow_iff u]
    constructor
    · rintro ⟨found, there, ⟨lua, -⟩ | deeper⟩
      · exact ⟨lua, found, there⟩
      · exact absurd deeper (nil_not_mem_luaBelow found)
    · rintro ⟨lua, found, there⟩
      exact ⟨found, there, .inl ⟨lua, rfl⟩⟩
  | cons above front ih =>
    have split : e.at? (above :: (front ++ [name])) = (e.at? [above]).bind (·.at? (front ++ [name])) :=
      at?_append e [above] (front ++ [name])
    rw [List.cons_append, cons_mem_luaBelow_iff u, split]
    constructor
    · rintro ⟨member, there, ⟨-, none⟩ | deeper⟩
      · cases List.append_ne_nil_of_right_ne_nil front (List.cons_ne_nil name []) none
      · rw [there]
        exact (ih (u.of_at? there)).mp deeper
    · rintro ⟨lua, found, within⟩
      obtain ⟨member, there, below⟩ := Option.bind_eq_some_iff.mp within
      exact ⟨member, there, .inr ((ih (u.of_at? there)).mpr ⟨lua, found, below⟩)⟩

/-! ## No path comes up twice -/

mutual

theorem luaBelow_nodup : (e : Entry) → e.Unambiguous → e.luaBelow.Nodup
  | .file _, _ => List.nodup_nil
  | .link _, _ => List.nodup_nil
  | .directory members, u => by
    obtain ⟨apart, each⟩ := unambiguous_directory_iff.mp u
    refine luaAmong_nodup members apart fun name e listed => each name e ?_
    exact (Table.get?_eq_some_iff_mem apart).mpr listed

theorem luaAmong_nodup : (members : List (String × Entry)) → (Table.names members).Nodup →
    (∀ name e, (name, e) ∈ members → e.Unambiguous) → (luaAmong members).Nodup
  | [], _, _ => List.nodup_nil
  | (name, e) :: members, apart, each => by
    obtain ⟨new, apart⟩ := List.nodup_cons.mp apart
    have here : (if isLuaName name then [[name]] else []).Nodup := by
      split
      · exact List.nodup_singleton _
      · exact List.nodup_nil
    have below : (e.luaBelow.map (name :: ·)).Nodup :=
      (luaBelow_nodup e (each name e List.mem_cons_self)).map (List.cons_injective)
    have others := luaAmong_nodup members apart fun other e listed =>
      each other e (List.mem_cons_of_mem _ listed)
    -- what the first member gives begins with its name, and nothing else does
    have begins : ∀ path ∈ (if isLuaName name then [[name]] else []) ++ e.luaBelow.map (name :: ·),
        ∃ rest, path = name :: rest := by
      intro path hpath
      rcases List.mem_append.mp hpath with alone | deeper
      · split at alone
        · exact ⟨[], List.mem_singleton.mp alone⟩
        · cases alone
      · obtain ⟨rest, -, rfl⟩ := List.mem_map.mp deeper
        exact ⟨rest, rfl⟩
    rw [luaAmong]
    refine (here.append below ?_).append others ?_
    · intro path alone deeper
      obtain ⟨rest, inside, rfl⟩ := List.mem_map.mp deeper
      split at alone
      · obtain rfl := (List.cons.inj (List.mem_singleton.mp alone)).2
        exact nil_not_mem_luaBelow e inside
      · cases alone
    · intro path first later
      obtain ⟨rest, rfl⟩ := begins path first
      obtain ⟨e', listed, -⟩ := mem_luaAmong.mp later
      exact new (List.mem_map_of_mem (f := (·.1)) listed)

end

end Entry

/-! ## The order of paths -/

namespace Path

/-- A path comes before another unless the components of the other come first. -/
theorem le_iff {p q : Path} : le p q = true ↔ p.parts ≤ q.parts := by
  unfold le
  rw [Bool.not_eq_true', ← Bool.not_eq_true, List.lex_eq_true_iff_lex]
  simp only [decide_eq_true_eq]
  rw [List.lex_lt]
  exact not_lt

theorem le_of_le_of_le (p q r : Path) (pq : le p q = true) (qr : le q r = true) : le p r = true :=
  le_iff.mpr ((le_iff.mp pq).trans (le_iff.mp qr))

theorem le_or_le (p q : Path) : (le p q || le q p) = true := by
  rw [Bool.or_eq_true, le_iff, le_iff]
  exact le_total p.parts q.parts

end Path

/-! ## The files below a directory -/

namespace Disk

variable {d : Disk} {p : Path} {l : Location} {members : List (String × Entry)}

/-- Only a directory has something below it. -/
theorem exists_directory_of_at?_append {m : Location} {e : Entry} (below : m ≠ [])
    (found : d.at? (l ++ m) = some e) : ∃ members, d.at? l = some (.directory members) := by
  obtain ⟨name, rest, rfl⟩ := List.exists_cons_of_ne_nil below
  cases above : d.at? l with
  | none => cases (at?_append_of_none above (name :: rest)).symm.trans found
  | some entry =>
    rw [at?_append above] at found
    cases entry with
    | directory members => exact ⟨members, rfl⟩
    | file => cases found
    | link => cases found

theorem isSkipped_eq_false_iff {q : Path} :
    isSkipped q = false ↔ ∀ part ∈ q.parts, part ∉ skippedNames := by
  simp [isSkipped]

/-- The Lua files below a directory are those that a walk comes to, less those that are skipped. -/
theorem mem_luaFiles_iff (leads : d.follow p = .ok l) (directory : d.at? l = some (.directory members))
    {q : Path} : q ∈ d.luaFiles p ↔
      ∃ parts ∈ (Entry.directory members).luaBelow, q = p.below parts ∧ isSkipped q = false := by
  rw [luaFiles, entry_eq_ok_iff.mpr ⟨l, leads, directory⟩]
  dsimp only
  rw [(List.mergeSort_perm _ _).mem_iff, List.mem_filter, List.mem_map, Bool.not_eq_true']
  constructor
  · rintro ⟨⟨parts, walked, rfl⟩, kept⟩
    exact ⟨parts, walked, rfl, kept⟩
  · rintro ⟨parts, walked, rfl, kept⟩
    exact ⟨⟨parts, walked, rfl⟩, kept⟩

/-- **The Lua files below a directory come in the order of their paths**, each once. -/
theorem luaFiles_pairwise (u : d.Unambiguous) (p : Path) :
    (d.luaFiles p).Pairwise fun a b => a.parts < b.parts := by
  unfold luaFiles
  cases reached : d.entry p with
  | error => exact List.Pairwise.nil
  | ok e =>
    obtain ⟨l, -, found⟩ := entry_eq_ok_iff.mp reached
    have unambiguous : e.Unambiguous := u.of_at? found
    have walked : (e.luaBelow.map p.below).Pairwise fun a b => a.parts ≠ b.parts := by
      rw [List.pairwise_map]
      refine (e.luaBelow_nodup unambiguous).imp fun differ same => differ ?_
      exact List.append_cancel_left same
    have kept := walked.filter (!isSkipped ·)
    have apart := (List.mergeSort_perm _ Path.le).symm.pairwise kept fun h same => h same.symm
    have sorted := List.pairwise_mergeSort Path.le_of_le_of_le Path.le_or_le
      ((e.luaBelow.map p.below).filter (!isSkipped ·))
    exact (sorted.and apart).imp fun ⟨before, differ⟩ => lt_of_le_of_ne (Path.le_iff.mp before) differ

/-- **All Lua files below a directory are listed in order.** A path is listed exactly if it goes on from the
directory by names of which each but the last is that of a real directory, and the last ends in `.lua` and
is that of an entry of any kind, and if no name in it, with those of the directory's own path, is
skipped. Each path comes once, after those with smaller components. -/
theorem luaFiles_listing (u : d.Unambiguous) (leads : d.follow p = .ok l)
    (directory : d.at? l = some (.directory members)) :
    (∀ q, q ∈ d.luaFiles p ↔ ∃ front stem, q = p.below (front ++ [stem ++ ".lua"]) ∧
      (∀ above, above <+: front → ∃ inside, d.at? (l ++ above) = some (.directory inside)) ∧
      (∃ e, d.at? (l ++ (front ++ [stem ++ ".lua"])) = some e) ∧
      ∀ part ∈ q.parts, part ∉ skippedNames) ∧
    (d.luaFiles p).Pairwise (fun a b => a.parts < b.parts) ∧ (d.luaFiles p).Nodup := by
  have unambiguous : (Entry.directory members).Unambiguous := u.of_at? directory
  have rises := luaFiles_pairwise u p
  refine ⟨fun q => ?_, rises, rises.imp fun before same => ?_⟩
  · rw [mem_luaFiles_iff leads directory]
    constructor
    · rintro ⟨parts, walked, rfl, kept⟩
      obtain rfl | ⟨front, name, rfl⟩ := List.eq_nil_or_concat' parts
      · exact absurd walked (Entry.nil_not_mem_luaBelow _)
      obtain ⟨lua, e, there⟩ := (Entry.mem_luaBelow_iff unambiguous).mp walked
      obtain ⟨stem, rfl⟩ := isLuaName_iff.mp lua
      rw [← at?_append directory] at there
      refine ⟨front, stem, rfl, ?_, ⟨e, there⟩, isSkipped_eq_false_iff.mp kept⟩
      rintro above ⟨rest, rfl⟩
      have deeper : rest ++ [stem ++ ".lua"] ≠ [] :=
        List.append_ne_nil_of_right_ne_nil rest (List.cons_ne_nil _ [])
      rw [List.append_assoc, ← List.append_assoc] at there
      exact exists_directory_of_at?_append deeper there
    · rintro ⟨front, stem, rfl, -, ⟨e, there⟩, kept⟩
      rw [at?_append directory] at there
      refine ⟨_, ?_, rfl, isSkipped_eq_false_iff.mpr kept⟩
      exact (Entry.mem_luaBelow_iff unambiguous).mpr ⟨isLuaName_iff.mpr ⟨stem, rfl⟩, e, there⟩
  · subst same
    exact lt_irrefl _ before

/-! ### A directory with a link to itself -/

/-- A working directory with a file below it, a directory that is skipped, a link that leads nowhere and one
that leads back. -/
def looped : Disk :=
  ({} : Disk)
    |>.write (.ofText "/work/a-b.lua") [0x61]
    |>.write (.ofText "/work/a/b.lua") [0x62]
    |>.write (.ofText "/work/build/c.lua") [0x63]
    |>.link (.ofText "/work/lost.lua") "gone"
    |>.link (.ofText "/work/self") "."
    |>.enter (.ofText "/work")

theorem looped_eq : looped =
    { root := [("work", .directory [("a-b.lua", .file [0x61]),
        ("a", .directory [("b.lua", .file [0x62])]), ("build", .directory [("c.lua", .file [0x63])]),
        ("lost.lua", .link "gone"), ("self", .link ".")])]
      cwd := ["work"] } := by
  cbv

theorem looped_unambiguous : looped.Unambiguous := by
  have written := unambiguous_empty.write (.ofText "/work/a-b.lua") [0x61]
    |>.write (.ofText "/work/a/b.lua") [0x62]
    |>.write (.ofText "/work/build/c.lua") [0x63]
  exact (written.link (.ofText "/work/lost.lua") "gone").link (.ofText "/work/self") "."

/-- A file below and a link that leads nowhere are listed, the link that leads back is not gone through, and
what is in a skipped directory is left out. -/
theorem luaFiles_listing_looped :
    let here := Path.ofText "."
    looped.Unambiguous ∧ looped.follow here = .ok ["work"] ∧
      Path.ofText "a/b.lua" ∈ looped.luaFiles here ∧ Path.ofText "lost.lua" ∈ looped.luaFiles here ∧
      Path.ofText "self/a/b.lua" ∉ looped.luaFiles here ∧
      Path.ofText "build/c.lua" ∉ looped.luaFiles here ∧
      (looped.luaFiles here).Pairwise fun a b => a.parts < b.parts := by
  intro here
  have leads : looped.follow here = .ok ["work"] := by
    rw [looped_eq]
    cbv
  obtain ⟨members, directory⟩ : ∃ members, looped.at? ["work"] = some (.directory members) :=
    ⟨_, by rw [looped_eq]; rfl⟩
  obtain ⟨listed, rises, -⟩ := luaFiles_listing looped_unambiguous leads directory
  refine ⟨looped_unambiguous, leads, ?_, ?_, fun through => ?_, fun built => ?_, rises⟩
  · refine (listed _).mpr ⟨["a"], "b", by cbv, ?_, ⟨.file [0x62], by rw [looped_eq]; rfl⟩, by decide⟩
    rintro above ⟨rest, within⟩
    rcases List.cons_eq_append_iff.mp within.symm with ⟨rfl, -⟩ | ⟨more, rfl, none⟩
    · exact ⟨members, directory⟩
    · obtain ⟨rfl, -⟩ := List.append_eq_nil_iff.mp none.symm
      exact ⟨_, by rw [looped_eq]; rfl⟩
  · refine (listed _).mpr ⟨[], "lost", by cbv, ?_, ⟨.link "gone", by rw [looped_eq]; rfl⟩, by decide⟩
    intro above within
    rw [List.prefix_nil.mp within]
    exact ⟨members, directory⟩
  · obtain ⟨front, stem, same, real, -⟩ := (listed _).mp through
    have parts : ["self", "a"] ++ ["b.lua"] = front ++ [stem ++ ".lua"] := congrArg Path.parts same
    obtain ⟨rfl, -⟩ := List.append_inj' parts rfl
    obtain ⟨inside, link⟩ := real ["self"] (List.prefix_append _ _)
    rw [looped_eq] at link
    cases link
  · obtain ⟨-, -, -, -, -, kept⟩ := (listed _).mp built
    exact kept "build" (by decide) (by decide)

end Disk

end LuaLint
