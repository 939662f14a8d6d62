import LuaLint.Proofs.Files.Canonical
import LuaLint.Proofs.Table

/-!
# The names in a directory

On a disk a name stands for one entry of its directory (`Disk.Unambiguous`). The members of a directory
are a list here, which could hold a name twice; a look-up would then see the first entry and a walk
through the directory both. Where the names differ, the two agree (`Table.get?_eq_some_iff_mem`).

* **An entry is unambiguous exactly if its members are and their names differ**
  (`Entry.unambiguous_directory_iff`).
* **No change makes a disk ambiguous**: the empty disk is not, and writing, linking, making directories
  and removing keep it so.
-/

namespace LuaLint

namespace Entry

/-- In each directory a name stands for one entry. -/
def Unambiguous (e : Entry) : Prop :=
  ∀ l members, e.at? l = some (.directory members) → (Table.names members).Nodup

theorem unambiguous_file (content : List UInt8) : (file content).Unambiguous := by
  intro l members found
  cases l <;> cases found

theorem unambiguous_link (target : String) : (link target).Unambiguous := by
  intro l members found
  cases l <;> cases found

theorem unambiguous_directory_iff {members : List (String × Entry)} :
    (directory members).Unambiguous ↔
      (Table.names members).Nodup ∧ ∀ name e, Table.get? members name = some e → e.Unambiguous := by
  constructor
  · intro u
    refine ⟨u [] members rfl, fun name e there l within found => u (name :: l) within ?_⟩
    rw [at?, there]
    exact found
  · rintro ⟨apart, each⟩ l within found
    cases l with
    | nil =>
      cases found
      exact apart
    | cons name l =>
      rw [at?] at found
      split at found
      · rename_i e there
        exact each name e there l within found
      · cases found

/-- What is below an entry is no more ambiguous than the entry. -/
theorem Unambiguous.of_at? {e below : Entry} {l : Location} (u : e.Unambiguous)
    (found : e.at? l = some below) : below.Unambiguous := by
  intro m members there
  apply u (l ++ m)
  rw [at?_append, found]
  exact there

/-- A directory without a name is no more ambiguous than before. -/
theorem unambiguous_filter {members : List (String × Entry)} (u : (directory members).Unambiguous)
    (keep : String × Entry → Bool) : (directory (members.filter keep)).Unambiguous := by
  obtain ⟨apart, each⟩ := unambiguous_directory_iff.mp u
  have fewer : (Table.names (members.filter keep)).Nodup :=
    apart.sublist (List.filter_sublist.map _)
  refine unambiguous_directory_iff.mpr ⟨fewer, fun name e found => each name e ?_⟩
  rw [Table.get?_eq_some_iff_mem fewer] at found
  exact (Table.get?_eq_some_iff_mem apart).mpr (List.mem_of_mem_filter found)

/-- A directory stays unambiguous if an unambiguous entry is put under a name. -/
theorem unambiguous_put {members : List (String × Entry)} {e : Entry}
    (u : (directory members).Unambiguous) (new : e.Unambiguous) (name : String) :
    (directory (Table.put name e members)).Unambiguous := by
  obtain ⟨apart, each⟩ := unambiguous_directory_iff.mp u
  refine unambiguous_directory_iff.mpr ⟨Table.nodup_names_put apart name e, ?_⟩
  intro other within found
  by_cases same : other = name
  · subst same
    rw [Table.get?_put_self] at found
    exact Option.some.inj found ▸ new
  · rw [Table.get?_put_of_ne members e same] at found
    exact each other within found

/-- A change at one location leaves no name ambiguous if what it puts there is not. -/
theorem unambiguous_alter {f : Option Entry → Entry}
    (keeps : ∀ e, (∀ old ∈ e, Unambiguous old) → (f e).Unambiguous) (l : Location) (e : Option Entry)
    (u : ∀ old ∈ e, Unambiguous old) : (alter f l e).Unambiguous := by
  fun_induction alter f l e with
  | case1 e => exact keeps e u
  | case2 name rest members ih =>
    have here := u _ rfl
    refine unambiguous_put here (ih fun old there => ?_) name
    exact (unambiguous_directory_iff.mp here).2 name old there
  | case3 name rest e noDirectory ih =>
    have alone : (directory []).Unambiguous :=
      unambiguous_directory_iff.mpr ⟨List.nodup_nil, nofun⟩
    exact unambiguous_put alone (ih nofun) name

theorem Unambiguous.without {e : Entry} (u : e.Unambiguous) (l : Location) :
    (without l e).Unambiguous := by
  fun_induction Entry.without l e with
  | case1 name members => exact unambiguous_filter u _
  | case2 name rest members last e there ih =>
    exact unambiguous_put u (ih ((unambiguous_directory_iff.mp u).2 name e there)) name
  | case3 => exact u
  | case4 => exact u

end Entry

/-! ## Disks -/

namespace Disk

variable {d : Disk}

/-- In each directory a name stands for one entry. -/
def Unambiguous (d : Disk) : Prop := (Entry.directory d.root).Unambiguous

theorem unambiguous_empty : ({} : Disk).Unambiguous :=
  Entry.unambiguous_directory_iff.mpr ⟨List.nodup_nil, nofun⟩

theorem unambiguous_members {e : Entry} (u : e.Unambiguous) :
    (Entry.directory (members e)).Unambiguous := by
  cases e with
  | directory => exact u
  | file => exact unambiguous_empty
  | link => exact unambiguous_empty

theorem Unambiguous.alter (u : d.Unambiguous) {f : Option Entry → Entry}
    (keeps : ∀ e, (∀ old ∈ e, Entry.Unambiguous old) → (f e).Unambiguous) (l : Location) :
    (d.alter f l).Unambiguous := by
  apply unambiguous_members
  apply Entry.unambiguous_alter keeps
  rintro old ⟨⟩
  exact u

theorem Unambiguous.write (u : d.Unambiguous) (p : Path) (content : List UInt8) :
    (d.write p content).Unambiguous :=
  u.alter (fun _ _ => Entry.unambiguous_file content) _

theorem Unambiguous.link (u : d.Unambiguous) (p : Path) (target : String) :
    (d.link p target).Unambiguous :=
  u.alter (fun _ _ => Entry.unambiguous_link target) _

theorem Unambiguous.makeDirectory (u : d.Unambiguous) (p : Path) :
    (d.makeDirectory p).Unambiguous := by
  refine u.alter (fun e old => ?_) _
  split
  · exact old _ rfl
  · exact unambiguous_empty

theorem Unambiguous.remove (u : d.Unambiguous) (p : Path) : (d.remove p).Unambiguous :=
  unambiguous_members (u.without _)

end Disk

end LuaLint
