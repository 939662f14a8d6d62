import LuaLint.Proofs.Files.Walk

/-!
# The directories on the way

A path that leads to a directory goes through other directories, which its text shows one after the other.

* **What is shown is there** (`Disk.exists_directory_of_prefix`): each of the paths that a path to a directory
  begins with leads to a directory too.
* **Locations have no dots** (`Disk.dotless_follow`), if the working directory has none, and names without dots
  that a directory is below are followed as they are (`Disk.haltFrom_of_descent`): there can be no link on
  the way, as nothing is below a link.
* So the absolute path of a directory leads to where it says (`Disk.halt_absolute`), and so does a relative
  path, below the working directory, if it goes down by names (`Disk.halt_descending`).
* **What is below a path is below the directory it leads to** (`Disk.follow_below_absolute`), as from there
  more links may be followed (`Disk.haltFrom_of_le`).
* **Paths that are followed alike** can be continued alike and read alike (`Disk.read_below_congr`).
-/

namespace LuaLint.Disk

variable {d : Disk} {p q : Path} {l here : Location} {parts : List String} {links : Nat}
  {members : List (String × Entry)}

/-! ## Where paths lead on the way -/

/-- A path that leads to a location has nothing left there. -/
theorem halt_of_follow (leads : d.follow p = .ok l) : (d.halt p).left = [] ∧ (d.halt p).here = l :=
  Halt.outcome_eq_ok_iff.mp ((follow_eq_outcome p).symm.trans leads)

theorem follow_of_halt (done : (d.halt p).left = []) : d.follow p = .ok (d.halt p).here := by
  rw [follow_eq_outcome]
  exact Halt.outcome_eq_ok_iff.mpr ⟨done, rfl⟩

/-- More components are followed from where a path leads. -/
theorem halt_below (done : (d.halt p).left = []) (parts : List String) :
    d.halt (p.below parts) = d.haltFrom (d.halt p).links (d.halt p).here parts :=
  haltFrom_append_of_done done parts

/-- Where there is something below a path, it leads to a directory. -/
theorem exists_directory_of_below (further : parts ≠ []) (leads : d.follow (p.below parts) = .ok l) :
    ∃ m inside, d.follow p = .ok m ∧ d.at? m = some (.directory inside) := by
  obtain ⟨ends, -⟩ := halt_of_follow leads
  by_cases done : (d.halt p).left = []
  · rw [halt_below done] at ends
    by_cases here : ∃ inside, d.at? (d.halt p).here = some (.directory inside)
    · obtain ⟨inside, here⟩ := here
      exact ⟨_, inside, follow_of_halt done, here⟩
    · rw [haltFrom_of_no_directory _ (not_exists.mp here)] at ends
      exact absurd ends further
  · have kept : (d.halt (p.below parts)).left = (d.halt p).left ++ parts :=
      congrArg Halt.left (haltFrom_append_of_left done parts)
    exact absurd (kept.symm.trans ends) (List.append_ne_nil_of_left_ne_nil done parts)

/-- **Each beginning of a path to a directory leads to a directory.** -/
theorem exists_directory_of_prefix (leads : d.follow p = .ok l)
    (directory : d.at? l = some (.directory members)) {front : List String} (within : front <+: p.parts) :
    ∃ m inside, d.follow { p with parts := front } = .ok m ∧ d.at? m = some (.directory inside) := by
  obtain ⟨rest, split⟩ := within
  cases rest with
  | nil =>
    obtain rfl : front = p.parts := (List.append_nil front).symm.trans split
    exact ⟨l, members, leads, directory⟩
  | cons name rest =>
    have whole : ({ p with parts := front } : Path).below (name :: rest) = p :=
      congrArg (Path.mk p.root) split
    exact exists_directory_of_below (List.cons_ne_nil name rest) (whole ▸ leads)

/-! ## Locations without dots -/

/-- No component of the location is `.` or `..`. -/
def Dotless (l : Location) : Prop := ∀ name ∈ l, name ≠ "." ∧ name ≠ ".."

instance (l : Location) : Decidable (Dotless l) :=
  inferInstanceAs (Decidable (∀ name ∈ l, name ≠ "." ∧ name ≠ ".."))

theorem dotless_nil : Dotless [] := fun _ none => absurd none List.not_mem_nil

theorem Dotless.of_prefix (dotless : Dotless l) {front : Location} (within : front <+: l) : Dotless front :=
  fun name listed => dotless name (within.subset listed)

theorem Dotless.of_suffix (dotless : Dotless l) {rest : Location} (within : rest <:+ l) : Dotless rest :=
  fun name listed => dotless name (within.subset listed)

theorem dotless_linkOrigin (dotless : Dotless here) (target : String) :
    Dotless (linkOrigin here target) := by
  unfold linkOrigin
  cases (Path.ofText target).isAbsolute with
  | true => exact dotless_nil
  | false => exact dotless

/-- **Following components ends where there are no dots**, if it begins there. -/
theorem dotless_haltFrom (dotless : Dotless here) : Dotless (d.haltFrom links here parts).here := by
  fun_induction haltFrom d links here parts with
  | case1 => exact dotless
  | case2 links here rest members directory ih => exact ih dotless
  | case3 links here rest members directory other ih =>
    exact ih (dotless.of_prefix here.dropLast_prefix)
  | case4 => exact dotless
  | case5 => exact dotless
  | case6 here name rest members directory stays descends target link links ih =>
    exact ih (dotless_linkOrigin dotless target)
  | case7 links here name rest members directory stays descends e noLink entry ih =>
    refine ih fun other listed => ?_
    rcases List.mem_append.mp listed with above | alone
    · exact dotless other above
    · rw [List.mem_singleton.mp alone]
      exact ⟨stays, descends⟩
  | case8 => exact dotless

/-- A path leads to a location without dots. -/
theorem dotless_follow (home : Dotless d.cwd) (leads : d.follow p = .ok l) : Dotless l := by
  obtain ⟨-, rfl⟩ := halt_of_follow leads
  refine dotless_haltFrom ?_
  unfold origin
  split
  · exact dotless_nil
  · exact home

/-! ## Descents -/

/-- What a directory is below is a directory. -/
theorem exists_directory_above (directory : d.at? l = some (.directory members)) {m : Location}
    (above : m <+: l) : ∃ inside, d.at? m = some (.directory inside) := by
  obtain ⟨rest, rfl⟩ := above
  cases rest with
  | nil => exact ⟨members, (List.append_nil m) ▸ directory⟩
  | cons name rest => exact exists_directory_of_at?_append (List.cons_ne_nil name rest) directory

/-- **Names that a directory is below are followed as they are.** -/
theorem haltFrom_of_descent (dotless : Dotless parts)
    (directory : d.at? (here ++ parts) = some (.directory members)) :
    d.haltFrom links here parts = ⟨links, here ++ parts, []⟩ := by
  induction parts generalizing here with
  | nil => rw [haltFrom, List.append_nil]
  | cons name rest ih =>
    obtain ⟨stays, descends⟩ := dotless name List.mem_cons_self
    rw [List.append_cons] at directory ⊢
    obtain ⟨inside, entered⟩ := exists_directory_above directory (List.prefix_append _ rest)
    have noLink (target : String) : Entry.directory inside ≠ .link target := by
      intro same
      cases same
    rw [haltFrom_of_entry stays descends entered noLink]
    exact ih (dotless.of_suffix (List.suffix_cons name rest)) directory

/-- The absolute path of a directory, or of one above it, leads where it says. -/
theorem halt_absolute (dotless : Dotless l) (directory : d.at? l = some (.directory members)) {m : Location}
    (above : m <+: l) : d.halt (.absolute m) = ⟨linkLimit, m, []⟩ := by
  have origin : d.origin (.absolute m) = [] := rfl
  obtain ⟨inside, there⟩ := exists_directory_above directory above
  rw [halt, origin]
  exact haltFrom_of_descent (dotless.of_prefix above) there

theorem follow_absolute (dotless : Dotless l) (directory : d.at? l = some (.directory members)) {m : Location}
    (above : m <+: l) : d.follow (.absolute m) = .ok m := by
  have alone := halt_absolute dotless directory above
  rw [follow_of_halt (congrArg Halt.left alone), alone]

/-- A relative path that goes down from the working directory leads where it says, and so does each of its
beginnings. -/
theorem halt_descending (relative : p.isAbsolute = false) (dotless : Dotless p.parts)
    (directory : d.at? (d.cwd ++ p.parts) = some (.directory members)) {front : List String}
    (within : front <+: p.parts) :
    d.halt { p with parts := front } = ⟨linkLimit, d.cwd ++ front, []⟩ := by
  have origin : d.origin { p with parts := front } = d.cwd := if_neg (Bool.eq_false_iff.mp relative)
  obtain ⟨inside, there⟩ :=
    exists_directory_above directory ((List.prefix_append_right_inj d.cwd).mpr within)
  rw [halt, origin]
  exact haltFrom_of_descent (dotless.of_prefix within) there

/-! ## Links that may still be followed -/

/-- What can be followed to its end is followed to the same end if more links are allowed. -/
theorem haltFrom_of_le (done : (d.haltFrom links here parts).left = []) {more : Nat}
    (enough : links ≤ more) :
    (d.haltFrom more here parts).left = [] ∧
      (d.haltFrom more here parts).here = (d.haltFrom links here parts).here := by
  fun_induction haltFrom d links here parts generalizing more with
  | case1 links here =>
    rw [haltFrom]
    exact ⟨rfl, rfl⟩
  | case2 links here rest members directory ih =>
    rw [haltFrom_same directory]
    exact ih done enough
  | case3 links here rest members directory other ih =>
    rw [haltFrom_back directory]
    exact ih done enough
  | case4 => cases done
  | case5 => cases done
  | case6 here name rest members directory stays descends target link links ih =>
    rw [haltFrom_of_link stays descends ((at?_member directory name).trans link)]
    cases more with
    | zero => exact absurd enough (Nat.not_succ_le_zero links)
    | succ more => exact ih done (Nat.le_of_succ_le_succ enough)
  | case7 links here name rest members directory stays descends e noLink entry ih =>
    rw [haltFrom_of_entry stays descends ((at?_member directory name).trans entry) noLink]
    exact ih done enough
  | case8 => cases done

/-- **What is followed below a path is followed below the directory it leads to.** The converse fails: links
on the way to the directory count too. -/
theorem follow_below_absolute (dotless : Dotless l) (directory : d.at? l = some (.directory members))
    (leads : d.follow p = .ok l) {m : Location} (further : d.follow (p.below parts) = .ok m) :
    d.follow ((Path.absolute l).below parts) = .ok m := by
  obtain ⟨done, there⟩ := halt_of_follow leads
  obtain ⟨ends, here⟩ := halt_of_follow further
  rw [halt_below done, there] at ends here
  have alone := halt_absolute dotless directory (List.prefix_refl l)
  have below : d.halt ((Path.absolute l).below parts) = d.haltFrom linkLimit l parts := by
    rw [halt_below (congrArg Halt.left alone), alone]
  have few : (d.halt p).links ≤ linkLimit := links_haltFrom_le linkLimit (d.origin p) p.parts
  obtain ⟨rich, same⟩ := haltFrom_of_le ends few
  rw [follow_of_halt (below ▸ rich), below, same, here]

/-! ## Paths that are followed alike -/

theorem follow_congr (alike : d.halt p = d.halt q) : d.follow p = d.follow q := by
  rw [follow_eq_outcome, follow_eq_outcome, alike]

/-- **Below paths that are followed alike the same is read.** -/
theorem read_below_congr (alike : d.halt p = d.halt q) (done : (d.halt p).left = [])
    (parts : List String) : d.read (p.below parts) = d.read (q.below parts) := by
  have below : d.halt (p.below parts) = d.halt (q.below parts) := by
    rw [halt_below done, halt_below (alike ▸ done), alike]
  rw [read, read, entry, entry, follow_congr below]

end LuaLint.Disk
