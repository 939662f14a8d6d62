import LuaLint.Files.Disk
import LuaLint.Proofs.Outcome

/-!
# Following a path and its meaning

Following components ends somewhere, with some of them left if there is no going on (`Disk.haltFrom`).

* **Components mean the place where following them ends and what is left below it**
  (`Disk.canonicalFrom_of_halt`), unless what is left leads back or comes to a link. A link is followed
  with its steps put before the rest, but resolved for itself; `Disk.haltFrom_append` brings the two
  together.
* **What a path gives access to is what is where it can be followed to** (`Disk.entry_eq_ok_iff`,
  `Disk.read_eq_ok_iff`).
* So a path that can be followed leads to the location that it means (`Disk.canonical_of_follow`), and
  two paths of one meaning that can both be read give the same bytes (`Disk.read_eq_of_canonical`), however
  they are spelled and through whatever links they go.
-/

namespace LuaLint

/-- The entry at the end of a location is found by stopping anywhere on the way. -/
theorem Entry.at?_append (e : Entry) (l m : Location) : e.at? (l ++ m) = (e.at? l).bind (·.at? m) := by
  induction l generalizing e with
  | nil => simp [Entry.at?]
  | cons name l ih =>
    cases e with
    | directory members =>
      rw [List.cons_append, Entry.at?, Entry.at?]
      cases Table.get? members name with
      | none => rfl
      | some e => exact ih e
    | file => rfl
    | link => rfl

namespace Disk

variable {d : Disk}

/-- The members of a directory are the entries below it. -/
theorem at?_member {here : Location} {members : List (String × Entry)}
    (directory : d.at? here = some (.directory members)) (name : String) :
    d.at? (here ++ [name]) = Table.get? members name := by
  unfold at? at *
  rw [Entry.at?_append, directory, Option.bind_some, Entry.at?]
  cases Table.get? members name <;> rfl

/-- What is there is in a directory. -/
theorem exists_of_at?_member {here : Location} {name : String} {e : Entry}
    (h : d.at? (here ++ [name]) = some e) :
    ∃ members, d.at? here = some (.directory members) ∧ Table.get? members name = some e := by
  have path := h
  unfold at? at h
  rw [Entry.at?_append] at h
  obtain ⟨above, there, below⟩ := Option.bind_eq_some_iff.mp h
  cases above with
  | file => cases below
  | link => cases below
  | directory members => exact ⟨members, there, (at?_member there name).symm.trans path⟩

/-- Nothing is in what is no directory. -/
theorem at?_member_of_no_directory {here : Location}
    (none : ∀ members, d.at? here ≠ some (.directory members)) (name : String) :
    d.at? (here ++ [name]) = .none := by
  cases found : d.at? (here ++ [name]) with
  | none => rfl
  | some e =>
    obtain ⟨members, directory, -⟩ := exists_of_at?_member found
    exact absurd directory (none members)

/-- What is below an entry is on the disk below the entry's location. -/
theorem at?_append {l : Location} {e : Entry} (found : d.at? l = some e) (m : Location) :
    d.at? (l ++ m) = e.at? m := by
  unfold at? at *
  rw [Entry.at?_append, found, Option.bind_some]

/-- There is nothing below what is not there. -/
theorem at?_append_of_none {l : Location} (missing : d.at? l = none) (m : Location) :
    d.at? (l ++ m) = none := by
  unfold at? at *
  rw [Entry.at?_append, missing, Option.bind_none]

/-! ## Where nothing is -/

/-- The components lead from a location to where nothing is, one below the other. -/
structure Beyond (d : Disk) (here : Location) (parts : List String) : Prop where
  stays : "." ∉ parts
  descends : ".." ∉ parts
  missing : ∀ name ∈ parts.head?, d.at? (here ++ [name]) = none

theorem beyond_nil (here : Location) : d.Beyond here [] :=
  ⟨List.not_mem_nil, List.not_mem_nil, fun _ none => by cases none⟩

/-- What comes after a component that is not there. -/
theorem Beyond.tail {here : Location} {name : String} {rest : List String}
    (b : d.Beyond here (name :: rest)) : d.Beyond (here ++ [name]) rest :=
  ⟨fun same => b.stays (List.mem_cons_of_mem _ same),
    fun back => b.descends (List.mem_cons_of_mem _ back),
    fun next _ => at?_append_of_none (b.missing name rfl) [next]⟩

/-- Nothing is where such components lead. -/
theorem Beyond.at?_eq_none {here : Location} {parts : List String} (b : d.Beyond here parts)
    (some : parts ≠ []) : d.at? (here ++ parts) = none := by
  cases parts with
  | nil => exact absurd rfl some
  | cons name rest =>
    rw [List.append_cons]
    exact at?_append_of_none (b.missing name rfl) rest

/-- Components that lead on from where nothing is, in two parts. -/
theorem Beyond.of_append {here : Location} {parts rest : List String} (some : parts ≠ [])
    (b : d.Beyond here (parts ++ rest)) : d.Beyond here parts ∧ d.Beyond (here ++ parts) rest := by
  have first : d.Beyond here parts := by
    refine ⟨fun same => b.stays (List.mem_append_left _ same),
      fun back => b.descends (List.mem_append_left _ back), ?_⟩
    intro name head
    refine b.missing name ?_
    rw [List.head?_append, Option.mem_def.mp head]
    rfl
  exact ⟨first, fun same => b.stays (List.mem_append_right _ same),
    fun back => b.descends (List.mem_append_right _ back),
    fun next _ => at?_append_of_none (first.at?_eq_none some) [next]⟩

/-- Such components mean what they say. -/
theorem canonicalFrom_of_beyond {here : Location} {parts : List String} (b : d.Beyond here parts)
    (depth : Nat) : d.canonicalFrom depth here parts = here ++ parts := by
  induction parts generalizing here with
  | nil => rw [canonicalFrom, List.append_nil]
  | cons name rest ih =>
    have stays : name ≠ "." := fun same => b.stays (same ▸ List.mem_cons_self)
    have descends : name ≠ ".." := fun same => b.descends (same ▸ List.mem_cons_self)
    rw [canonicalFrom, if_neg stays, if_neg descends, b.missing name rfl]
    exact (ih b.tail).trans (List.append_cons here name rest).symm

/-! ## Where following ends -/

/-- How far components could be followed. -/
structure Halt where
  /-- How many more links might have been followed. -/
  links : Nat
  here : Location
  /-- The components that are left, with those that links asked for. -/
  left : List String

/-- How far components can be followed from `here`, with at most `links` links. -/
def haltFrom (d : Disk) (links : Nat) (here : Location) : List String → Halt
  | [] => ⟨links, here, []⟩
  | name :: rest => match d.at? here with
    | some (.directory members) =>
      if name = "." then haltFrom d links here rest
      else if name = ".." then haltFrom d links here.dropLast rest
      else match Table.get? members name with
        | none => ⟨links, here, name :: rest⟩
        | some (.link target) => match links with
          | 0 => ⟨0, here, name :: rest⟩
          | links + 1 =>
            haltFrom d links (linkOrigin here target) (Path.stepsOfText target ++ rest)
        | some _ => haltFrom d links (here ++ [name]) rest
    | _ => ⟨links, here, name :: rest⟩
termination_by parts => (links, parts.length)

/-- No links are added on the way. -/
theorem links_haltFrom_le (links : Nat) (here : Location) (parts : List String) :
    (d.haltFrom links here parts).links ≤ links := by
  fun_induction haltFrom d links here parts with
  | case1 => exact Nat.le_refl _
  | case2 links here rest members directory ih => exact ih
  | case3 links here rest members directory other ih => exact ih
  | case4 => exact Nat.le_refl _
  | case5 => exact Nat.le_refl _
  | case6 here name rest members directory stays descends target link links ih =>
    exact Nat.le_succ_of_le ih
  | case7 links here name rest members directory stays descends e noLink entry ih => exact ih
  | case8 => exact Nat.le_refl _


/-! ### One component -/

section step

variable {links : Nat} {here : Location} {members : List (String × Entry)} {name : String}

/-- Nothing is followed from where there is no directory. -/
theorem haltFrom_of_no_directory (links : Nat)
    (missing : ∀ members, d.at? here ≠ some (.directory members)) (parts : List String) :
    d.haltFrom links here parts = ⟨links, here, parts⟩ := by
  cases parts with
  | nil => rw [haltFrom]
  | cons name rest =>
    rw [haltFrom]
    split
    · rename_i members directory
      exact absurd directory (missing members)
    · rfl

theorem haltFrom_same (directory : d.at? here = some (.directory members)) (rest : List String) :
    d.haltFrom links here ("." :: rest) = d.haltFrom links here rest := by
  rw [haltFrom, directory]
  rfl

theorem haltFrom_back (directory : d.at? here = some (.directory members)) (rest : List String) :
    d.haltFrom links here (".." :: rest) = d.haltFrom links here.dropLast rest := by
  rw [haltFrom, directory]
  rfl

variable (stays : name ≠ ".") (descends : name ≠ "..")
include stays descends

/-- A name that nothing has is not followed. -/
theorem haltFrom_of_missing (links : Nat) (missing : d.at? (here ++ [name]) = none)
    (rest : List String) : d.haltFrom links here (name :: rest) = ⟨links, here, name :: rest⟩ := by
  by_cases directory : ∃ members, d.at? here = some (.directory members)
  · obtain ⟨members, directory⟩ := directory
    rw [at?_member directory] at missing
    rw [haltFrom, directory]
    simp only [if_neg stays, if_neg descends, missing]
  · exact haltFrom_of_no_directory links (not_exists.mp directory) _

theorem haltFrom_of_link {target : String} (link : d.at? (here ++ [name]) = some (.link target))
    (rest : List String) : d.haltFrom links here (name :: rest) = match links with
      | 0 => ⟨0, here, name :: rest⟩
      | links + 1 =>
        d.haltFrom links (linkOrigin here target) (Path.stepsOfText target ++ rest) := by
  obtain ⟨members, directory, found⟩ := exists_of_at?_member link
  rw [haltFrom, directory]
  simp only [if_neg stays, if_neg descends, found]

theorem haltFrom_of_entry {e : Entry} (entry : d.at? (here ++ [name]) = some e)
    (noLink : ∀ target, e ≠ .link target) (rest : List String) :
    d.haltFrom links here (name :: rest) = d.haltFrom links (here ++ [name]) rest := by
  obtain ⟨members, directory, found⟩ := exists_of_at?_member entry
  rw [haltFrom, directory]
  cases e with
  | link target => exact absurd rfl (noLink target)
  | file => simp only [if_neg stays, if_neg descends, found]
  | directory => simp only [if_neg stays, if_neg descends, found]

end step

/-! ### Several components -/

/-- **Components are followed one after the other**: some of them first, and the rest from where that
ends. -/
theorem haltFrom_append (links : Nat) (here : Location) (parts rest : List String) :
    d.haltFrom links here (parts ++ rest) =
      let h := d.haltFrom links here parts
      if h.left = [] then d.haltFrom h.links h.here rest else ⟨h.links, h.here, h.left ++ rest⟩ := by
  fun_induction haltFrom d links here parts with
  | case1 => rfl
  | case2 links here parts members directory ih =>
    exact (haltFrom_same directory (parts ++ rest)).trans ih
  | case3 links here parts members directory other ih =>
    exact (haltFrom_back directory (parts ++ rest)).trans ih
  | case4 links here name parts members directory stays descends missing =>
    exact haltFrom_of_missing stays descends links ((at?_member directory name).trans missing) _
  | case5 here name parts members directory stays descends target link =>
    exact haltFrom_of_link stays descends ((at?_member directory name).trans link) _
  | case6 here name parts members directory stays descends target link links ih =>
    rw [List.append_assoc] at ih
    exact (haltFrom_of_link stays descends ((at?_member directory name).trans link) _).trans ih
  | case7 links here name parts members directory stays descends e noLink entry ih =>
    exact (haltFrom_of_entry stays descends ((at?_member directory name).trans entry) noLink _).trans ih
  | case8 links here name parts noDirectory =>
    exact haltFrom_of_no_directory links noDirectory _

theorem haltFrom_append_of_done {links : Nat} {here : Location} {parts : List String}
    (done : (d.haltFrom links here parts).left = []) (rest : List String) :
    d.haltFrom links here (parts ++ rest) =
      d.haltFrom (d.haltFrom links here parts).links (d.haltFrom links here parts).here rest :=
  (haltFrom_append links here parts rest).trans (if_pos done)

theorem haltFrom_append_of_left {links : Nat} {here : Location} {parts : List String}
    (left : (d.haltFrom links here parts).left ≠ []) (rest : List String) :
    d.haltFrom links here (parts ++ rest) =
      ⟨(d.haltFrom links here parts).links, (d.haltFrom links here parts).here,
        (d.haltFrom links here parts).left ++ rest⟩ :=
  (haltFrom_append links here parts rest).trans (if_neg left)

/-- **Components mean the location where following them ends and what is left below it**, unless that
leads back, or to something that is there. -/
theorem canonicalFrom_of_halt {links depth : Nat} {here : Location} {parts : List String}
    (deep : links ≤ depth)
    (b : d.Beyond (d.haltFrom links here parts).here (d.haltFrom links here parts).left) :
    d.canonicalFrom depth here parts =
      (d.haltFrom links here parts).here ++ (d.haltFrom links here parts).left := by
  fun_induction canonicalFrom d depth here parts generalizing links with
  | case1 depth here =>
    rw [haltFrom]
    exact (List.append_nil here).symm
  | case2 depth here rest ih =>
    by_cases directory : ∃ members, d.at? here = some (.directory members)
    · obtain ⟨members, directory⟩ := directory
      rw [haltFrom_same directory] at b ⊢
      exact ih deep b
    · rw [haltFrom_of_no_directory links (not_exists.mp directory)] at b
      exact absurd List.mem_cons_self b.stays
  | case3 depth here rest other ih =>
    by_cases directory : ∃ members, d.at? here = some (.directory members)
    · obtain ⟨members, directory⟩ := directory
      rw [haltFrom_back directory] at b ⊢
      exact ih deep b
    · rw [haltFrom_of_no_directory links (not_exists.mp directory)] at b
      exact absurd List.mem_cons_self b.descends
  | case4 here name rest stays descends target link =>
    obtain rfl : links = 0 := Nat.le_zero.mp deep
    rw [haltFrom_of_link stays descends link]
  | case5 here name rest stays descends target link depth reached ihTarget =>
    rename_i ihRest
    rw [haltFrom_of_link stays descends link] at b ⊢
    cases links with
    | zero => cases link.symm.trans (b.missing name rfl)
    | succ links =>
      have fewer := links_haltFrom_le (d := d) links (linkOrigin here target) (Path.stepsOfText target)
      have shallow : links ≤ depth := Nat.le_of_succ_le_succ deep
      dsimp only at b ⊢
      by_cases done : (d.haltFrom links (linkOrigin here target) (Path.stepsOfText target)).left = []
      · rw [haltFrom_append_of_done done] at b ⊢
        have ends : reached =
            (d.haltFrom links (linkOrigin here target) (Path.stepsOfText target)).here := by
          refine (ihTarget shallow ?_).trans ?_
          · rw [done]
            exact beyond_nil _
          · rw [done, List.append_nil]
        rw [← ends] at b ⊢
        exact ihRest (Nat.le_trans fewer (Nat.le_succ_of_le shallow)) b
      · rw [haltFrom_append_of_left done] at b ⊢
        obtain ⟨first, later⟩ := b.of_append done
        have ends : reached = _ := ihTarget shallow first
        rw [ends, canonicalFrom_of_beyond later, List.append_assoc]
  | case6 depth here name rest stays descends noLink ih =>
    cases entry : d.at? (here ++ [name]) with
    | none =>
      rw [haltFrom_of_missing stays descends links entry] at b ⊢
      exact (canonicalFrom_of_beyond b.tail depth).trans (List.append_cons here name rest).symm
    | some e =>
      have other : ∀ target, e ≠ .link target := fun target same =>
        noLink target (entry.trans (congrArg some same))
      rw [haltFrom_of_entry stays descends entry other] at b ⊢
      exact ih deep b

/-! ## Paths -/

/-- Why following ends before a name: if the name is there, it is that of a link too many. -/
def obstacle (d : Disk) (here : Location) (name : String) : FileError :=
  match d.at? (here ++ [name]), d.at? here with
  | some _, _ => .tooManyLinks
  | none, some (.directory _) => .notFound
  | none, some _ => .notADirectory
  | none, none => .notFound

/-- Before what is not there following ends for another reason, and for no other reason otherwise. -/
theorem obstacle_eq_tooManyLinks_iff {here : Location} {name : String} :
    d.obstacle here name = .tooManyLinks ↔ d.at? (here ++ [name]) ≠ none := by
  unfold obstacle
  cases d.at? (here ++ [name]) with
  | some e => exact iff_of_true rfl (Option.some_ne_none e)
  | none =>
    refine iff_of_false ?_ (fun there => there rfl)
    rcases d.at? here with none | file | link | directory <;> exact nofun

/-- Where following ends, seen as an outcome. -/
def Halt.outcome (d : Disk) (h : Halt) : Except FileError Location :=
  match h.left with
  | [] => .ok h.here
  | name :: _ => .error (d.obstacle h.here name)

theorem Halt.outcome_eq_ok_iff {h : Halt} {l : Location} :
    h.outcome d = .ok l ↔ h.left = [] ∧ h.here = l := by
  unfold outcome
  cases h.left with
  | nil => exact ⟨fun same => ⟨rfl, Except.ok.inj same⟩, fun same => congrArg _ same.2⟩
  | cons name rest => exact ⟨nofun, nofun⟩

theorem Halt.outcome_eq_error_iff {h : Halt} {e : FileError} :
    h.outcome d = .error e ↔ ∃ name rest, h.left = name :: rest ∧ d.obstacle h.here name = e := by
  unfold outcome
  cases h.left with
  | nil => exact ⟨nofun, nofun⟩
  | cons name rest =>
    refine ⟨fun same => ⟨name, rest, rfl, Except.error.inj same⟩, ?_⟩
    rintro ⟨_, _, same, reason⟩
    obtain ⟨rfl, -⟩ := List.cons.inj same
    exact congrArg _ reason

/-- **Components are followed as far as that is possible**, and what stands in the way then is what is
answered. -/
theorem followFrom_eq_outcome (links : Nat) (here : Location) (parts : List String) :
    d.followFrom links here parts = (d.haltFrom links here parts).outcome d := by
  fun_induction followFrom d links here parts with
  | case1 links here =>
    rw [haltFrom]
    rfl
  | case2 links here rest members directory ih => rw [haltFrom_same directory, ih]
  | case3 links here rest members directory other ih => rw [haltFrom_back directory, ih]
  | case4 links here name rest members directory stays descends missing =>
    have missing' := (at?_member directory name).trans missing
    rw [haltFrom_of_missing stays descends links missing']
    simp only [Halt.outcome, obstacle, directory, missing']
  | case5 here name rest members directory stays descends target link =>
    have link' := (at?_member directory name).trans link
    rw [haltFrom_of_link stays descends link']
    simp only [Halt.outcome, obstacle, directory, link']
  | case6 here name rest members directory stays descends target link links ih =>
    rw [haltFrom_of_link stays descends ((at?_member directory name).trans link), ih]
  | case7 links here name rest members directory stays descends e noLink entry ih =>
    rw [haltFrom_of_entry stays descends ((at?_member directory name).trans entry) noLink, ih]
  | case8 links here name rest e noDirectory entry =>
    have none := fun members found => noDirectory members (Option.some.inj (entry.symm.trans found))
    rw [haltFrom_of_no_directory links none]
    simp only [Halt.outcome, obstacle, entry, at?_member_of_no_directory none name]
  | case9 links here name rest missing =>
    rw [haltFrom_of_no_directory links fun members found => by cases missing.symm.trans found]
    simp only [Halt.outcome, obstacle, missing, at?_append_of_none missing [name]]

/-- How far a path can be followed. -/
def halt (d : Disk) (p : Path) : Halt := d.haltFrom linkLimit (d.origin p) p.parts

theorem follow_eq_outcome (p : Path) : d.follow p = (d.halt p).outcome d :=
  followFrom_eq_outcome linkLimit (d.origin p) p.parts

/-- **A path means the place where following it ends and what is left below it**, unless that leads back
or comes to a link. -/
theorem canonical_of_halt {p : Path} (b : d.Beyond (d.halt p).here (d.halt p).left) :
    d.canonical p = (d.halt p).here ++ (d.halt p).left :=
  canonicalFrom_of_halt (Nat.le_add_right _ _) b

/-- **A path that can be followed leads to the location that it means.** -/
theorem canonical_of_follow {p : Path} {l : Location} (h : d.follow p = .ok l) : d.canonical p = l := by
  obtain ⟨done, ends⟩ := Halt.outcome_eq_ok_iff.mp ((follow_eq_outcome p).symm.trans h)
  have nothing : d.Beyond (d.halt p).here (d.halt p).left := by
    rw [done]
    exact beyond_nil _
  rw [canonical_of_halt nothing, done, ends, List.append_nil]

/-- A path leads to an entry if it can be followed to where the entry is. -/
theorem entry_eq_ok_iff {p : Path} {e : Entry} :
    d.entry p = .ok e ↔ ∃ l, d.follow p = .ok l ∧ d.at? l = some e := by
  unfold entry
  rw [Outcome.bind_eq_ok]
  refine exists_congr fun l => and_congr_right fun _ => ?_
  cases d.at? l with
  | none => exact iff_of_false nofun nofun
  | some found => exact ⟨fun same => congrArg some (Except.ok.inj same),
      fun same => congrArg Except.ok (Option.some.inj same)⟩

/-- A path can be read if it can be followed to a file. -/
theorem read_eq_ok_iff {p : Path} {content : List UInt8} :
    d.read p = .ok content ↔ ∃ l, d.follow p = .ok l ∧ d.at? l = some (.file content) := by
  rw [← entry_eq_ok_iff]
  unfold read
  cases d.entry p with
  | error reason => exact iff_of_false nofun nofun
  | ok e =>
    cases e with
    | file found =>
      constructor
      · intro same
        rw [Except.ok.inj same]
      · intro same
        rw [Except.ok.inj same]
        rfl
    | link target => exact iff_of_false nofun nofun
    | directory members => exact iff_of_false nofun nofun

/-- A path leads to a file if it can be read. -/
theorem isFile_iff {p : Path} : d.isFile p = true ↔ ∃ content, d.read p = .ok content := by
  unfold isFile read
  cases d.entry p with
  | error reason => exact iff_of_false nofun nofun
  | ok e =>
    cases e with
    | file content => exact iff_of_true rfl ⟨content, rfl⟩
    | link target => exact iff_of_false nofun nofun
    | directory members => exact iff_of_false nofun nofun

/-- What is read through a path is the content of the file that the path means. -/
theorem at?_of_read {p : Path} {content : List UInt8} (h : d.read p = .ok content) :
    d.at? (d.canonical p) = some (.file content) := by
  obtain ⟨l, followed, found⟩ := read_eq_ok_iff.mp h
  rw [canonical_of_follow followed]
  exact found

/-- **Two paths of one meaning that can both be read give the same bytes.** -/
theorem read_eq_of_canonical {p q : Path} (same : d.canonical p = d.canonical q)
    (readable : (d.read p).isOk ↔ (d.read q).isOk) (p_reads : (d.read p).isOk) :
    d.read p = d.read q := by
  obtain ⟨a, ha⟩ := Outcome.exists_of_isOk p_reads
  obtain ⟨b, hb⟩ := Outcome.exists_of_isOk (readable.mp p_reads)
  have content := at?_of_read ha
  rw [same, at?_of_read hb] at content
  obtain rfl := Entry.file.inj (Option.some.inj content)
  rw [ha, hb]

end Disk

end LuaLint
