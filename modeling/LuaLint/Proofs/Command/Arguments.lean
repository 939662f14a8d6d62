import LuaLint.Proofs.Command.Verdict
import LuaLint.Proofs.Files.Canonical
import LuaLint.Proofs.Files.Search
import Mathlib

/-!
# The paths of a command line

How a run over some paths follows from runs over parts of them (`check_append`): it prints what the first
part prints and then the reports on those files of the second part that the first does not mean already,
and it fails if one of the parts does.

A file of the second part is left out if the first part has another spelling of its location. The
spelling that is kept has the same content, as long as both can be read (`Disk.read_eq_of_canonical`),
and so the run fails if **any candidate** would make it fail (`fails_reportsOf_iff`). This is a matter of
which paths there are, and not of their order or number. If the spelling that is kept cannot be read, the
file is passed over (`check_detour`).
-/

namespace LuaLint

/-- Two of the candidates for some paths that mean one location can both be read, or neither can. -/
def Disk.SpelledAlike (d : Disk) (paths : List Path) : Prop :=
  ∀ p ∈ d.candidates paths, ∀ q ∈ d.candidates paths, d.canonical p = d.canonical q →
    ((d.read p).isOk ↔ (d.read q).isOk)

namespace Command

variable {host : Host} {recorded : Bool} {d : Disk} {l : Linter} {settings : Settings} {paths ps qs : List Path}

/-- Whether a file makes a run fail depends on its content alone. -/
theorem fails_reportsOn_of_read_eq {p q : Path} (same : d.read p = d.read q) (denyWarnings : Bool) :
    fails denyWarnings (reportsOn host.parser d l p) = fails denyWarnings (reportsOn host.parser d l q) := by
  unfold reportsOn
  rw [same]
  rcases d.read q with e | source
  · rfl
  · dsimp only
    rcases (l.lint host.parser source).2 with flaw | found
    · rfl
    · rw [fails, fails, List.any_map, List.any_map]
      rfl

/-- A file that makes a run fail can be read. -/
theorem isOk_of_fails {p : Path} {denyWarnings : Bool}
    (failing : fails denyWarnings (reportsOn host.parser d l p) = true) : (d.read p).isOk := by
  rcases read : d.read p with e | source
  · have none : reportsOn host.parser d l p = [] := by
      apply reportsOn_eq_nil
      intro source readable
      cases read.symm.trans readable
    rw [none] at failing
    cases failing
  · rfl

/-- **A run fails if any candidate makes it fail**, whichever spelling of it is kept. -/
theorem fails_reportsOf_iff (alike : d.SpelledAlike paths) (denyWarnings : Bool) :
    fails denyWarnings (reportsOf host.parser d l paths) = true ↔
      ∃ p ∈ d.candidates paths, fails denyWarnings (reportsOn host.parser d l p) = true := by
  have files : fails denyWarnings (reportsOf host.parser d l paths) = true ↔
      ∃ p ∈ d.filesToCheck paths, fails denyWarnings (reportsOn host.parser d l p) = true := by
    unfold reportsOf fails
    rw [List.any_flatMap, List.any_eq_true]
  rw [files]
  apply Disk.exists_mem_filesToCheck
  intro p hp q hq same failing
  have reads : (d.read p).isOk := isOk_of_fails failing
  have content := Disk.read_eq_of_canonical same (alike p hp q hq same) reads
  rw [← fails_reportsOn_of_read_eq content]
  exact failing

section codes

variable (loaded : (Settings.load host.limits recorded d (.absolute d.cwd)).outcome = .ok settings)
  (proper : host.parser.Proper) (accepted : linterOf Registry.standard settings = .ok l)
include loaded proper accepted

/-- The exit code tells whether a candidate makes the run fail. -/
theorem code_eq_one_iff (alike : d.SpelledAlike paths) (denyWarnings : Bool) :
    (check host recorded d Registry.standard paths denyWarnings).2 = .ok 1 ↔
      ∃ p ∈ d.candidates paths, fails denyWarnings (reportsOn host.parser d l p) = true := by
  rw [(check_of_accepted loaded proper accepted paths denyWarnings).2, ← fails_reportsOf_iff alike]
  cases fails denyWarnings (reportsOf host.parser d l paths)
  · exact ⟨nofun, nofun⟩
  · exact ⟨fun _ => rfl, fun _ => rfl⟩

end codes

/-- A directory with a file that divides by zero and a link to it. -/
def twoNames : Disk :=
  { root := [("work", .directory [("alias.lua", .link "one.lua"),
      ("one.lua", .file (Utf8.encode "return 1/0"))])]
    cwd := ["work"] }

/-- What the file holds makes a run fail that denies warnings. -/
theorem fails_twoNames : fails true
    (reportsOn luaHost.parser twoNames { rules := [ZeroDivisor.rule] } (.ofText "one.lua")) = true := by
  have read : twoNames.read (.ofText "one.lua") = .ok (Utf8.encode "return 1/0") := by cbv
  have linted : (Linter.lint { rules := [ZeroDivisor.rule] } luaHost.parser (Utf8.encode "return 1/0")).2 =
      .ok [slip] := by decide +kernel
  unfold reportsOn
  simp only [read, linted]
  rfl

/-- A run that can read none of its files prints nothing and does not fail. -/
theorem check_of_unreadable (proper : host.parser.Proper)
    (loaded : (Settings.load host.limits recorded d (.absolute d.cwd)).outcome = .ok settings)
    (accepted : linterOf Registry.standard settings = .ok l) {reason : Path → FileError}
    (unreadable : ∀ p ∈ d.filesToCheck ps, d.read p = .error (reason p)) (denyWarnings : Bool) :
    standardOutput (check host recorded d Registry.standard ps denyWarnings).1 = [] ∧
      (check host recorded d Registry.standard ps denyWarnings).2 = .ok 0 := by
  have none : reportsOf host.parser d l ps = [] := by
    apply List.flatMap_eq_nil_iff.mpr
    intro p hp
    apply reportsOn_eq_nil
    intro source reads
    cases (unreadable p hp).symm.trans reads
  obtain ⟨lines, code⟩ := check_of_accepted loaded proper accepted ps denyWarnings
  rw [none] at lines code
  exact ⟨lines, code⟩

/-- Two paths of one file, of which the first goes through a missing directory and back. -/
def detour : List Path := [.ofText "gone/../one.lua", .ofText "one.lua"]

theorem candidates_detour : twoNames.candidates detour = detour := by
  cbv

/-- Of the two paths only the one is checked that cannot be read. -/
theorem filesToCheck_detour : twoNames.filesToCheck detour = [.ofText "gone/../one.lua"] := by
  have first : twoNames.canonical (.ofText "gone/../one.lua") = ["work", "one.lua"] := by cbv
  have second : twoNames.canonical (.ofText "one.lua") = ["work", "one.lua"] := by cbv
  have kept : twoNames.filesToCheck detour = Disk.firstsBy twoNames.canonical [] detour :=
    congrArg _ candidates_detour
  rw [kept]
  simp only [detour, Disk.firstsBy, first, second, List.contains_nil, List.contains_cons,
    beq_self_eq_true, Bool.true_or, if_true, Bool.false_eq_true, if_false]

/-- A file by itself makes a run fail. If a path through a missing directory and back names it before,
the run reads no file, prints nothing and does not fail. -/
theorem check_detour :
    let run (paths : List Path) := check luaHost false twoNames Registry.standard paths true
    Path.ofText "one.lua" ∈ twoNames.candidates detour ∧
      twoNames.read (.ofText "one.lua") = .ok (Utf8.encode "return 1/0") ∧
      (∀ p ∈ twoNames.filesToCheck detour, twoNames.read p = .error .notFound) ∧
      (run [.ofText "one.lua"]).2 = .ok 1 ∧
      standardOutput (run detour).1 = [] ∧ (run detour).2 = .ok 0 := by
  intro run
  have loaded : (Settings.load luaHost.limits false twoNames (.absolute twoNames.cwd)).outcome = .ok {} := by cbv
  have accepted : linterOf Registry.standard {} = .ok { rules := [ZeroDivisor.rule] } := by cbv
  have reads : twoNames.read (.ofText "one.lua") = .ok (Utf8.encode "return 1/0") := by cbv
  have missing : twoNames.read (.ofText "gone/../one.lua") = .error .notFound := by cbv
  have alone : twoNames.candidates [.ofText "one.lua"] = [.ofText "one.lua"] := by cbv
  have alike : twoNames.SpelledAlike [.ofText "one.lua"] := by
    intro p hp q hq same
    rw [alone, List.mem_singleton] at hp hq
    rw [hp, hq]
  have unreadable : ∀ p ∈ twoNames.filesToCheck detour, twoNames.read p = .error .notFound := by
    intro p hp
    rw [filesToCheck_detour, List.mem_singleton] at hp
    rw [hp, missing]
  refine ⟨?_, reads, unreadable, ?_, check_of_unreadable Lua.parser_proper loaded accepted unreadable true⟩
  · rw [candidates_detour]
    exact List.mem_cons_of_mem _ List.mem_cons_self
  · refine (code_eq_one_iff loaded Lua.parser_proper accepted alike true).mpr ⟨_, ?_, fails_twoNames⟩
    rw [alone]
    exact List.mem_cons_self

end Command

end LuaLint
