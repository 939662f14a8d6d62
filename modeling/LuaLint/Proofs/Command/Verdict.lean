import LuaLint.Proofs.Command.Report
import LuaLint.Proofs.Lua.Layout
import Mathlib

/-!
# The verdict of a run

What a run of `check` prints and how it ends, once the settings are loaded (`check_verdict`).

A rule that refuses its options ends the run before any file is looked at, with an exit code of its own
(`check_of_refused`). Any other run prints its reports and ends with one of two codes
(`check_of_accepted`). Since no finding is ever reported at the severity that switches a rule off, each
report is a warning or an error, and so **warnings are denied exactly if nothing may be printed**
(`fails_iff`).
-/

namespace LuaLint.Command

variable {host : Host} {recorded : Bool} {d : Disk} {l : Linter} {settings : Settings}

/-! ## Failing reports -/

/-- No report is made of a rule that is switched off. -/
theorem severity_ne_allow (total : l.Total host.parser) {file : Path} {r : Report}
    (hr : r ∈ reportsOn host.parser d l file) : r.finding.severity ≠ .allow := by
  unfold reportsOn at hr
  split at hr
  · cases hr
  · rename_i source _
    obtain ⟨found, linted, enabled⟩ := total.exists_lint source
    rw [linted] at hr
    obtain ⟨f, hf, rfl⟩ := List.mem_map.mp hr
    exact enabled f hf

/-- **Reports make a run fail if one of them is an error**, or if warnings are denied and there is any
report at all. -/
theorem fails_iff {denyWarnings : Bool} {reports : List Report}
    (enabled : ∀ r ∈ reports, r.finding.severity ≠ .allow) :
    fails denyWarnings reports = true ↔
      (∃ r ∈ reports, r.finding.severity = .error) ∨ denyWarnings = true ∧ reports ≠ [] := by
  unfold fails
  rw [List.any_eq_true]
  constructor
  · rintro ⟨r, hr, failing⟩
    cases severity : r.finding.severity with
    | error => exact .inl ⟨r, hr, severity⟩
    | warning =>
      rw [severity] at failing
      exact .inr ⟨failing, List.ne_nil_of_mem hr⟩
    | allow => exact absurd severity (enabled r hr)
  · rintro (⟨r, hr, severity⟩ | ⟨denied, some⟩)
    · refine ⟨r, hr, ?_⟩
      rw [severity]
      rfl
    · obtain ⟨r, hr⟩ := List.exists_mem_of_ne_nil reports some
      refine ⟨r, hr, ?_⟩
      cases severity : r.finding.severity with
      | error => rfl
      | warning => exact denied
      | allow => exact absurd severity (enabled r hr)

/-! ## Runs -/

/-- The reports of a run over the paths of a command line. -/
def reportsOf (parser : Parser) (d : Disk) (l : Linter) (paths : List Path) : List Report :=
  (d.filesToCheck paths).flatMap (reportsOn parser d l)

section runs

variable (loaded : (Settings.load host.limits recorded d (.absolute d.cwd)).outcome = .ok settings)
include loaded

/-- **A refused linter ends the run** before any file is read. -/
theorem check_of_refused {e : ConfigurationError}
    (refused : linterOf Registry.standard settings = .error e) (paths : List Path)
    (denyWarnings : Bool) :
    check host recorded d Registry.standard paths denyWarnings =
      ((.filesFound (d.filesToCheck paths).length ::
          (Settings.load host.limits recorded d (.absolute d.cwd)).log).map .log ++
        [.error ("error: invalid configuration: " ++ e.message)], .ok 2) := by
  unfold check
  simp only [loaded, refused]
  rfl

/-- **Any other run prints its reports**, and its exit code says whether they make it fail. -/
theorem check_of_accepted (proper : host.parser.Proper)
    (accepted : linterOf Registry.standard settings = .ok l)
    (paths : List Path) (denyWarnings : Bool) :
    standardOutput (check host recorded d Registry.standard paths denyWarnings).1 =
        (reportsOf host.parser d l paths).map Report.line ∧
      (check host recorded d Registry.standard paths denyWarnings).2 =
        .ok (if fails denyWarnings (reportsOf host.parser d l paths) then 1 else 0) := by
  obtain ⟨written, outcome, lines⟩ :=
    checkFiles_eq d (linterOf_total proper accepted) denyWarnings (d.filesToCheck paths)
  unfold check
  simp only [loaded, accepted, outcome]
  refine ⟨?_, ?_⟩
  · rw [standardOutput_append, standardOutput_log, List.nil_append, lines, reportsOf]
  · rfl

/-- The exit code of such a run, told from its reports and from what it prints. -/
theorem code_of_accepted (proper : host.parser.Proper)
    (accepted : linterOf Registry.standard settings = .ok l)
    (paths : List Path) (denyWarnings : Bool) :
    (check host recorded d Registry.standard paths denyWarnings).2 =
      .ok (if (∃ r ∈ reportsOf host.parser d l paths, r.finding.severity = .error) ∨
        denyWarnings = true ∧
          standardOutput (check host recorded d Registry.standard paths denyWarnings).1 ≠ []
        then 1 else 0) := by
  obtain ⟨lines, code⟩ := check_of_accepted loaded proper accepted paths denyWarnings
  have enabled : ∀ r ∈ reportsOf host.parser d l paths, r.finding.severity ≠ .allow := by
    intro r hr
    obtain ⟨file, -, hr⟩ := List.mem_flatMap.mp hr
    exact severity_ne_allow (linterOf_total proper accepted) hr
  have printed : reportsOf host.parser d l paths ≠ [] ↔
      standardOutput (check host recorded d Registry.standard paths denyWarnings).1 ≠ [] := by
    rw [lines, Ne, Ne, List.map_eq_nil_iff]
  have failing := (fails_iff enabled).trans
    (or_congr_right (and_congr_right fun denied : denyWarnings = true => printed))
  exact code.trans (congrArg Except.ok (if_congr failing rfl rfl))

end runs

/-- The linter is refused exactly if one of the chosen rules refuses its options, for the same reason. -/
theorem linterOf_eq_error {registry : Registry Toml.Value} {e : ConfigurationError} :
    linterOf registry settings = .error e ↔
      (registry.choose settings.selection).instantiate settings.options = .error e := by
  unfold linterOf
  cases (registry.choose settings.selection).instantiate settings.options with
  | error reason => simp [bind, Except.bind]
  | ok rules => simp [bind, Except.bind, pure, Except.pure]

/-- **The verdict.** Let the parser give proper ranges. Once the settings are loaded, `check` ends with
code 2 exactly if a chosen rule refuses its options; it has then only said so, looked at no file and printed
nothing. Otherwise it prints the findings of every file in turn, each file being linted without failure and
one that cannot be read or that the parser does not accept having none, and ends with code 1 if one of them
is an error, or if warnings are denied and anything was printed, and else with code 0. What is printed does
not depend on whether warnings are denied. -/
theorem check_verdict (proper : host.parser.Proper)
    (loaded : (Settings.load host.limits recorded d (.absolute d.cwd)).outcome = .ok settings)
    (paths : List Path) (denyWarnings : Bool) :
    let run := check host recorded d Registry.standard paths denyWarnings
    let rules := (Registry.standard.choose settings.selection).instantiate settings.options
    (run.2 = .ok 2 ↔ ∃ e, rules = .error e) ∧
    (∀ e, rules = .error e →
      run.1 = (.filesFound (d.filesToCheck paths).length ::
          (Settings.load host.limits recorded d (.absolute d.cwd)).log).map .log ++
        [.error ("error: invalid configuration: " ++ e.message)] ∧
      standardOutput run.1 = []) ∧
    (∀ built, rules = .ok built → ∃ l, linterOf Registry.standard settings = .ok l ∧
      let reports := (d.filesToCheck paths).flatMap (reportsOn host.parser d l)
      standardOutput run.1 = reports.map Report.line ∧
      run.2 = .ok (if (∃ r ∈ reports, r.finding.severity = .error) ∨
        denyWarnings = true ∧ standardOutput run.1 ≠ [] then 1 else 0) ∧
      (∀ file source, d.read file = .ok source →
        (l.lint host.parser source).2 = .ok ((reportsOn host.parser d l file).map Report.finding)) ∧
      ∀ file, (∀ source, d.read file = .ok source → ∀ tree, host.parser.read source ≠ .ok tree) →
        reportsOn host.parser d l file = []) ∧
    standardOutput run.1 =
      standardOutput (check host recorded d Registry.standard paths (!denyWarnings)).1 := by
  intro run rules
  cases outcome : linterOf Registry.standard settings with
  | error e =>
    have refusal : rules = .error e := linterOf_eq_error.mp outcome
    have refused := check_of_refused loaded outcome paths
    have silent (deny : Bool) :
        standardOutput (check host recorded d Registry.standard paths deny).1 = [] := by
      rw [refused, standardOutput_append, standardOutput_log]
      rfl
    refine ⟨⟨fun _ => ⟨e, refusal⟩, fun _ => congrArg Prod.snd (refused denyWarnings)⟩, ?_, ?_, ?_⟩
    · intro other same
      obtain rfl := Except.error.inj (refusal.symm.trans same)
      exact ⟨congrArg Prod.fst (refused denyWarnings), silent denyWarnings⟩
    · intro built accepted
      cases refusal.symm.trans accepted
    · rw [silent, silent]
  | ok l =>
    have total := linterOf_total proper outcome
    have allowed (e : ConfigurationError) : rules ≠ .error e := by
      intro refusal
      rw [linterOf_eq_error.mpr refusal] at outcome
      cases outcome
    obtain ⟨lines, code⟩ := check_of_accepted loaded proper outcome paths denyWarnings
    refine ⟨⟨?_, ?_⟩, ?_, ?_, ?_⟩
    · intro two
      have differ := two.symm.trans code
      split at differ <;> cases differ
    · rintro ⟨e, refusal⟩
      exact absurd refusal (allowed e)
    · intro e refusal
      exact absurd refusal (allowed e)
    · intro built accepted
      exact ⟨l, rfl, lines, code_of_accepted loaded proper outcome paths denyWarnings,
        fun file source read => lint_eq_reports total read, fun file unfit => reportsOn_eq_nil unfit⟩
    · obtain ⟨others, -⟩ := check_of_accepted loaded proper outcome paths (!denyWarnings)
      rw [lines, others]

/-! ### A directory with slips -/

/-- The parser of this library and the limits that the interpreter has by default. -/
def luaHost : Host := { parser := Lua.parser }

/-- A directory with a file that is no Lua and one that divides by zero. -/
def slips : Disk :=
  { root := [("work", .directory [("broken.lua", .file (Utf8.encode "x =")),
      ("one.lua", .file (Utf8.encode "return 1/0"))])]
    cwd := ["work"] }

/-- The finding in the second file. -/
def slip : Diagnostic :=
  { ruleId := ZeroDivisor.id, message := ZeroDivisor.message, severity := .warning
    primary := ⟨{ start := 7, stop := 10 }, none⟩, others := [] }

/-- The reports on the directory. -/
theorem reportsOn_slips {l : Linter} (accepted : linterOf Registry.standard {} = .ok l) :
    (slips.filesToCheck [.ofText "gone.lua", .ofText "broken.lua", .ofText "one.lua"]).flatMap
      (reportsOn luaHost.parser slips l) = [⟨.ofText "one.lua", Utf8.encode "return 1/0", slip⟩] := by
  have built : linterOf Registry.standard {} = .ok { rules := [ZeroDivisor.rule] } := by cbv
  obtain rfl := Except.ok.inj (accepted.symm.trans built)
  have files : slips.filesToCheck [.ofText "gone.lua", .ofText "broken.lua", .ofText "one.lua"] =
      [.ofText "gone.lua", .ofText "broken.lua", .ofText "one.lua"] := by cbv
  have gone : slips.read (.ofText "gone.lua") = .error .notFound := by cbv
  have broken : slips.read (.ofText "broken.lua") = .ok (Utf8.encode "x =") := by cbv
  have one : slips.read (.ofText "one.lua") = .ok (Utf8.encode "return 1/0") := by cbv
  have unparsable : (luaHost.parser.read (Utf8.encode "x =")).isOk = false := by decide +kernel
  have linted : (Linter.lint { rules := [ZeroDivisor.rule] } luaHost.parser (Utf8.encode "return 1/0")).2 =
      .ok [slip] := by decide +kernel
  rw [files, List.flatMap_cons, List.flatMap_cons, List.flatMap_singleton, reportsOn_eq_nil,
    reportsOn_eq_nil]
  · unfold reportsOn
    simp only [one, linted]
    rfl
  · intro source read tree parsed
    obtain rfl := Except.ok.inj (broken.symm.trans read)
    rw [parsed] at unparsable
    cases unparsable
  · intro source read
    cases gone.symm.trans read

/-- A file that is not there and one that is no Lua are passed over, and a warning in a file after them
makes the run fail only if warnings are denied. -/
theorem check_verdict_slips :
    let paths := [.ofText "gone.lua", .ofText "broken.lua", .ofText "one.lua"]
    let run := check luaHost false slips Registry.standard paths
    (Settings.load luaHost.limits false slips (.absolute slips.cwd)).outcome = .ok {} ∧
      (run true).2 = .ok 1 ∧ (run false).2 = .ok 0 ∧
      standardOutput (run true).1 = standardOutput (run false).1 ∧
      standardOutput (run true).1 = ["one.lua:1:7: warning[divide_by_zero]: dividing by zero is " ++
        "not allowed, use math.huge instead"] := by
  intro paths run
  have loaded : (Settings.load luaHost.limits false slips (.absolute slips.cwd)).outcome = .ok {} := by cbv
  have built : (Registry.choose ({} : Settings).selection Registry.standard).instantiate
      ({} : Settings).options = .ok [([], ZeroDivisor.rule)] := by cbv
  have verdict (deny : Bool) := check_verdict Lua.parser_proper loaded paths deny
  obtain ⟨l, accepted, lines, denied, -⟩ := (verdict true).2.2.1 _ built
  obtain ⟨l', accepted', lines', allowed, -⟩ := (verdict false).2.2.1 _ built
  rw [reportsOn_slips accepted] at lines denied
  rw [reportsOn_slips accepted'] at lines' allowed
  refine ⟨loaded, denied.trans ?_, allowed.trans ?_, (verdict true).2.2.2, lines.trans ?_⟩
  · rw [if_pos (.inr ⟨rfl, by rw [lines]; exact List.cons_ne_nil _ _⟩)]
  · rw [if_neg (by simp [slip])]
  · decide +kernel

end LuaLint.Command
