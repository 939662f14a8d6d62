import LuaLint.Command.Run
import LuaLint.Proofs.Linter.Findings
import LuaLint.Proofs.Outcome
import LuaLint.Proofs.Rule.ZeroDivisor

/-!
# What a run prints

A run over some files prints the findings in each of them, file after file, and the failing ones among
them decide its outcome (`checkFiles_eq`). For this no rule may fail, whatever the text (`Linter.Total`),
which holds of every linter that the settings can describe (`linterOf_total`).
-/

namespace LuaLint

/-! ## Linters that do not fail -/

namespace Linter

variable {l : Linter} {parser : Parser}

/-- No rule that is enabled fails on a text that the parser accepts. -/
def Total (l : Linter) (parser : Parser) : Prop :=
  ∀ source tree, parser.read source = .ok tree →
    Nonempty (l.Answers tree ⟨source, l.standardLibrary⟩)

/-- **A linter whose rules do not fail has findings for every text**, none of them switched off. -/
theorem Total.exists_lint (total : l.Total parser) (source : List UInt8) :
    ∃ found, (l.lint parser source).2 = .ok found ∧ ∀ f ∈ found, f.severity ≠ .allow := by
  rcases read : parser.read source with fault | tree
  · refine ⟨[], ?_, fun f hf => absurd hf List.not_mem_nil⟩
    rw [lint, read]
  · obtain ⟨a⟩ := total source tree read
    refine ⟨_, a.lint_eq read, ?_⟩
    intro f hf
    rw [unsuppressed_eq_filter] at hf
    have ordered : f ∈ inOrder a.reported := (List.mem_filter.mp hf).1
    exact a.severity_ne_allow (List.mem_mergeSort.mp ordered)

/-- A text that the parser does not accept has no findings. -/
theorem lint_of_no_tree {source : List UInt8} (none : ∀ tree, parser.read source ≠ .ok tree) :
    (l.lint parser source).2 = .ok [] := by
  rw [lint]
  rcases read : parser.read source with fault | tree
  · rfl
  · exact absurd read (none tree)

end Linter

namespace Command

variable {parser : Parser} {d : Disk} {l : Linter} {settings : Settings}

/-- What is built for the rules of the standard registry is `divide_by_zero`. -/
theorem eq_rule_of_instantiate {options : Table (Options Toml.Value)} {s : Selection}
    {rules : List (Options Toml.Value × Rule)}
    (h : (Registry.standard.choose s).instantiate options = .ok rules) :
    ∀ r ∈ rules.map (·.2), r = ZeroDivisor.rule := by
  intro r hr
  obtain ⟨⟨values, r⟩, inRules, rfl⟩ := List.mem_map.mp hr
  obtain ⟨⟨name, blueprint⟩, chosen, built⟩ := Outcome.exists_of_mem_mapM h _ inRules
  have listed := (List.mem_filter.mp chosen).1
  obtain ⟨rfl, rfl⟩ : name = ZeroDivisor.id ∧ blueprint = ZeroDivisor.blueprint := by
    simpa [Registry.standard] using listed
  obtain ⟨settled, -, built⟩ := Outcome.bind_eq_ok.mp built
  cases built
  rfl

/-- **No linter fails that the settings describe**, on trees with proper ranges. -/
theorem linterOf_total (proper : parser.Proper) (h : linterOf Registry.standard settings = .ok l) :
    l.Total parser := by
  obtain ⟨rules, built, h⟩ := Outcome.bind_eq_ok.mp h
  obtain rfl := Except.ok.inj h
  intro source tree read
  obtain ⟨found, checked⟩ :=
    ZeroDivisor.exists_check_read ⟨source, settings.standardLibrary⟩ proper read
  exact ⟨ZeroDivisor.answers (eq_rule_of_instantiate built) checked⟩

/-! ## Reports -/

/-- A finding in a file. -/
structure Report where
  file : Path
  /-- The content of the file. -/
  source : List UInt8
  finding : Diagnostic

/-- The report as it is printed. -/
def Report.line (r : Report) : String := r.finding.render r.source r.file.text

/-- The findings in a file. There are none in one that cannot be read. -/
def reportsOn (parser : Parser) (d : Disk) (l : Linter) (file : Path) : List Report :=
  match d.read file with
  | .error _ => []
  | .ok source => match (l.lint parser source).2 with
    | .error _ => []
    | .ok found => found.map fun f => ⟨file, source, f⟩

/-- Some of the reports make a run fail. -/
def fails (denyWarnings : Bool) (reports : List Report) : Bool :=
  reports.any (·.finding.severity.isFailing denyWarnings)

/-- The findings reported on a file that can be read are those of linting it. -/
theorem lint_eq_reports (total : l.Total parser) {file : Path} {source : List UInt8}
    (read : d.read file = .ok source) :
    (l.lint parser source).2 = .ok ((reportsOn parser d l file).map Report.finding) := by
  obtain ⟨found, linted, -⟩ := total.exists_lint source
  unfold reportsOn
  simp only [read, linted, List.map_map]
  exact congrArg Except.ok (List.map_id found).symm

/-- Nothing is reported on a file that cannot be read or that the parser does not accept. -/
theorem reportsOn_eq_nil {file : Path}
    (unfit : ∀ source, d.read file = .ok source → ∀ tree, parser.read source ≠ .ok tree) :
    reportsOn parser d l file = [] := by
  unfold reportsOn
  rcases read : d.read file with e | source
  · rfl
  · simp only [Linter.lint_of_no_tree (unfit source read), List.map_nil]

/-! ## Linting files -/

@[simp] theorem standardOutput_append (a b : List Message) :
    standardOutput (a ++ b) = standardOutput a ++ standardOutput b :=
  List.filterMap_append

@[simp] theorem standardOutput_log (log : List LogEvent) : standardOutput (log.map .log) = [] := by
  induction log with
  | nil => rfl
  | cons event rest ih => exact ih

@[simp] theorem standardOutput_report (lines : List String) :
    standardOutput (lines.map .report) = lines := by
  induction lines with
  | nil => rfl
  | cons line rest ih => exact congrArg (line :: ·) ih

/-- **A file is linted to its reports.** -/
theorem checkFile_eq (d : Disk) (total : l.Total parser) (denyWarnings : Bool) (file : Path) :
    ∃ written, checkFile parser d l denyWarnings file =
        (written, .ok (fails denyWarnings (reportsOn parser d l file))) ∧
      standardOutput written = (reportsOn parser d l file).map Report.line := by
  unfold checkFile reportsOn
  rcases d.read file with e | source
  · exact ⟨_, rfl, rfl⟩
  · obtain ⟨found, linted, -⟩ := total.exists_lint source
    simp only [linted]
    refine ⟨(l.lint parser source).1.map .log ++
      found.map fun f => .report (f.render source file.text), ?_, ?_⟩
    · rw [fails, List.any_map]
      rfl
    · have lines : found.map (fun f => Message.report (f.render source file.text)) =
          (found.map fun f => f.render source file.text).map .report := by
        rw [List.map_map]
        rfl
      rw [standardOutput_append, standardOutput_log, lines, standardOutput_report, List.map_map]
      rfl

/-- **Files are linted to the reports of each**, one after the other. -/
theorem checkFiles_eq (d : Disk) (total : l.Total parser) (denyWarnings : Bool) (files : List Path) :
    ∃ written, checkFiles parser d l denyWarnings files =
        (written, .ok (fails denyWarnings (files.flatMap (reportsOn parser d l)))) ∧
      standardOutput written = (files.flatMap (reportsOn parser d l)).map Report.line := by
  induction files with
  | nil => exact ⟨[], rfl, rfl⟩
  | cons file rest ih =>
    obtain ⟨first, outcome, lines⟩ := checkFile_eq d total denyWarnings file
    obtain ⟨more, others, moreLines⟩ := ih
    refine ⟨first ++ more, ?_, ?_⟩
    · rw [checkFiles, outcome, others, List.flatMap_cons, fails, fails, fails, List.any_append]
      rfl
    · rw [standardOutput_append, lines, moreLines, List.flatMap_cons, List.map_append]

end Command

end LuaLint
