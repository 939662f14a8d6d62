import LuaLint.Proofs.Linter.Disabling
import Mathlib

/-!
# When linting fails

A rule that fails makes the linting of the whole file fail, and nothing that other rules have found is
reported.

* **A rule fails** (`Fails`) if it states no severity, or if it is switched on and its check fails. That is
  when its turn fails (`turn_eq_error_iff`).
* **A rule that is switched off is not run** (`turn_eq_of_alike`): its turn is the same with any other check,
  and so is the run (`gather_eq_of_alike`).
* `lint_fails_iff` puts these together: a source that can be read fails exactly if a rule does, with the
  flaw of the first of them, whatever directives there are in the source.
-/

namespace LuaLint.Linter

variable {l : Linter} {parser : Parser} {source : List UInt8} {tree : Node} {context : Context}
  {r s : Rule}
  {own : Severity} {flaw : Malformed}

/-! ## Turns -/

/-- How a rule makes the linting of a file fail. -/
inductive Fails (l : Linter) (tree : Node) (context : Context) (r : Rule) (flaw : Malformed) : Prop
  /-- It states no severity. -/
  | unstated (severity : r.severity = .error flaw)
  /-- It is switched on and its check fails. -/
  | broken {own : Severity} (severity : r.severity = .ok own) (on : l.level own r ≠ .allow)
    (check : r.check tree context = .error flaw)

theorem turn_of_unstated (severity : r.severity = .error flaw) :
    l.turn tree context r = .error flaw := by
  rw [turn, effective, severity]
  rfl

theorem turn_of_stated (severity : r.severity = .ok own) :
    l.turn tree context r =
      if l.level own r = .allow then .ok .passedOver
      else (r.check tree context).map fun found => .findings (found.map (·.recolour (l.level own r))) := by
  rw [turn, effective, severity]
  rfl

/-- **The turn of a rule fails exactly if the rule does.** -/
theorem turn_eq_error_iff : l.turn tree context r = .error flaw ↔ l.Fails tree context r flaw := by
  rcases severity : r.severity with unstated | own
  · rw [turn_of_unstated severity]
    constructor
    · rintro ⟨⟩
      exact .unstated severity
    · rintro (⟨same⟩ | ⟨stated⟩)
      · cases severity.symm.trans same
        rfl
      · cases severity.symm.trans stated
  · rw [turn_of_stated severity]
    constructor
    · intro failed
      split at failed
      · cases failed
      · rename_i on
        rcases check : r.check tree context with failure | found
        · rw [check] at failed
          cases failed
          exact .broken severity on check
        · rw [check] at failed
          cases failed
    · rintro (⟨unstated⟩ | ⟨stated, on, check⟩)
      · cases severity.symm.trans unstated
      · cases severity.symm.trans stated
        rw [if_neg on, check]
        rfl

/-! ## Rules that are switched off -/

/-- The user or the rule itself has it switched off. -/
def IsOff (l : Linter) (r : Rule) : Prop := ∃ own, r.severity = .ok own ∧ l.level own r = .allow

/-- Two rules are alike, except that they may check different things if they are switched off. -/
structure Alike (l : Linter) (r s : Rule) : Prop where
  id : s.id = r.id
  severity : s.severity = r.severity
  check : s.check = r.check ∨ l.IsOff r

/-- **A rule that is switched off is not run**: nothing hangs on its check. -/
theorem turn_eq_of_alike (alike : l.Alike r s) : l.turn tree context s = l.turn tree context r := by
  rcases severity : r.severity with flaw | own
  · rw [turn_of_unstated severity, turn_of_unstated (alike.severity.trans severity)]
  · have level : l.level own s = l.level own r := by rw [Linter.level, Linter.level, alike.id]
    rw [turn_of_stated severity, turn_of_stated (alike.severity.trans severity), level]
    rcases alike.check with same | ⟨_, stated, off⟩
    · rw [same]
    · cases severity.symm.trans stated
      rw [if_pos off, if_pos off]

theorem gather_eq_of_alike {rules others : List Rule} (alike : List.Forall₂ l.Alike rules others) :
    gather (l.turn tree context) others = gather (l.turn tree context) rules := by
  induction alike with
  | nil => rfl
  | cons first _ ih => rw [gather, gather, turn_eq_of_alike first, first.id, ih]

/-! ## A run -/

/-- The linter with other rules. -/
def withRules (l : Linter) (rules : List Rule) : Linter := { l with rules }

theorem lintTree_eq_of_alike {rules : List Rule} (alike : List.Forall₂ l.Alike l.rules rules) :
    (l.withRules rules).lintTree source tree = l.lintTree source tree := by
  have same : gather (l.turn tree ⟨source, l.standardLibrary⟩) rules =
      gather (l.turn tree ⟨source, l.standardLibrary⟩) l.rules := gather_eq_of_alike alike
  exact congrArg (fun run => (run.1, run.2.map fun ds => unsuppressed source (inOrder ds))) same

/-- Linting a tree fails as the turns of the rules do. -/
theorem lintTree_eq_error_iff : (l.lintTree source tree).2 = .error flaw ↔
    l.rules.mapM (l.turn tree ⟨source, l.standardLibrary⟩) = .error flaw := by
  change ((gather (l.turn tree ⟨source, l.standardLibrary⟩) l.rules).2.map _) = _ ↔ _
  rw [gather_snd]
  rcases l.rules.mapM (l.turn tree ⟨source, l.standardLibrary⟩) with failure | turns
  · simp [Except.map]
  · simp [Except.map]

/-- Linting fails exactly if the source can be read and the turns of the rules fail. -/
theorem lint_eq_error_iff : (l.lint parser source).2 = .error flaw ↔
    ∃ tree, parser.read source = .ok tree ∧
      l.rules.mapM (l.turn tree ⟨source, l.standardLibrary⟩) = .error flaw := by
  rcases read : parser.read source with fault | tree
  · rw [lint, read]
    constructor
    · intro failed
      cases failed
    · rintro ⟨tree, nothing, -⟩
      cases nothing
  · rw [lint, read]
    constructor
    · intro failed
      exact ⟨tree, rfl, lintTree_eq_error_iff.mp failed⟩
    · rintro ⟨_, ⟨⟩, failed⟩
      exact lintTree_eq_error_iff.mpr failed

/-- **The linting of a file fails as the first of its rules that fails.** It does so exactly if the source can
be read and one of the rules fails on it, and then with the flaw of the first of those, whatever the other
rules find and whatever the source suppresses. What a rule checks that is switched off plays no part, and
nothing that the rules check does if the source cannot be read. -/
theorem lint_fails_iff (l : Linter) (parser : Parser) (source : List UInt8) :
    ((∃ flaw, (l.lint parser source).2 = .error flaw) ↔ ∃ tree, parser.read source = .ok tree ∧
      ∃ r ∈ l.rules, ∃ flaw, l.Fails tree ⟨source, l.standardLibrary⟩ r flaw) ∧
    (∀ flaw, (l.lint parser source).2 = .error flaw ↔ ∃ tree, parser.read source = .ok tree ∧
      ∃ before r after, l.rules = before ++ r :: after ∧
        (∀ earlier ∈ before, ∀ other, ¬ l.Fails tree ⟨source, l.standardLibrary⟩ earlier other) ∧
        l.Fails tree ⟨source, l.standardLibrary⟩ r flaw) ∧
    (∀ rules, List.Forall₂ l.Alike l.rules rules →
      (l.withRules rules).lint parser source = l.lint parser source) ∧
    ∀ fault, parser.read source = .error fault →
      ∀ rules, (l.withRules rules).lint parser source = ([.unparsable fault], .ok []) := by
  refine ⟨?_, fun flaw => ?_, fun rules alike => ?_, fun fault unreadable rules => ?_⟩
  · simp only [lint_eq_error_iff]
    rw [exists_comm]
    simp only [exists_and_left, Outcome.exists_mapM_eq_error_iff, turn_eq_error_iff]
  · rw [lint_eq_error_iff]
    simp only [Outcome.mapM_eq_error_iff, ne_eq, turn_eq_error_iff]
  · rcases read : parser.read source with fault | tree
    · rw [lint, lint, read]
    · rw [lint, lint, read]
      exact lintTree_eq_of_alike alike
  · rw [lint, unreadable]

/-! ### Rules that fail -/

/-- A rule that fails on every file. -/
def failing (id : String) (severity : Severity) : Rule :=
  ⟨id, .ok severity, .ok .style, fun _ _ => .error (.unlabelled id)⟩

/-- Of three rules that fail, the first is switched off by the user and the last fails too late. -/
def brittle : Linter :=
  { rules := [failing "off" .warning, finder "early" 2, failing "on" .allow, failing "late" .error]
    severities := [("off", .allow), ("on", .warning)] }

/-- A directive that drops all findings of a file does not hide that a rule fails, and which one it is does
not hang on the check of the rule that is switched off. -/
theorem lint_fails_iff_brittle :
    let source := Utf8.encode "--moonlint:disable-file\nx = 1"
    (brittle.lint Lua.parser source).2 = .error (.unlabelled "on") ∧
      List.Forall₂ brittle.Alike brittle.rules (finder "off" 4 :: brittle.rules.tail) ∧
      ((brittle.withRules (finder "off" 4 :: brittle.rules.tail)).lint Lua.parser source).2 =
        .error (.unlabelled "on") := by
  intro source
  obtain ⟨tree, read⟩ : ∃ tree, Lua.parser.read source = .ok tree :=
    Outcome.exists_of_isOk (by decide +kernel)
  obtain ⟨-, first, same, -⟩ := lint_fails_iff brittle Lua.parser source
  have failed : (brittle.lint Lua.parser source).2 = .error (.unlabelled "on") := by
    refine (first _).mpr ⟨tree, read, [failing "off" .warning, finder "early" 2], failing "on" .allow,
      [failing "late" .error], rfl, ?_, .broken rfl (by decide) rfl⟩
    intro earlier listed other fails
    obtain rfl | rfl : earlier = failing "off" .warning ∨ earlier = finder "early" 2 := by
      simpa using listed
    · rcases fails with ⟨⟨⟩⟩ | ⟨⟨⟩, on, -⟩
      exact on (by decide)
    · rcases fails with ⟨⟨⟩⟩ | ⟨-, -, ⟨⟩⟩
  have alike : List.Forall₂ brittle.Alike brittle.rules (finder "off" 4 :: brittle.rules.tail) := by
    refine .cons ⟨rfl, rfl, .inr ⟨.warning, rfl, by decide⟩⟩ ?_
    exact List.forall₂_same.mpr fun r _ => ⟨rfl, rfl, .inl rfl⟩
  refine ⟨failed, alike, ?_⟩
  rw [same _ alike]
  exact failed

end LuaLint.Linter
