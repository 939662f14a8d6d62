import LuaLint.Proofs.Linter.Findings

/-!
# Other severities, the same findings

What changes in a report when the user gives the rules of an id another severity, which does not switch
them off.

* **As they were made** (`Answers.made`): the findings of the enabled rules before they take the severity
  at which their rule runs, each with its rule. A report is what is left of them, coloured
  (`Answers.lint_eq_shown`). Colour plays no part in what is left or in its order.
* **The same rules** (`Answers.made_recoloured`): as long as the same rules are enabled, the same findings
  are made, whatever their severities and ids are.
* **Two reports** (`lint_recoloured`): place by place they agree in everything but the severity of what the
  rules of the id have made.
-/

namespace LuaLint.Linter

variable {l : Linter} {parser : Parser} {source : List UInt8} {tree : Node} {context : Context}

/-- A finding as its rule made it. -/
structure Made where
  rule : Rule
  finding : Diagnostic

/-- The linter with other severities of the user. -/
def withSeverities (l : Linter) (severities : Table Severity) : Linter := { l with severities }

/-! ## Findings before they are coloured -/

namespace Answers

variable (a : l.Answers tree context)

/-- What the enabled rules find, rule after rule. -/
def made : List Made :=
  l.rules.flatMap fun r =>
    if l.level (a.own r) r = .allow then [] else (a.found r).map (Made.mk r)

/-- A finding at the severity at which its rule runs. -/
def shown (m : Made) : Diagnostic := m.finding.recolour (l.level (a.own m.rule) m.rule)

/-- What was made, coloured, is what is reported. -/
theorem map_shown_made : a.made.map a.shown = a.reported := by
  unfold made reported
  rw [List.map_flatMap]
  congr 1
  funext r
  unfold report
  split
  · rfl
  · rw [List.map_map]
    rfl

/-- What the source leaves of what was made, in the order of a report. -/
def left (source : List UInt8) : List Made :=
  Keyed.byKey (·.finding.start) (a.made.filter fun m => !dropped source m.finding)

/-- **A report is what is left, coloured.** -/
theorem lint_eq_shown (a : l.Answers tree ⟨source, l.standardLibrary⟩)
    (read : parser.read source = .ok tree) :
    (l.lint parser source).2 = .ok ((a.left source).map a.shown) := by
  have kept : (a.made.filter fun m => !dropped source m.finding).map a.shown =
      unsuppressed source a.reported := by
    rw [← map_shown_made, unsuppressed_eq_filter, List.filter_map]
    -- neither the rule nor the start of a finding changes with its colour
    rfl
  rw [a.lint_eq read, unsuppressed_inOrder, ← kept, inOrder_eq_byKey, left]
  exact congrArg _ (Keyed.byKey_map _ Diagnostic.start a.shown (fun _ => rfl) _)

/-! ## Other severities -/

variable {severities : Table Severity}

/-- The same answers, if the same rules are enabled. -/
def recoloured (enabled : ∀ r ∈ l.rules, l.level (a.own r) r = .allow ↔
    (l.withSeverities severities).level (a.own r) r = .allow) :
    (l.withSeverities severities).Answers tree context where
  own := a.own
  found := a.found
  severity_eq := a.severity_eq
  check_eq r hr runs := a.check_eq r hr fun allowed => runs ((enabled r hr).mp allowed)

/-- **The same findings are made**, if the same rules are enabled. -/
theorem made_recoloured (enabled : ∀ r ∈ l.rules, l.level (a.own r) r = .allow ↔
    (l.withSeverities severities).level (a.own r) r = .allow) :
    (a.recoloured enabled).made = a.made := by
  unfold made
  rw [List.flatMap_def, List.flatMap_def]
  refine congrArg List.flatten (List.map_congr_left fun r hr => ?_)
  simp only [recoloured, enabled r hr]
  rfl

end Answers

/-- Severities that agree on all ids but one make a difference to the rules of that id only. -/
theorem level_withSeverities {id : String} {severities : Table Severity}
    (same : ∀ other, other ≠ id → Table.get? severities other = Table.get? l.severities other)
    (own : Severity) {r : Rule} (h : r.id ≠ id) :
    (l.withSeverities severities).level own r = l.level own r := by
  unfold level withSeverities
  rw [same r.id h]

/-- **Other severities for an id only recolour.** If the user gives an id another severity, and neither the
old nor the new one switches off a rule of that id, then the two reports stem from the same findings in the
same order. Place by place they agree in rule id, message and labels; each shows the severity at which the
rule runs that made the finding, whatever severity and id it gave it; and what other rules made is the same
in both. -/
theorem lint_recoloured (a : l.Answers tree ⟨source, l.standardLibrary⟩)
    (read : parser.read source = .ok tree) {id : String} {severities : Table Severity}
    (same : ∀ other, other ≠ id → Table.get? severities other = Table.get? l.severities other)
    (enabled : ∀ r ∈ l.rules, r.id = id → l.level (a.own r) r ≠ .allow ∧
      (l.withSeverities severities).level (a.own r) r ≠ .allow) :
    ∃ (made : List Made) (report report' : List Diagnostic),
      (l.lint parser source).2 = .ok report ∧
      ((l.withSeverities severities).lint parser source).2 = .ok report' ∧
      made.Perm (a.made.filter fun m => !dropped source m.finding) ∧
      report.length = made.length ∧ report'.length = made.length ∧
      ∀ (i : Nat) (m : Made) (d d' : Diagnostic),
        made[i]? = some m → report[i]? = some d → report'[i]? = some d' →
        d'.ruleId = d.ruleId ∧ d'.message = d.message ∧ d'.labels = d.labels ∧
        d = { m.finding with severity := l.level (a.own m.rule) m.rule } ∧
        d' = { m.finding with
          severity := (l.withSeverities severities).level (a.own m.rule) m.rule } ∧
        (m.rule.id ≠ id → d' = d) := by
  have both : ∀ r ∈ l.rules, l.level (a.own r) r = .allow ↔
      (l.withSeverities severities).level (a.own r) r = .allow := by
    intro r hr
    by_cases h : r.id = id
    · exact iff_of_false (enabled r hr h).1 (enabled r hr h).2
    · rw [level_withSeverities same (a.own r) h]
  let other := a.recoloured both
  have sameLeft : other.left source = a.left source := by
    unfold Answers.left
    rw [a.made_recoloured both]
  refine ⟨a.left source, (a.left source).map a.shown, (a.left source).map other.shown,
    a.lint_eq_shown read, ?_, Keyed.byKey_perm _ _, List.length_map _, List.length_map _, ?_⟩
  · rw [← sameLeft]
    exact other.lint_eq_shown read
  · intro i m d d' hm hd hd'
    rw [List.getElem?_map, hm] at hd hd'
    obtain rfl := Option.some.inj hd
    obtain rfl := Option.some.inj hd'
    refine ⟨rfl, rfl, rfl, rfl, rfl, fun foreign => ?_⟩
    change m.finding.recolour _ = m.finding.recolour _
    exact congrArg (m.finding.recolour ·) (level_withSeverities same (a.own m.rule) foreign)

/-- With warnings in place of errors for one of two rules, its findings come at the same places in the
report as before, those under a foreign id as well. -/
theorem lint_recoloured_tied :
    let source := Utf8.encode "x = 1\ny = 2"
    let severities := [("a", Severity.warning), ("c", .allow)]
    let first := [findingAt "b" .warning 2, findingAt "a" .error 4, findingAt "c" .error 6,
      findingAt "b" .warning 6, findingAt "a" .warning 25]
    (∀ other, other ≠ "a" → Table.get? severities other = Table.get? tied.severities other) ∧
      (∀ r ∈ tied.rules, r.id = "a" → tied.level .warning r = .error ∧
        (tied.withSeverities severities).level .warning r = .warning) ∧
      (tied.lint Lua.parser source).2 = .ok first ∧
      ∃ second, ((tied.withSeverities severities).lint Lua.parser source).2 = .ok second ∧
        second.length = first.length ∧
        ∀ (i : Nat) (d d' : Diagnostic), first[i]? = some d → second[i]? = some d' →
          d'.ruleId = d.ruleId ∧ d'.labels = d.labels := by
  intro source severities first
  have same : ∀ other, other ≠ "a" →
      Table.get? severities other = Table.get? tied.severities other := by
    intro other h
    have hb : (other == "a") = false := by simpa using h
    simp [severities, tied, Table.get?, List.lookup_cons, hb]
  have levels : ∀ r ∈ tied.rules, r.id = "a" → tied.level .warning r = .error ∧
      (tied.withSeverities severities).level .warning r = .warning := by
    intro r _ h
    simp [level, withSeverities, h, severities, tied, Table.get?]
  obtain ⟨tree, read⟩ : ∃ tree, Lua.parser.read source = .ok tree :=
    Outcome.exists_of_isOk (by decide +kernel)
  let a := tiedAnswers tree ⟨source, tied.standardLibrary⟩
  have enabled : ∀ r ∈ tied.rules, r.id = "a" → tied.level (a.own r) r ≠ .allow ∧
      (tied.withSeverities severities).level (a.own r) r ≠ .allow := by
    intro r hr h
    have own : a.own r = .warning := by simp [a, tiedAnswers, h]
    rw [own, (levels r hr h).1, (levels r hr h).2]
    decide
  have report : (tied.lint Lua.parser source).2 = .ok first := by
    have left : unsuppressed source a.reported = [findingAt "a" .error 4, findingAt "c" .error 6,
        findingAt "b" .warning 2, findingAt "b" .warning 6, findingAt "a" .warning 25] := by
      change unsuppressed source [findingAt "a" .error 4, findingAt "c" .error 6,
        findingAt "b" .warning 2, findingAt "b" .warning 6, findingAt "a" .warning 25] = _
      decide +kernel
    rw [a.lint_eq read, unsuppressed_inOrder, left, inOrder_eq_byKey, Keyed.byKey_eq_foldr]
    exact congrArg Except.ok (by decide)
  obtain ⟨made, first', second, here, other, -, length, length', places⟩ :=
    lint_recoloured a read same enabled
  obtain rfl : first = first' := Except.ok.inj (report.symm.trans here)
  refine ⟨same, levels, report, second, other, length'.trans length.symm, ?_⟩
  intro i d d' hd hd'
  have inside : i < made.length := length ▸ (List.getElem?_eq_some_iff.mp hd).1
  obtain ⟨id, -, labels, -⟩ := places i made[i] d d' (List.getElem?_eq_getElem inside) hd hd'
  exact ⟨id, labels⟩

end LuaLint.Linter
