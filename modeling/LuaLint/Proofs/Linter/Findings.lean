import LuaLint.Lua.Tree
import LuaLint.Proofs.Linter.Ordering
import LuaLint.Proofs.Outcome
import LuaLint.Proofs.Suppression.Verdict

/-!
# What a linter reports

The findings of a whole run, described from what its rules answer one by one.

* **The turns of a run** (`gather_snd`): the findings of several turns are those of each turn in the
  order of the rules, and the first turn that fails decides the failure.
* **Answers** are what the rules say about one file, for a run in which no enabled rule fails: the
  severity that each rule states, and what each enabled rule finds. `Answers.reported` puts their
  findings one after the other, each at the severity at which its rule runs.
* **Ranks**: a finding with the turn of its rule and its place in that turn. `Ranked.Before` compares
  two findings by start, then by turn, then by place.
* **The report** (`lint_eq_ranked`): a source that can be read is reported as the findings that the
  source does not suppress, each once, in the order of `Ranked.Before`. It makes no difference
  whether the suppressed findings are left out before or after ordering.
-/

namespace LuaLint

/-- The findings of a turn. A rule that was passed over has none. -/
def Turn.found : Turn → List Diagnostic
  | passedOver => []
  | findings ds => ds

namespace Linter

variable {l : Linter} {parser : Parser} {source : List UInt8} {tree : Node} {context : Context}

/-! ## The turns of a run -/

/-- The findings of several turns are those of each turn, up to the first turn that fails. -/
theorem gather_snd (turnOf : Rule → Except Malformed Turn) (rules : List Rule) :
    (gather turnOf rules).2 =
      (rules.mapM turnOf).map fun turns => turns.flatMap Turn.found := by
  induction rules with
  | nil => rfl
  | cons r rest ih =>
    rw [List.mapM_cons, gather]
    rcases turnOf r with flaw | (_ | first)
    · rfl
    all_goals
      rcases h : rest.mapM turnOf with flaw | turns
      · simp [ih, h, bind, Except.bind, Except.map]
      · simp [ih, h, bind, Except.bind, pure, Except.pure, Except.map, Turn.found]

/-- Turns that all succeed give the findings of each. -/
theorem gather_of_ok {turnOf : Rule → Except Malformed Turn} {t : Rule → Turn} {rules : List Rule}
    (h : ∀ r ∈ rules, turnOf r = .ok (t r)) :
    (gather turnOf rules).2 = .ok (rules.flatMap fun r => (t r).found) := by
  have all : rules.mapM turnOf = .ok (rules.map t) := by
    induction rules with
    | nil => rfl
    | cons r rest ih =>
      rw [List.mapM_cons, h r (by simp), ih fun r hr => h r (by simp [hr])]
      rfl
  rw [gather_snd, all]
  simp [Except.map, List.flatMap_map]

/-! ## Answers -/

/-- The severity at which a rule runs that states `own` as its own: the user's for its id, if there
is one. -/
def level (l : Linter) (own : Severity) (r : Rule) : Severity :=
  (Table.get? l.severities r.id).getD own

/-- What the rules of a linter answer about one file. Every rule states a severity, and **no rule
that is enabled fails**; of the others nothing is asked. -/
structure Answers (l : Linter) (tree : Node) (context : Context) where
  /-- The severity that each rule states. -/
  own : Rule → Severity
  /-- What each rule finds. -/
  found : Rule → List Diagnostic
  severity_eq : ∀ r ∈ l.rules, r.severity = .ok (own r)
  check_eq : ∀ r ∈ l.rules, l.level (own r) r ≠ .allow → r.check tree context = .ok (found r)

namespace Answers

variable (a : l.Answers tree context)

/-- What one rule contributes: its findings at the severity at which it runs, and nothing if that
severity is to allow. -/
def report (r : Rule) : List Diagnostic :=
  if l.level (a.own r) r = .allow then []
  else (a.found r).map fun d => { d with severity := l.level (a.own r) r }

/-- The findings of all rules, rule after rule. -/
def reported : List Diagnostic := l.rules.flatMap a.report

/-- The turn of a rule that answers. -/
def turn (r : Rule) : Turn :=
  if l.level (a.own r) r = .allow then .passedOver
  else .findings ((a.found r).map (·.recolour (l.level (a.own r) r)))

/-- A turn contributes what the rule answers. -/
theorem found_turn (r : Rule) : (a.turn r).found = a.report r := by
  unfold turn report
  split <;> rfl

/-- A rule that answers has its turn. -/
theorem turn_eq {r : Rule} (hr : r ∈ l.rules) : l.turn tree context r = .ok (a.turn r) := by
  have severity : l.effective r = .ok (l.level (a.own r) r) := by
    rw [effective, a.severity_eq r hr]
    rfl
  unfold Linter.turn turn
  rw [severity]
  by_cases allowed : l.level (a.own r) r = .allow
  · simp [allowed, bind, Except.bind, pure, Except.pure]
  · simp [allowed, a.check_eq r hr allowed, bind, Except.bind, pure, Except.pure]

/-- **On a tree a run reports what its rules answer**, in the order of a report and less what the
source suppresses. -/
theorem lintTree_eq (a : l.Answers tree ⟨source, l.standardLibrary⟩) :
    (l.lintTree source tree).2 = .ok (unsuppressed source (inOrder a.reported)) := by
  have gathered := gather_of_ok fun r (hr : r ∈ l.rules) => a.turn_eq hr
  simp only [found_turn] at gathered
  simp only [lintTree, gathered, Except.map, reported]

/-- The same for a source that can be read. -/
theorem lint_eq (a : l.Answers tree ⟨source, l.standardLibrary⟩)
    (read : parser.read source = .ok tree) :
    (l.lint parser source).2 = .ok (unsuppressed source (inOrder a.reported)) := by
  rw [lint, read]
  exact a.lintTree_eq

/-- Nothing is reported at the severity that switches a rule off. -/
theorem severity_ne_allow {d : Diagnostic} (hd : d ∈ a.reported) : d.severity ≠ .allow := by
  obtain ⟨r, -, hd⟩ := List.mem_flatMap.mp hd
  unfold report at hd
  split at hd
  · simp at hd
  · obtain ⟨e, -, rfl⟩ := List.mem_map.mp hd
    assumption

end Answers

/-! ## Ranks -/

/-- A finding and where it came from. -/
structure Ranked where
  /-- The turn of the rule, counted from zero. -/
  turn : Nat
  /-- The place among the findings of that turn, counted from zero. -/
  place : Nat
  finding : Diagnostic

namespace Ranked

/-- The order of arrival: by turn, then by place. -/
def Earlier (x y : Ranked) : Prop :=
  x.turn < y.turn ∨ x.turn = y.turn ∧ x.place < y.place

/-- **The order of a report**: by start, then by arrival. -/
def Before (x y : Ranked) : Prop :=
  x.finding.start < y.finding.start ∨ x.finding.start = y.finding.start ∧ x.Earlier y

/-- The findings of one turn, ranked. -/
def ofTurn (turn : Nat) (found : List Diagnostic) : List Ranked :=
  found.zipIdx.map fun (d, place) => ⟨turn, place, d⟩

/-- Ranking a turn leaves its findings as they are. -/
@[simp] theorem map_finding_ofTurn (turn : Nat) (found : List Diagnostic) :
    (ofTurn turn found).map finding = found := by
  unfold ofTurn
  rw [List.map_map]
  exact List.zipIdx_map_fst 0 found

/-- The indexes of a list rise. -/
theorem zipIdx_pairwise {α : Type} (xs : List α) (n : Nat) :
    (xs.zipIdx n).Pairwise fun a b => a.2 < b.2 := by
  induction xs generalizing n with
  | nil => exact .nil
  | cons x xs ih =>
    rw [List.zipIdx_cons, List.pairwise_cons]
    exact ⟨fun b hb => List.le_snd_of_mem_zipIdx hb, ih (n + 1)⟩

/-- The findings of one turn come in the order of arrival. -/
theorem ofTurn_pairwise (turn : Nat) (found : List Diagnostic) :
    (ofTurn turn found).Pairwise Earlier :=
  List.pairwise_map.mpr ((zipIdx_pairwise found 0).imp fun h => Or.inr ⟨rfl, h⟩)

end Ranked

namespace Answers

variable (a : l.Answers tree context)

/-- The findings of all rules, rule after rule, ranked. -/
def ranked : List Ranked :=
  l.rules.zipIdx.flatMap fun (r, turn) => Ranked.ofTurn turn (a.report r)

/-- Ranking leaves the findings as they are. -/
theorem map_finding_ranked : a.ranked.map Ranked.finding = a.reported := by
  unfold ranked reported
  rw [List.map_flatMap]
  simp only [Ranked.map_finding_ofTurn]
  rw [← List.flatMap_map Prod.fst a.report, List.zipIdx_map_fst]

/-- Ranked findings come in the order of arrival. -/
theorem ranked_pairwise : a.ranked.Pairwise Ranked.Earlier := by
  refine List.pairwise_flatMap.mpr ⟨fun (r, turn) _ => Ranked.ofTurn_pairwise turn _, ?_⟩
  refine (Ranked.zipIdx_pairwise l.rules 0).imp fun {r s} h x hx y hy => Or.inl ?_
  obtain ⟨-, -, rfl⟩ := List.mem_map.mp hx
  obtain ⟨-, -, rfl⟩ := List.mem_map.mp hy
  exact h

end Answers

/-! ## The report -/

/-- **The report of a source.** A source that can be read has exactly the findings that its rules
answer and its directives do not drop, each as often as it was found, in the order of start, turn
and place. Leaving out what is dropped before or after the findings are put in order comes to the
same, and nothing is reported at the severity that switches a rule off. -/
theorem lint_eq_ranked (a : l.Answers tree ⟨source, l.standardLibrary⟩)
    (read : parser.read source = .ok tree) :
    ∃ out : List Ranked,
      (l.lint parser source).2 = .ok (out.map Ranked.finding) ∧
      out.Perm (a.ranked.filter fun x => !dropped source x.finding) ∧
      out.Pairwise Ranked.Before ∧
      out.map Ranked.finding = unsuppressed source (inOrder a.reported) ∧
      out.map Ranked.finding = inOrder (unsuppressed source a.reported) ∧
      ∀ x ∈ out, x.finding.severity ≠ .allow := by
  let kept := a.ranked.filter fun x => !dropped source x.finding
  let start : Ranked → Nat := fun x => x.finding.start
  have findings : (Keyed.byKey start kept).map Ranked.finding =
      inOrder (unsuppressed source a.reported) := by
    rw [inOrder_eq_byKey, unsuppressed_eq_filter, ← a.map_finding_ranked, List.filter_map]
    exact (Keyed.byKey_map start Diagnostic.start Ranked.finding (fun _ => rfl) kept).symm
  have commute := unsuppressed_inOrder source a.reported
  refine ⟨Keyed.byKey start kept, ?_, Keyed.byKey_perm start kept,
    Keyed.byKey_pairwise start (a.ranked_pairwise.sublist List.filter_sublist),
    findings.trans commute.symm, findings, fun x hx => ?_⟩
  · rw [a.lint_eq read, findings, commute]
  · have arrived : x ∈ a.ranked := (List.mem_filter.mp ((Keyed.mem_byKey start).mp hx)).1
    exact a.severity_ne_allow (a.map_finding_ranked ▸ List.mem_map_of_mem arrived)

/-! ### A report with ties -/

/-- Two rules that find something at the same place, one of them under a foreign id, and between
them a rule that is switched off and would fail. The user makes the first rule's findings errors. -/
def tied : Linter :=
  { rules := [
      ⟨"a", .ok .warning, .ok .style,
        fun _ _ => .ok [findingAt "a" .warning 4, findingAt "c" .allow 6]⟩,
      ⟨"off", .ok .allow, .ok .style, fun _ _ => .error (.unlabelled "off")⟩,
      ⟨"b", .ok .warning, .ok .style,
        fun _ _ => .ok [findingAt "b" .warning 2, findingAt "b" .warning 6, findingAt "a" .error 25]⟩]
    severities := [("a", .error), ("c", .allow)] }

/-- What `tied` answers about any file. -/
def tiedAnswers (tree : Node) (context : Context) : tied.Answers tree context where
  own r := if r.id = "off" then .allow else .warning
  found r :=
    if r.id = "a" then [findingAt "a" .warning 4, findingAt "c" .allow 6]
    else [findingAt "b" .warning 2, findingAt "b" .warning 6, findingAt "a" .error 25]
  severity_eq := by simp [tied]
  check_eq := by simp [tied, level, Table.get?, List.lookup_cons]

/-- On `x = 1 --moonlint:noqa:a` and a second line, the finding of `a` on the first line is dropped
and the one on the second line is not, and of the two findings at one place the one of the earlier
turn comes first. -/
theorem lint_eq_ranked_tied :
    let source := Utf8.encode "x = 1 --moonlint:noqa:a\ny = 2"
    ∃ tree, Lua.parser.read source = .ok tree ∧ (tied.lint Lua.parser source).2 =
      .ok [findingAt "b" .warning 2, findingAt "c" .error 6, findingAt "b" .warning 6,
        findingAt "a" .warning 25] := by
  intro source
  obtain ⟨tree, read⟩ : ∃ tree, Lua.parser.read source = .ok tree :=
    Outcome.exists_of_isOk (by decide +kernel)
  let a := tiedAnswers tree ⟨source, tied.standardLibrary⟩
  obtain ⟨out, report, -, -, -, ordered, -⟩ := lint_eq_ranked a read
  have left : unsuppressed source a.reported = [findingAt "c" .error 6, findingAt "b" .warning 2,
      findingAt "b" .warning 6, findingAt "a" .warning 25] := by
    change unsuppressed source [findingAt "a" .error 4, findingAt "c" .error 6,
      findingAt "b" .warning 2, findingAt "b" .warning 6, findingAt "a" .warning 25] = _
    decide +kernel
  have sorted : inOrder [findingAt "c" .error 6, findingAt "b" .warning 2,
      findingAt "b" .warning 6, findingAt "a" .warning 25] = [findingAt "b" .warning 2,
      findingAt "c" .error 6, findingAt "b" .warning 6, findingAt "a" .warning 25] := by
    rw [inOrder_eq_byKey, Keyed.byKey_eq_foldr]
    decide
  exact ⟨tree, read, by rw [report, ordered, left, sorted]⟩

end Linter

end LuaLint
