import LuaLint.Proofs.Linter.Findings
import LuaLint.Proofs.Rule.Registry

/-!
# Switching a rule off

There are three ways to be rid of the findings of a rule, and each goes by another notion of its id:
the rule can be left out of the linter, by the id of the rule; its severity can be set to allow, by the
name under which the user's severities list it; and its findings can be left out of the report, by the
id that each finding carries.

* **Left out** (`Answers.reported_without`): what the other rules report stays as it is.
* **Allowed** (`Answers.reported_allowing`): the rule reports nothing, and the others report what they
  did.
* **They agree** (`switched_off_agree`) for rules that put their own id on what they find. A name that
  is ignored when the rules are chosen leaves out the rules of that id as well.
-/

namespace LuaLint

/-- Whatever the rule finds carries its own id. -/
def Rule.SignsOwn (r : Rule) : Prop :=
  ∀ tree context found, r.check tree context = .ok found → ∀ d ∈ found, d.ruleId = r.id

namespace Linter

variable {l : Linter} {parser : Parser} {source : List UInt8} {tree : Node} {context : Context}

/-- The linter without the rules of an id. -/
def without (l : Linter) (id : String) : Linter :=
  { l with rules := l.rules.filter fun r => r.id != id }

/-- Every rule states a severity, and no rule that is enabled fails on the source. -/
def Succeeds (l : Linter) (parser : Parser) (source : List UInt8) : Prop :=
  ∀ tree, parser.read source = .ok tree → ∀ r ∈ l.rules, ∃ own, r.severity = .ok own ∧
    (l.level own r ≠ .allow → ∃ found, r.check tree ⟨source, l.standardLibrary⟩ = .ok found)

/-- Allowing an id changes the severity of the rules of that id and of no others. -/
theorem level_allowing (l : Linter) (id : String) (own : Severity) (r : Rule) :
    (l.override [(id, .allow)]).level own r = if r.id = id then .allow else l.level own r := by
  unfold level override
  simp only [List.foldl_cons, List.foldl_nil]
  by_cases h : r.id = id
  · rw [h, Table.get?_put_self, if_pos rfl]
    rfl
  · rw [Table.get?_put_of_ne _ _ h, if_neg h]

/-- If some items keep all that they contribute and the others keep nothing, then what is kept is the
contributions of the former. -/
theorem filter_flatMap_of_owner {α β : Type} {f : α → List β} {p : α → Bool} {q : β → Bool}
    {xs : List α} (each : ∀ x ∈ xs, (f x).filter q = if p x then f x else []) :
    (xs.flatMap f).filter q = (xs.filter p).flatMap f := by
  induction xs with
  | nil => rfl
  | cons x xs ih =>
    have later := ih fun x hx => each x (by simp [hx])
    rw [List.flatMap_cons, List.filter_append, each x (by simp), later]
    by_cases hp : p x = true
    · rw [List.filter_cons_of_pos hp, if_pos hp, List.flatMap_cons]
    · rw [List.filter_cons_of_neg hp, if_neg hp, List.nil_append]

namespace Answers

/-- The answers of rules that succeed. -/
def ofSucceeds (h : l.Succeeds parser source) (read : parser.read source = .ok tree) :
    l.Answers tree ⟨source, l.standardLibrary⟩ where
  own r := r.severity.toOption.getD .allow
  found r := (r.check tree ⟨source, l.standardLibrary⟩).toOption.getD []
  severity_eq r hr := by
    obtain ⟨own, stated, -⟩ := h tree read r hr
    rw [stated]
    rfl
  check_eq r hr enabled := by
    obtain ⟨own, stated, answers⟩ := h tree read r hr
    rw [stated] at enabled
    obtain ⟨found, answer⟩ := answers enabled
    rw [answer]
    rfl

variable (a : l.Answers tree context) (id : String)

/-- The answers of the rules that are left. -/
def without : (l.without id).Answers tree context where
  own := a.own
  found := a.found
  severity_eq r hr := a.severity_eq r (List.mem_filter.mp hr).1
  check_eq r hr := a.check_eq r (List.mem_filter.mp hr).1

/-- The answers of the rules, if those of an id are allowed. -/
def allowing : (l.override [(id, .allow)]).Answers tree context where
  own := a.own
  found := a.found
  severity_eq r hr := a.severity_eq r hr
  check_eq r hr enabled := by
    rw [level_allowing] at enabled
    split at enabled
    · exact absurd rfl enabled
    · exact a.check_eq r hr enabled

/-- What a rule reports carries its id, if what it finds does. -/
theorem ruleId_eq_of_mem_report {r : Rule} (hr : r ∈ l.rules) (signs : r.SignsOwn) {d : Diagnostic}
    (hd : d ∈ a.report r) : d.ruleId = r.id := by
  unfold report at hd
  split at hd
  · simp at hd
  · rename_i enabled
    obtain ⟨e, he, rfl⟩ := List.mem_map.mp hd
    exact signs tree context _ (a.check_eq r hr enabled) e he

/-- Of what a rule reports, the findings of other ids are all or none. -/
theorem filter_report {r : Rule} (hr : r ∈ l.rules) (signs : r.SignsOwn) :
    (a.report r).filter (fun d => d.ruleId != id) = if r.id != id then a.report r else [] := by
  split
  · rename_i other
    refine List.filter_eq_self.mpr fun d hd => ?_
    rw [a.ruleId_eq_of_mem_report hr signs hd]
    exact other
  · rename_i same
    refine List.filter_eq_nil_iff.mpr fun d hd => ?_
    rw [a.ruleId_eq_of_mem_report hr signs hd]
    exact same

/-- **Without the rules of an id**, the findings of that id are missing and no others. -/
theorem reported_without (signs : ∀ r ∈ l.rules, r.SignsOwn) :
    (a.without id).reported = a.reported.filter fun d => d.ruleId != id := by
  exact (filter_flatMap_of_owner fun r hr => a.filter_report id hr (signs r hr)).symm

/-- **With the rules of an id allowed**, the findings of that id are missing and no others. -/
theorem reported_allowing (signs : ∀ r ∈ l.rules, r.SignsOwn) :
    (a.allowing id).reported = a.reported.filter fun d => d.ruleId != id := by
  have each : ∀ r ∈ l.rules, (a.allowing id).report r =
      (a.report r).filter fun d => d.ruleId != id := by
    intro r hr
    rw [a.filter_report id hr (signs r hr)]
    unfold report
    rw [level_allowing]
    by_cases same : r.id = id
    · simp [same]
    · simp only [if_neg same, bne_iff_ne.mpr same, if_true]
      rfl
  unfold reported
  rw [List.filter_flatMap, List.flatMap_def, List.flatMap_def]
  exact congrArg List.flatten (List.map_congr_left each)

end Answers

/-- Leaving out findings before the report is put in order and suppressed, or after, is the same. -/
theorem unsuppressed_inOrder_filter (source : List UInt8) (p : Diagnostic → Bool)
    (found : List Diagnostic) :
    unsuppressed source (inOrder (found.filter p)) =
      (unsuppressed source (inOrder found)).filter p := by
  rw [inOrder_eq_byKey, inOrder_eq_byKey, Keyed.byKey_filter, unsuppressed_eq_filter,
    unsuppressed_eq_filter, List.filter_filter, List.filter_filter]
  exact List.filter_congr fun d _ => Bool.and_comm _ _

/-- **The ways of switching a rule off agree.** If every rule puts its own id on what it finds and no
enabled rule fails, then the linter without the rules of an id and the linter that allows the id report
what the linter reports less the findings of that id. And if a registry lists every rule under its own
id, then ignoring the id leads to just the linter without the rules of that id. -/
theorem switched_off_agree (id : String) :
    (∀ (l : Linter) (parser : Parser) (source : List UInt8), (∀ r ∈ l.rules, r.SignsOwn) →
      l.Succeeds parser source → ∃ found, (l.lint parser source).2 = .ok found ∧
        ((l.without id).lint parser source).2 = .ok (found.filter fun d => d.ruleId != id) ∧
        ((l.override [(id, .allow)]).lint parser source).2 =
          .ok (found.filter fun d => d.ruleId != id)) ∧
    ∀ (α : Type) (registry : Registry α) (s : Selection) (options : Table (Options α))
      (built : List (Options α × Rule)), registry.KeyedById →
      (registry.choose s).instantiate options = .ok built →
      ∃ left, (registry.choose (s.ignoring id)).instantiate options = .ok left ∧
        left = built.filter (fun entry => entry.2.id != id) ∧
        ∀ severities library, (Linter.mk (built.map (·.2)) severities library).without id =
          ⟨left.map (·.2), severities, library⟩ := by
  refine ⟨fun l parser source signs succeeds => ?_, fun α registry s options built keyed h => ?_⟩
  · rcases read : parser.read source with fault | tree
    · exact ⟨[], by simp [lint, read], by simp [lint, read], by simp [lint, read]⟩
    · let a := Answers.ofSucceeds succeeds read
      have left : ((l.without id).lint parser source).2 =
          .ok (unsuppressed source (inOrder (a.without id).reported)) :=
        (a.without id).lint_eq read
      have allowed : ((l.override [(id, .allow)]).lint parser source).2 =
          .ok (unsuppressed source (inOrder (a.allowing id).reported)) :=
        (a.allowing id).lint_eq read
      refine ⟨_, a.lint_eq read, ?_, ?_⟩
      · rw [left, a.reported_without id signs, unsuppressed_inOrder_filter]
      · rw [allowed, a.reported_allowing id signs, unsuppressed_inOrder_filter]
  · refine ⟨_, Registry.instantiate_ignoring keyed s id h, rfl, fun severities library => ?_⟩
    unfold without
    rw [List.filter_map]
    rfl

/-! ### Two rules, one of them switched off -/

/-- A rule with one finding in every file. -/
def finder (id : String) (start : Nat) : Rule :=
  ⟨id, .ok .warning, .ok .style, fun _ _ => .ok [findingAt id .warning start]⟩

/-- Such a rule puts its own id on its finding. -/
theorem finder_signsOwn (id : String) (start : Nat) : (finder id start).SignsOwn := by
  intro tree context found answer d hd
  obtain rfl := Except.ok.inj answer
  rw [List.mem_singleton.mp hd]
  rfl

/-- Two such rules, listed under their ids. -/
def finders : Registry Unit :=
  [("late", ⟨"late", [], fun _ => .ok (finder "late" 4)⟩),
   ("early", ⟨"early", [], fun _ => .ok (finder "early" 2)⟩)]

/-- Of two rules with a finding each, the finding of the one that is switched off is missing from the
report, whichever way it is switched off. -/
theorem switched_off_agree_finders :
    let l : Linter := { rules := [finder "late" 4, finder "early" 2] }
    let source := Utf8.encode "x = 1"
    let selection : Selection := { select := some ["early", "late"] }
    (l.lint Lua.parser source).2 = .ok [findingAt "early" .warning 2, findingAt "late" .warning 4] ∧
      ((l.without "late").lint Lua.parser source).2 = .ok [findingAt "early" .warning 2] ∧
      ((l.override [("late", .allow)]).lint Lua.parser source).2 = .ok [findingAt "early" .warning 2] ∧
      (finders.choose (selection.ignoring "late")).instantiate [] = .ok [([], finder "early" 2)] := by
  intro l source selection
  obtain ⟨runs, builds⟩ := switched_off_agree "late"
  have signs : ∀ r ∈ l.rules, r.SignsOwn := by
    intro r hr
    obtain rfl | rfl : r = finder "late" 4 ∨ r = finder "early" 2 := by simpa [l] using hr
    · exact finder_signsOwn _ _
    · exact finder_signsOwn _ _
  have succeeds : l.Succeeds Lua.parser source := by
    intro tree _ r hr
    obtain rfl | rfl : r = finder "late" 4 ∨ r = finder "early" 2 := by simpa [l] using hr
    · exact ⟨.warning, rfl, fun _ => ⟨_, rfl⟩⟩
    · exact ⟨.warning, rfl, fun _ => ⟨_, rfl⟩⟩
  obtain ⟨tree, read⟩ : ∃ tree, Lua.parser.read source = .ok tree :=
    Outcome.exists_of_isOk (by decide +kernel)
  have sorted : inOrder [findingAt "late" .warning 4, findingAt "early" .warning 2] =
      [findingAt "early" .warning 2, findingAt "late" .warning 4] := by
    rw [inOrder_eq_byKey, Keyed.byKey_eq_foldr]
    decide
  have left : unsuppressed source [findingAt "early" .warning 2, findingAt "late" .warning 4] =
      [findingAt "early" .warning 2, findingAt "late" .warning 4] := by decide +kernel
  have full : (l.lint Lua.parser source).2 =
      .ok [findingAt "early" .warning 2, findingAt "late" .warning 4] := by
    rw [(Answers.ofSucceeds succeeds read).lint_eq read]
    change Except.ok (unsuppressed source
      (inOrder [findingAt "late" .warning 4, findingAt "early" .warning 2])) = _
    rw [sorted, left]
  obtain ⟨found, report, without, allowed⟩ := runs l Lua.parser source signs succeeds
  obtain rfl := Except.ok.inj (full.symm.trans report)
  have keyed : finders.KeyedById := by
    intro name blueprint listed values rule built
    obtain ⟨rfl, rfl⟩ | ⟨rfl, rfl⟩ : _ ∨ _ := by simpa [finders] using listed
    · cases built
      rfl
    · cases built
      rfl
  have built : (finders.choose selection).instantiate [] =
      .ok [([], finder "late" 4), ([], finder "early" 2)] := by
    have all : finders.choose selection = finders := by
      simp [Registry.choose, finders, selection, Selection.active]
    have known : ∀ b : Blueprint Unit, b.unknown [] = [] := fun b => by
      simp [Blueprint.unknown, sortedNames, List.eraseDups_nil]
    rw [all]
    simp [finders, Registry.instantiate, Table.get?, Blueprint.instantiate, Blueprint.settle, known,
      bind, Except.bind, pure, Except.pure]
  obtain ⟨ignoring, chosen, rest, -⟩ := builds Unit finders selection [] _ keyed built
  exact ⟨full, without, allowed, chosen.trans (congrArg Except.ok rest)⟩

end Linter

end LuaLint
