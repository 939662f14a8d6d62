import LuaLint.Proofs.Outcome
import LuaLint.Proofs.Rule.Options
import LuaLint.Rule.Registry

/-!
# Building the rules

The active rules of a registry are built one after the other, each from the options under its name.

* **A rule** (`Blueprint.instantiate_eq_error_iff`, `Blueprint.instantiate_eq_ok_iff`) is refused for an
  option that it does not know, or else for the values (`Blueprint.Refuses`), and is built otherwise
  (`Blueprint.Builds`).
* **All rules** (`Registry.instantiate_chosen`): the first active one that is refused decides the error;
  without one, each active rule is built once, in the order of the registry. The options of no other rule
  play a part.
-/

namespace LuaLint

namespace Blueprint

variable {α : Type} {b : Blueprint α} {options values : Options α} {e : ConfigurationError}
  {rule : Rule}

/-! ## A rule -/

/-- Why a rule is not built from the options: one of them is not the rule's, or the rule refuses the
values. -/
inductive Refuses (b : Blueprint α) (options : Options α) : ConfigurationError → Prop
  | foreign (unknown : ¬ b.Knows options) : Refuses b options (b.foreignError options)
  | values {e : ConfigurationError} (known : b.Knows options)
      (build : b.build (b.filled options) = .error e) : Refuses b options e

/-- The rule that is built from the options, after the values that they settle. -/
structure Builds (b : Blueprint α) (options : Options α) (built : Options α × Rule) : Prop where
  known : b.Knows options
  values : built.1 = b.filled options
  build : b.build (b.filled options) = .ok built.2

theorem instantiate_of_knows (known : b.Knows options) :
    b.instantiate options = (b.build (b.filled options)).map fun rule => (b.filled options, rule) := by
  rw [instantiate, settle_of_knows known]
  rfl

theorem instantiate_of_foreign (foreign : ¬ b.Knows options) :
    b.instantiate options = .error (b.foreignError options) := by
  rw [instantiate, settle_of_foreign foreign]
  rfl

/-- **A rule is not built for a reason to refuse its options**, and for no other. -/
theorem instantiate_eq_error_iff : b.instantiate options = .error e ↔ b.Refuses options e := by
  by_cases known : b.Knows options
  · rw [instantiate_of_knows known]
    rcases build : b.build (b.filled options) with reason | rule
    · constructor
      · rintro ⟨⟩
        exact .values known build
      · rintro (unknown | ⟨-, same⟩)
        · exact absurd known unknown
        · cases build.symm.trans same
          rfl
    · refine iff_of_false nofun ?_
      rintro (unknown | ⟨-, refused⟩)
      · exact unknown known
      · cases build.symm.trans refused
  · rw [instantiate_of_foreign known]
    constructor
    · rintro ⟨⟩
      exact .foreign known
    · rintro (_ | ⟨knows, -⟩)
      · rfl
      · exact absurd knows known

/-- **A rule is built from options that it knows**, with a value for each option that it has. -/
theorem instantiate_eq_ok_iff {built : Options α × Rule} :
    b.instantiate options = .ok built ↔ b.Builds options built := by
  obtain ⟨values, rule⟩ := built
  by_cases known : b.Knows options
  · rw [instantiate_of_knows known]
    rcases build : b.build (b.filled options) with reason | made
    · refine iff_of_false nofun ?_
      rintro ⟨-, -, accepted⟩
      cases build.symm.trans accepted
    · constructor
      · rintro ⟨⟩
        exact ⟨known, rfl, build⟩
      · rintro ⟨-, rfl, same⟩
        cases build.symm.trans same
        rfl
  · rw [instantiate_of_foreign known]
    exact iff_of_false nofun fun made => known made.known

end Blueprint

/-! ## All rules -/

/-- The rule of the name is selected, if there is a selection, and not ignored. -/
def Selection.Runs (s : Selection) (name : String) : Prop :=
  (∀ names, s.select = some names → name ∈ names) ∧ name ∉ s.ignore

theorem Selection.active_iff (s : Selection) (name : String) : s.active name = true ↔ s.Runs name := by
  rw [active, Runs, Bool.and_eq_true]
  simp [Option.all_eq_true]

instance (s : Selection) (name : String) : Decidable (s.Runs name) :=
  decidable_of_iff _ (s.active_iff name)

namespace Registry

variable {α : Type}

/-- The options under a name, which may be none. -/
def optionsUnder (options : Table (Options α)) (name : String) : Options α :=
  (Table.get? options name).getD []

theorem choose_eq_filter (registry : Registry α) (s : Selection) :
    registry.choose s = registry.filter fun entry => decide (s.Runs entry.1) := by
  unfold choose
  exact List.filter_congr fun entry _ => Bool.eq_iff_iff.mpr (by rw [s.active_iff, decide_eq_true_eq])

/-- **How the active rules of a registry are built.** They are refused exactly if one of them is, which has
an option that it does not know or does not accept the values, and the first of those decides the error.
Otherwise each is built once, in the order of the registry and from the options under its name. Options under
names that are not selected, that are ignored or that are not registered make no difference. -/
theorem instantiate_chosen (registry : Registry α) (s : Selection) (options : Table (Options α)) :
    ((∃ e, (registry.choose s).instantiate options = .error e) ↔
      ∃ entry ∈ registry, s.Runs entry.1 ∧
        ∃ e, entry.2.Refuses (optionsUnder options entry.1) e) ∧
    (∀ e, (registry.choose s).instantiate options = .error e ↔
      ∃ before entry after, registry = before ++ entry :: after ∧ s.Runs entry.1 ∧
        (∀ earlier ∈ before, s.Runs earlier.1 →
          ∀ other, ¬ earlier.2.Refuses (optionsUnder options earlier.1) other) ∧
        entry.2.Refuses (optionsUnder options entry.1) e) ∧
    (∀ built, (registry.choose s).instantiate options = .ok built ↔
      List.Forall₂ (fun entry made => entry.2.Builds (optionsUnder options entry.1) made)
        (registry.filter fun entry => decide (s.Runs entry.1)) built) ∧
    ∀ others : Table (Options α),
      (∀ entry ∈ registry, s.Runs entry.1 →
        Table.get? others entry.1 = Table.get? options entry.1) →
      (registry.choose s).instantiate others = (registry.choose s).instantiate options := by
  have attempts (options : Table (Options α)) : (registry.choose s).instantiate options =
      (registry.filter fun entry => decide (s.Runs entry.1)).mapM fun entry =>
        entry.2.instantiate (optionsUnder options entry.1) := by
    rw [choose_eq_filter]
    rfl
  refine ⟨?_, fun e => ?_, fun built => ?_, fun others same => ?_⟩
  · rw [attempts, Outcome.exists_mapM_eq_error_iff]
    simp only [Blueprint.instantiate_eq_error_iff, List.mem_filter, decide_eq_true_eq, and_assoc]
  · rw [attempts, Outcome.mapM_filter_eq_error_iff]
    simp only [ne_eq, Blueprint.instantiate_eq_error_iff, decide_eq_true_eq]
  · rw [attempts, Outcome.mapM_eq_ok_iff]
    simp only [Blueprint.instantiate_eq_ok_iff]
  · rw [attempts, attempts]
    refine Outcome.mapM_congr fun entry chosen => ?_
    obtain ⟨listed, runs⟩ := List.mem_filter.mp chosen
    rw [optionsUnder, optionsUnder, same entry listed (decide_eq_true_eq.mp runs)]

/-! ### A registry with rules that refuse their options -/

/-- A rule without options, one that is never content with the value of its option, and one that takes any
value. -/
def demanding : Registry Nat :=
  [("plain", ⟨"plain", [], fun _ => .ok ZeroDivisor.rule⟩),
   ("picky", ⟨"picky", [("depth", 3)], fun _ => .error ⟨"picky", "too deep"⟩⟩),
   ("wide", ⟨"wide", [("width", 80)], fun _ => .ok ZeroDivisor.rule⟩)]

/-- An option that a rule does not know comes before values that another does not accept. If both rules are
ignored, the third is built, whatever options they and names that are not registered have. -/
theorem instantiate_chosen_demanding :
    let options : Table (Options Nat) :=
      [("picky", [("depth", 9)]), ("plain", [("depth", 9)]), ("lost", [("depth", 9)])]
    (demanding.choose {}).instantiate options =
        .error ⟨"plain", "unrecognised option(s): depth"⟩ ∧
      (demanding.choose { ignore := ["plain"] }).instantiate options = .error ⟨"picky", "too deep"⟩ ∧
      (demanding.choose { ignore := ["plain", "picky"] }).instantiate options =
        .ok [([("width", 80)], ZeroDivisor.rule)] ∧
      (demanding.choose { ignore := ["plain", "picky"] }).instantiate [] =
        .ok [([("width", 80)], ZeroDivisor.rule)] := by
  intro options
  let last : Selection := { ignore := ["plain", "picky"] }
  obtain ⟨-, first, -, -⟩ := instantiate_chosen demanding {} options
  obtain ⟨-, second, -, -⟩ := instantiate_chosen demanding { ignore := ["plain"] } options
  obtain ⟨-, -, built, apart⟩ := instantiate_chosen demanding last options
  have third : (demanding.choose last).instantiate options =
      .ok [([("width", 80)], ZeroDivisor.rule)] := by
    have active : (demanding.filter fun entry => decide (last.Runs entry.1)) = demanding.drop 2 := by
      rfl
    refine (built _).mpr ?_
    rw [active]
    exact .cons ⟨by decide, by decide, rfl⟩ .nil
  refine ⟨?_, ?_, third, ?_⟩
  · have foreign : ¬ (demanding[0].2).Knows (optionsUnder options "plain") := by decide
    have named : (demanding[0].2).foreignError (optionsUnder options "plain") =
        ⟨"plain", "unrecognised option(s): depth"⟩ := by cbv
    refine (first _).mpr ⟨[], demanding[0], demanding.drop 1, rfl, by decide, ?_, ?_⟩
    · intro earlier listed
      exact absurd listed List.not_mem_nil
    · exact named ▸ .foreign foreign
  · refine (second _).mpr ⟨demanding.take 1, demanding[1], demanding.drop 2, rfl, by decide, ?_, ?_⟩
    · intro earlier listed runs
      obtain rfl := List.mem_singleton.mp listed
      exact absurd runs (by decide)
    · exact .values (by decide) rfl
  · rw [← third]
    apply apart []
    intro entry listed runs
    have active : entry ∈ demanding.filter fun entry => decide (last.Runs entry.1) :=
      List.mem_filter.mpr ⟨listed, decide_eq_true runs⟩
    obtain rfl := List.mem_singleton.mp active
    rfl

end Registry

end LuaLint
