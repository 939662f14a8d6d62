import LuaLint.Proofs.Outcome
import LuaLint.Rule.Registry

/-!
# Rules that are left out

What becomes of the rules of a registry when one more name is ignored.

* **The choice** (`Registry.choose_ignoring`): the entries of that name are left out, and no other
  entry comes or goes.
* **The rules** (`Registry.instantiate_ignoring`): in a registry that lists every rule under its own
  id, the rules of that id are left out of what is built, and all others are built as before.
-/

namespace LuaLint

/-- The selection with one more name ignored. -/
def Selection.ignoring (s : Selection) (name : String) : Selection :=
  { s with ignore := name :: s.ignore }

/-- One more ignored name makes that name inactive and says nothing about others. -/
theorem Selection.active_ignoring (s : Selection) (name other : String) :
    (s.ignoring name).active other = (other != name && s.active other) := by
  simp only [active, ignoring, List.contains_cons, Bool.not_or]
  cases s.select.all (·.contains other) <;> simp [bne]

namespace Registry

variable {α : Type}

/-- Every blueprint is listed under the id of the rules that it builds. -/
def KeyedById (registry : Registry α) : Prop :=
  ∀ name blueprint, (name, blueprint) ∈ registry →
    ∀ values rule, blueprint.build values = .ok rule → rule.id = name

/-- **Ignoring one more name leaves out the entries of that name.** -/
theorem choose_ignoring (registry : Registry α) (s : Selection) (name : String) :
    registry.choose (s.ignoring name) = (registry.choose s).filter fun entry => entry.1 != name := by
  unfold choose
  rw [List.filter_filter]
  exact List.filter_congr fun entry _ => s.active_ignoring name entry.1

/-- What a blueprint of a keyed registry builds has the id that it is listed under. -/
theorem KeyedById.id_eq {registry : Registry α} (keyed : registry.KeyedById) {name : String}
    {blueprint : Blueprint α} (listed : (name, blueprint) ∈ registry) {given settled : Options α}
    {rule : Rule} (built : blueprint.instantiate given = .ok (settled, rule)) : rule.id = name := by
  unfold Blueprint.instantiate at built
  obtain ⟨values, -, built⟩ := Outcome.bind_eq_ok.mp built
  obtain ⟨_, outcome, built⟩ := Outcome.bind_eq_ok.mp built
  cases built
  exact keyed name blueprint listed _ _ outcome

/-- **Ignoring one more name leaves out the rules of that id** and builds the others as before. -/
theorem instantiate_ignoring {registry : Registry α} (keyed : registry.KeyedById) (s : Selection)
    (name : String) {options : Table (Options α)} {built : List (Options α × Rule)}
    (h : (registry.choose s).instantiate options = .ok built) :
    (registry.choose (s.ignoring name)).instantiate options =
      .ok (built.filter fun entry => entry.2.id != name) := by
  rw [choose_ignoring]
  refine Outcome.mapM_filter (fun entry chosen outcome h => ?_) h
  rw [keyed.id_eq (List.mem_filter.mp chosen).1 h]

end Registry

end LuaLint
