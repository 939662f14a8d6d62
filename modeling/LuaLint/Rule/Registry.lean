import LuaLint.Rule.ZeroDivisor
import LuaLint.Table

/-!
# Registered rules and the choice among them

A registry lists blueprints under their names. A selection says which of them are active: if names are
selected, only those, and never one that is ignored. The active rules are then built in the order of
the registry, each from the options under its name; **the first that refuses its options ends the
building**, and the options of inactive rules are never looked at.
-/

namespace LuaLint

/-- Which of the registered rules to run. -/
structure Selection where
  /-- The names of the rules to run; `none` stands for all. -/
  select : Option (List String) := none
  /-- The names of rules not to run. -/
  ignore : List String := []
deriving Repr, DecidableEq

/-- The rule of the given name is to be run. -/
def Selection.active (s : Selection) (name : String) : Bool :=
  s.select.all (·.contains name) && !s.ignore.contains name

/-- Blueprints under their names. -/
abbrev Registry (α : Type) := Table (Blueprint α)

namespace Registry

variable {α : Type}

/-- All rules that there are. -/
def standard : Registry α := [(ZeroDivisor.id, ZeroDivisor.blueprint)]

/-- The active part of the registry, in its order. -/
def choose (s : Selection) (r : Registry α) : Registry α :=
  r.filter fun (name, _) => s.active name

/-- The rules of a registry, each built from the options under its name, after the values that these
options settle. -/
def instantiate (options : Table (Options α)) (r : Registry α) :
    Except ConfigurationError (List (Options α × Rule)) :=
  r.mapM fun (name, blueprint) =>
    blueprint.instantiate ((Table.get? options name).getD [])

end Registry

end LuaLint
