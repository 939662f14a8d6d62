import LuaLint.Diagnostic.Basic
import LuaLint.Tree.Node

/-!
# Rules

A rule looks at the tree of one file and returns its findings. It may fail, with the reason why one of
its findings cannot be made; such a failure is a flaw of the rule and not of the text.

A rule is built from a **blueprint**, which names the options that the rule understands with their
defaults. `Blueprint.settle` fills a table of options up, and refuses a table with an option that is
not understood; `Blueprint.instantiate` then builds the rule, which may refuse the values. The type of
option values is left open: nothing here looks into a value.
-/

namespace LuaLint

/-- What every rule is told about the file. -/
structure Context where
  /-- The bytes that the tree was read from. -/
  source : List UInt8
  /-- The standard library that the file is written for. -/
  standardLibrary : String
deriving Repr

/-- A rule that is ready to run. -/
structure Rule where
  id : String
  /-- The severity of the rule's findings, unless the user decides otherwise. -/
  severity : Except Malformed Severity
  category : Except Malformed Category
  /-- The findings in a tree. -/
  check : Node → Context → Except Malformed (List Diagnostic)

/-! ## Options -/

/-- Why no rule can be built from the options it was given. -/
structure ConfigurationError where
  ruleId : String
  reason : String
deriving Repr, DecidableEq

/-- The wording of the error. -/
def ConfigurationError.message (e : ConfigurationError) : String :=
  s!"{e.ruleId}: {e.reason}"

/-- Option names with their values. -/
abbrev Options (α : Type) := List (String × α)

/-- The names in a table, each once and in the order of their code points. -/
def sortedNames (names : List String) : List String :=
  names.eraseDups.mergeSort fun a b => decide (a ≤ b)

/-- A rule that is yet to be built from its options. -/
structure Blueprint (α : Type) where
  id : String
  /-- The options that the rule understands, with their defaults. -/
  fields : Options α
  /-- The rule with the given values of all options, or the reason to refuse them. -/
  build : Options α → Except ConfigurationError Rule

namespace Blueprint

variable {α : Type}

/-- The options of the table that the rule does not understand. -/
def unknown (b : Blueprint α) (options : Options α) : List String :=
  sortedNames ((options.map (·.1)).filter fun name => !(b.fields.map (·.1)).contains name)

/-- A value for every option of the rule: the given one, else the default. -/
def settle (b : Blueprint α) (options : Options α) : Except ConfigurationError (Options α) :=
  match b.unknown options with
  | [] => .ok (b.fields.map fun (name, default) => (name, (options.lookup name).getD default))
  | names => .error ⟨b.id, "unrecognised option(s): " ++ String.intercalate ", " names⟩

/-- The rule that the options describe, after the values that they settle. -/
def instantiate (b : Blueprint α) (options : Options α) :
    Except ConfigurationError (Options α × Rule) := do
  let settled ← b.settle options
  return (settled, ← b.build settled)

end Blueprint

end LuaLint
