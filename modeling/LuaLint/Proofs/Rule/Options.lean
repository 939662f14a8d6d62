import LuaLint.Proofs.Table
import LuaLint.Rule.ZeroDivisor
import Mathlib

/-!
# Settling the options of a rule

A table of options is settled as a whole: it is refused for the options that the rule does not have, or
else completed with the defaults of those that it leaves out.

* **The two cases** (`Blueprint.settle_of_knows`, `Blueprint.settle_of_foreign`): a rule that knows all of the
  options takes the given values and the defaults for the others. A single one that it does not know is
  enough to refuse them all.
* **The list of foreign options** is in the order of the names and has none of them twice
  (`sortedNames_increasing`). Such a list is decided by the names that are in it (`eq_of_increasing`).
* **What a table is settled to** hangs on which options it has and on what a look-up finds for those of the
  rule (`Blueprint.settle_congr`). So neither the order of a table (`Blueprint.settle_of_perm`) nor a default
  that is written out (`Blueprint.settle_append_defaults`) makes a difference.
* **All of it in one statement** is `Blueprint.settle_decides`.
-/

namespace LuaLint

/-! ## Lists of names -/

variable {names others : List String}

theorem mem_sortedNames {name : String} : name ∈ sortedNames names ↔ name ∈ names := by
  rw [sortedNames, (List.mergeSort_perm _ _).mem_iff, List.mem_eraseDups]

theorem nodup_eraseDups (names : List String) : names.eraseDups.Nodup := by
  match names with
  | [] => exact .nil
  | name :: rest =>
    rw [List.eraseDups_cons, List.nodup_cons]
    refine ⟨fun again => ?_, nodup_eraseDups (rest.filter fun other => !other == name)⟩
    simpa using List.mem_eraseDups.mp again
termination_by names.length
decreasing_by exact Nat.lt_succ_of_le (List.length_filter_le _ _)

/-- Each name comes before all names that follow it, by the code points of their letters. -/
theorem sortedNames_increasing (names : List String) : (sortedNames names).Pairwise (· < ·) := by
  have apart : (sortedNames names).Nodup :=
    (List.mergeSort_perm _ _).nodup_iff.mpr (nodup_eraseDups names)
  have sorted : (sortedNames names).Pairwise fun a b => decide (a ≤ b) = true :=
    List.pairwise_mergeSort (by simpa using fun a b c => String.le_trans)
      (by simpa using String.le_total) _
  exact sorted.imp₂ (fun _ _ le differ => lt_of_le_of_ne (of_decide_eq_true le) differ) apart

/-- A list of names in increasing order is decided by the names that are in it. -/
theorem eq_of_increasing (h : names.Pairwise (· < ·)) (h' : others.Pairwise (· < ·))
    (same : ∀ name, name ∈ names ↔ name ∈ others) : names = others := by
  have order : names.Perm others :=
    (List.perm_ext_iff_of_nodup (h.imp ne_of_lt) (h'.imp ne_of_lt)).mpr same
  exact order.eq_of_pairwise (fun _ _ _ _ before after => absurd after (lt_asymm before)) h h'

namespace Blueprint

variable {α : Type} {b : Blueprint α} {options more : Options α}

/-! ## The two cases -/

/-- Every option of the table is one of the rule's. -/
def Knows (b : Blueprint α) (options : Options α) : Prop :=
  ∀ option ∈ options, ∃ field ∈ b.fields, field.1 = option.1

instance (b : Blueprint α) (options : Options α) : Decidable (b.Knows options) :=
  inferInstanceAs (Decidable (∀ option ∈ options, ∃ field ∈ b.fields, field.1 = option.1))

/-- A value for each option of the rule: the one in the table, or else the default. -/
def filled (b : Blueprint α) (options : Options α) : Options α :=
  b.fields.map fun field => (field.1, (options.lookup field.1).getD field.2)

theorem mem_unknown {name : String} :
    name ∈ b.unknown options ↔ name ∈ options.map (·.1) ∧ name ∉ b.fields.map (·.1) := by
  rw [unknown, mem_sortedNames, List.mem_filter]
  simp

theorem unknown_eq_nil_iff : b.unknown options = [] ↔ b.Knows options := by
  rw [List.eq_nil_iff_forall_not_mem]
  simp only [mem_unknown, List.mem_map, not_and, not_not]
  constructor
  · intro known option given
    exact known option.1 ⟨option, given, rfl⟩
  · rintro known name ⟨option, given, rfl⟩
    exact known option given

theorem settle_of_knows (known : b.Knows options) : b.settle options = .ok (b.filled options) := by
  rw [settle, unknown_eq_nil_iff.mpr known]
  rfl

/-- The error for options of which some are not the rule's. It names all of those. -/
def foreignError (b : Blueprint α) (options : Options α) : ConfigurationError :=
  ⟨b.id, "unrecognised option(s): " ++ String.intercalate ", " (b.unknown options)⟩

theorem settle_of_foreign (foreign : ¬ b.Knows options) :
    b.settle options = .error (b.foreignError options) := by
  rw [← unknown_eq_nil_iff] at foreign
  rw [settle, foreignError]
  split
  · exact absurd ‹_› foreign
  · rfl

/-- An option that is not the rule's, in terms of names. -/
theorem not_knows_iff :
    ¬ b.Knows options ↔ ∃ name ∈ Table.names options, name ∉ Table.names b.fields := by
  rw [← unknown_eq_nil_iff, List.eq_nil_iff_forall_not_mem, not_forall_not]
  exact exists_congr fun name => mem_unknown

/-- There is one error, for foreign options. -/
theorem settle_eq_error_iff {e : ConfigurationError} :
    b.settle options = .error e ↔ ¬ b.Knows options ∧ e = b.foreignError options := by
  by_cases known : b.Knows options
  · rw [settle_of_knows known]
    exact iff_of_false nofun fun h => h.1 known
  · rw [settle_of_foreign known, Except.error.injEq, eq_comm]
    exact (and_iff_right known).symm

theorem message_foreignError : (b.foreignError options).message =
    b.id ++ ": unrecognised option(s): " ++ String.intercalate ", " (b.unknown options) := by
  have joined : ": unrecognised option(s): " = ": " ++ "unrecognised option(s): " := by decide
  change b.id ++ ": " ++ ("unrecognised option(s): " ++ _) = _
  rw [joined, ← String.append_assoc, ← String.append_assoc]

/-! ## What a table is settled to -/

theorem unknown_increasing : (b.unknown options).Pairwise (· < ·) := sortedNames_increasing _

/-- A table is settled by its foreign options and by the values that it gives or leaves out. -/
theorem settle_congr {others : Options α} (unknown : b.unknown others = b.unknown options)
    (values : b.filled others = b.filled options) : b.settle others = b.settle options := by
  by_cases known : b.Knows options
  · have known' : b.Knows others := by
      rwa [← unknown_eq_nil_iff, unknown, unknown_eq_nil_iff]
    rw [settle_of_knows known, settle_of_knows known', values]
  · have foreign : ¬ b.Knows others := by
      rwa [← unknown_eq_nil_iff, unknown, unknown_eq_nil_iff]
    rw [settle_of_foreign known, settle_of_foreign foreign, foreignError, foreignError, unknown]

/-- **The order of the options makes no difference**, neither to their values nor to the error. -/
theorem settle_of_perm (apart : (Table.names options).Nodup) {others : Options α}
    (order : others.Perm options) : b.settle others = b.settle options := by
  apply settle_congr
  · refine eq_of_increasing unknown_increasing unknown_increasing fun name => ?_
    rw [mem_unknown, mem_unknown, (order.map _).mem_iff]
  · refine List.map_congr_left fun field _ => ?_
    have found : others.lookup field.1 = options.lookup field.1 := Table.get?_of_perm apart order _
    rw [found]

/-- **Defaults may be written out** for options that are left out. -/
theorem settle_append_defaults (fields : (Table.names b.fields).Nodup)
    (defaults : ∀ field ∈ more, field ∈ b.fields) :
    b.settle (options ++ more) = b.settle options := by
  apply settle_congr
  · refine eq_of_increasing unknown_increasing unknown_increasing fun name => ?_
    have known : name ∈ more.map (·.1) → name ∈ b.fields.map (·.1) := by
      intro given
      obtain ⟨field, listed, rfl⟩ := List.mem_map.mp given
      exact List.mem_map_of_mem (defaults field listed)
    rw [mem_unknown, mem_unknown, List.map_append, List.mem_append]
    tauto
  · refine List.map_congr_left fun field listed => ?_
    have default : (more.lookup field.1).getD field.2 = field.2 := by
      rcases found : more.lookup field.1 with _ | value
      · rfl
      · -- two defaults of one option are the same
        obtain ⟨before, after, rfl, -⟩ := List.lookup_eq_some_iff.mp found
        have other : (field.1, value) ∈ b.fields := defaults _ (by simp)
        have first := (Table.get?_eq_some_iff_mem fields).mpr listed
        have second := (Table.get?_eq_some_iff_mem fields).mpr other
        exact Option.some.inj (second.symm.trans first)
    rw [List.lookup_append, Option.getD_or, default]

/-! ## The whole of it -/

/-- A value is settled for each option of the rule, and for no other. -/
theorem names_filled : Table.names (b.filled options) = Table.names b.fields := by
  rw [Table.names, filled, List.map_map]
  rfl

/-- It is the given value, if there is one. -/
theorem mem_filled_of_given (apart : (Table.names options).Nodup) {field : String × α}
    (listed : field ∈ b.fields) {value : α} (given : (field.1, value) ∈ options) :
    (field.1, value) ∈ b.filled options := by
  have found : options.lookup field.1 = some value := (Table.get?_eq_some_iff_mem apart).mpr given
  exact List.mem_map.mpr ⟨field, listed, by rw [found, Option.getD_some]⟩

/-- It is the default, if none is given. -/
theorem mem_filled_of_left_out {field : String × α} (listed : field ∈ b.fields)
    (out : field.1 ∉ Table.names options) : field ∈ b.filled options := by
  have found : options.lookup field.1 = none := Table.get?_eq_none_iff.mpr out
  exact List.mem_map.mpr ⟨field, listed, by rw [found, Option.getD_none]⟩

/-- **How a table of options is settled.** It is refused exactly if it has an option that the rule does not
have, and then the message lists all such options, each once and in increasing order, and no others.
Otherwise each option of the rule has its value from the table, or its default if the table leaves it out.
Neither depends on the order of the table, nor on whether defaults of options that it leaves out are
written into it. -/
theorem settle_decides (b : Blueprint α) (options : Options α)
    (fields : (Table.names b.fields).Nodup) (apart : (Table.names options).Nodup) :
    ((∃ e, b.settle options = .error e) ↔
      ∃ name ∈ Table.names options, name ∉ Table.names b.fields) ∧
    (∀ e, b.settle options = .error e → e.ruleId = b.id ∧
      ∃ foreign : List String, foreign.Pairwise (· < ·) ∧
        (∀ name, name ∈ foreign ↔
          name ∈ Table.names options ∧ name ∉ Table.names b.fields) ∧
        e.message = b.id ++ ": unrecognised option(s): " ++ String.intercalate ", " foreign) ∧
    ((∀ name ∈ Table.names options, name ∈ Table.names b.fields) →
      ∃ settled, b.settle options = .ok settled ∧ Table.names settled = Table.names b.fields ∧
        ∀ field ∈ b.fields,
          (∀ value, (field.1, value) ∈ options → (field.1, value) ∈ settled) ∧
          (field.1 ∉ Table.names options → field ∈ settled)) ∧
    (∀ others : Options α, others.Perm options → b.settle others = b.settle options) ∧
    ∀ more : Options α, (∀ field ∈ more, field ∈ b.fields ∧ field.1 ∉ Table.names options) →
      b.settle (options ++ more) = b.settle options := by
  refine ⟨?_, ?_, ?_, fun others order => settle_of_perm apart order, fun more defaults => ?_⟩
  · simp only [settle_eq_error_iff, exists_and_left, exists_eq, and_true]
    exact not_knows_iff
  · intro e refused
    obtain ⟨-, rfl⟩ := settle_eq_error_iff.mp refused
    exact ⟨rfl, b.unknown options, unknown_increasing, fun name => mem_unknown, message_foreignError⟩
  · intro named
    have known : b.Knows options := by
      refine not_not.mp fun foreign => ?_
      obtain ⟨name, given, missing⟩ := not_knows_iff.mp foreign
      exact missing (named name given)
    exact ⟨b.filled options, settle_of_knows known, names_filled, fun field listed =>
      ⟨fun value given => mem_filled_of_given apart listed given, mem_filled_of_left_out listed⟩⟩
  · exact settle_append_defaults fields fun field listed => (defaults field listed).1

/-- A rule with two options. -/
def paragraph : Blueprint Nat :=
  { id := "paragraph", fields := [("width", 80), ("indent", 2)]
    build := fun _ => .ok ZeroDivisor.rule }

/-- Two options that the rule does not have are listed in their order and not in that of the table. Without
them the table is completed, in the order of the rule, and may as well have had the default. -/
theorem settle_decides_paragraph :
    let mixed : Options Nat := [("wide", 1), ("width", 60), ("colour", 7)]
    let fine : Options Nat := [("width", 60)]
    (Table.names paragraph.fields).Nodup ∧ (Table.names mixed).Nodup ∧ (Table.names fine).Nodup ∧
      (∃ e, paragraph.settle mixed = .error e ∧
        e.message = "paragraph: unrecognised option(s): colour, wide") ∧
      (∃ settled, paragraph.settle fine = .ok settled ∧ Table.names settled = ["width", "indent"] ∧
        ("width", 60) ∈ settled ∧ ("indent", 2) ∈ settled) ∧
      paragraph.settle (fine ++ [("indent", 2)]) = paragraph.settle fine := by
  intro mixed fine
  have fields : (Table.names paragraph.fields).Nodup := by decide
  have apart : (Table.names mixed).Nodup := by decide
  have apart' : (Table.names fine).Nodup := by decide
  obtain ⟨refused, told, -⟩ := settle_decides paragraph mixed fields apart
  obtain ⟨-, -, settles, -, completes⟩ := settle_decides paragraph fine fields apart'
  refine ⟨fields, apart, apart', ?_, ?_, completes [("indent", 2)] (by decide)⟩
  · obtain ⟨e, error⟩ := refused.mpr ⟨"wide", by decide, by decide⟩
    obtain ⟨-, foreign, increasing, listed, message⟩ := told e error
    have names : foreign = ["colour", "wide"] := by
      refine eq_of_increasing increasing (by decide) fun name => (listed name).trans ?_
      grind [Table.names, paragraph]
    refine ⟨e, error, ?_⟩
    rw [message, names]
    decide +kernel
  · obtain ⟨settled, done, names, values⟩ := settles (by decide)
    exact ⟨settled, done, names, (values ("width", 80) (by decide)).1 60 (by decide),
      (values ("indent", 2) (by decide)).2 (by decide)⟩

end Blueprint

end LuaLint
