import LuaLint.Log
import LuaLint.Rule.Registry
import LuaLint.Text.Lower

/-!
# Settings

What the user decides about a run: which rules are active, at which severities they report, with which
options they are built, and for which standard library the code is written. Settings are read from a
table, and **each setting is made from its own key alone**. A key with a value of the wrong form counts
as absent and is noted in the log; unknown keys are not looked at.

Names of rules are lower-cased. Where several keys of a table have one lower-case form, the last in the
order of the document decides.

The standard library and the levels of rules are values of any form that are written as words, and what is
noted about a value shows it. The interpreter may refuse to write a value, and then **there are no settings
at all**: the refusal is not met as a value of the wrong form is.
-/

namespace LuaLint

/-- What the user decides about a run. -/
structure Settings where
  selection : Selection := {}
  standardLibrary : String := "lua51"
  /-- The user's severities by rule. -/
  severities : Table Severity := []
  /-- The options by rule. -/
  options : Table (Options Toml.Value) := []

namespace Settings

open Noted (note)
open Toml (Limits Value)

/-- The text that a value is. -/
def string? : Value → Option String
  | .string text => some text
  | _ => none

/-- The texts that a value lists, if it lists nothing else. -/
def strings? : Value → Option (List String)
  | .array items => items.mapM string?
  | _ => none

/-- The entries of a value that is a table. -/
def entries? : Value → Option (Table Value)
  | .table entries => some entries
  | _ => none

section reading

variable (limits : Limits) (recorded : Bool)

/-- A setting of some form. A value of any other form counts as absent, with a complaint. -/
def formed {α : Type} (read? : Value → Option α) (complaint : Value → LogEvent) (data : Table Value)
    (key : String) : Noted Toml.Refusal (Option α) :=
  match Table.get? data key with
  | none => return none
  | some value => match read? value with
    | some x => return some x
    | none => do
      note limits recorded (complaint value)
      return none

/-- A setting that lists rule ids. -/
def idList (data : Table Value) (key : String) : Noted Toml.Refusal (Option (List String)) := do
  let ids ← formed limits recorded strings? (.notAnIdList key) data key
  return ids.map (·.map Text.lowercase)

/-- A setting that is a table. -/
def tableAt (data : Table Value) (key : String) : Noted Toml.Refusal (Table Value) := do
  let entries ← formed limits recorded entries? (.notATable key) data key
  return entries.getD []

/-- The severity that a level stands for. -/
def level? : String → Option Severity
  | "allow" => some .allow
  | "warn" => some .warning
  | "deny" => some .error
  | _ => none

/-- The severities that levels set, one after the other. What is no level sets none and is noted. -/
def severitiesOf : Table Value → Noted Toml.Refusal (List (String × Severity))
  | [] => return []
  | (id, value) :: rest => do
    let word ← value.text limits
    match level? (Text.lowercase word) with
    | some severity => return (Text.lowercase id, severity) :: (← severitiesOf rest)
    | none =>
      note limits recorded (.unknownLevel value id)
      severitiesOf rest

/-- The options in a table of tables. Other entries say nothing. -/
def optionsOf (rules : Table Value) : Table (Options Value) :=
  Table.ofEntries (rules.filterMap fun (id, value) =>
    (entries? value).map fun entries => (Text.lowercase id, entries))

/-- The standard library that a table names, by a value of any form. -/
def libraryOf (data : Table Value) : Except Toml.Refusal String :=
  match Table.get? data "std" with
  | none => return "lua51"
  | some value => value.text limits

/-- The settings that a table makes, and what is noted about it. -/
def ofTable (data : Table Value) : Noted Toml.Refusal Settings := do
  let select ← idList limits recorded data "select"
  let ignore ← idList limits recorded data "ignore"
  let rules ← tableAt limits recorded data "rules"
  let standardLibrary ← libraryOf limits data
  let lints ← tableAt limits recorded data "lints"
  let severities ← severitiesOf limits recorded lints
  return { selection := { select, ignore := ignore.getD [] }
           standardLibrary
           severities := Table.ofEntries severities
           options := optionsOf rules }

end reading

end Settings

end LuaLint
