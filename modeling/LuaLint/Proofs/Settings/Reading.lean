import LuaLint.Proofs.Toml.Writing
import LuaLint.Settings.Basic

/-!
# How settings are read from a table

Reading settings fails if the interpreter refuses to write a value that is to be written. Otherwise it goes
through, whatever forms the values have.

* **A setting of some form** (`formed_eq_ok_iff`) is what its value is read as, and a value that has not this
  form is noted. For that it has to be written if records are taken.
* **Levels** (`severitiesOf_eq_ok_iff`) are words, so all values in the table of them have to be written.
* **The settings** (`ofTable_eq_ok_iff`) are put together of these, and there are settings exactly if all that
  is to be written can be (`Expressible`).
-/

namespace LuaLint.Settings

open Noted (bind_eq_ok lift_bind_eq_ok note_eq_ok)
open Toml (Limits Value)

variable {limits : Limits} {recorded : Bool} {data entries : Table Value} {key : String}
  {log : List LogEvent}

/-! ## Values of some form -/

/-- Under the key stands a list of the texts, and of nothing else. -/
def Lists (data : Table Value) (key : String) (ids : List String) : Prop :=
  Table.get? data key = some (.array (ids.map .string))

/-- Under the key stands a table with the entries. -/
def Holds (data : Table Value) (key : String) (entries : Table Value) : Prop :=
  Table.get? data key = some (.table entries)

theorem string?_eq_some_iff (value : Value) (text : String) :
    string? value = some text ↔ value = .string text := by
  cases value <;> simp [string?]

/-- The values are texts exactly if they can all be read as such. -/
theorem mapM_string?_eq_some_iff {items : List Value} {ids : List String} :
    items.mapM string? = some ids ↔ items = ids.map .string := by
  induction items generalizing ids with
  | nil => cases ids <;> simp
  | cons value items ih =>
    cases ids with
    | nil => simp [List.mapM_cons, Option.bind_eq_some_iff]
    | cons id ids => simp [List.mapM_cons, Option.bind_eq_some_iff, string?_eq_some_iff, ih]

theorem strings?_eq_some_iff (value : Value) (ids : List String) :
    strings? value = some ids ↔ value = .array (ids.map .string) := by
  cases value <;> simp [strings?, mapM_string?_eq_some_iff]

theorem entries?_eq_some_iff (value : Value) (entries : Table Value) :
    entries? value = some entries ↔ value = .table entries := by
  cases value <;> simp [entries?]

/-! ## Settings of some form -/

section formed

variable {α β : Type} {read? : Value → Option α} {complaint : Value → LogEvent}

/-- The value under a key, if it is not of the form that is read. -/
def misfit? (read? : Value → Option α) (data : Table Value) (key : String) : Option Value :=
  (Table.get? data key).filter fun value => (read? value).isNone

/-- A value that is read as something in some cases is a misfit in the others. -/
theorem mem_misfit?_iff {form : α → Value} (reads : ∀ value x, read? value = some x ↔ value = form x)
    {value : Value} : value ∈ misfit? read? data key ↔
      Table.get? data key = some value ∧ ∀ x, Table.get? data key ≠ some (form x) := by
  unfold misfit?
  rw [Option.mem_def, Option.filter_eq_some_iff, Option.isNone_iff_eq_none,
    Option.eq_none_iff_forall_ne_some]
  apply and_congr_right
  intro stands
  simp only [ne_eq, reads, stands, Option.some.injEq]

variable (worded : ∀ value,
  (∃ wording, (complaint value).headline limits = .ok wording) ↔ value.Writable limits)
include worded

/-- **A setting of some form is what its value is read as**, and a value of another form is noted. -/
theorem formed_eq_ok_iff {found : Option α} :
    formed limits recorded read? complaint data key = ⟨log, .ok found⟩ ↔
      found = (Table.get? data key).bind read? ∧
        log = (misfit? read? data key).toList.map complaint ∧
        (recorded = true → ∀ value ∈ misfit? read? data key, value.Writable limits) := by
  unfold formed misfit?
  rcases Table.get? data key with _ | value
  · simp [and_comm, eq_comm]
  · rw [Option.filter_some, Option.bind_some]
    dsimp only
    rcases read? value with _ | x
    · simp only [bind_eq_ok, note_eq_ok, worded, Noted.pure_eq_ok, Option.isNone_none, if_true,
        Option.toList_some, List.map_cons, List.map_nil, Option.mem_some_iff, forall_eq']
      constructor
      · rintro ⟨_, _, _, ⟨rfl, writable⟩, ⟨rfl, rfl⟩, rfl⟩
        exact ⟨rfl, rfl, writable⟩
      · rintro ⟨rfl, rfl, writable⟩
        exact ⟨_, (), [], ⟨rfl, writable⟩, ⟨rfl, rfl⟩, rfl⟩
    · simp [and_comm, eq_comm]

/-- The same if something else is made of it then. -/
theorem formed_bind_eq_ok_iff {f : Option α → β} {made : β} :
    (do return f (← formed limits recorded read? complaint data key)) = Noted.mk log (.ok made) ↔
      made = f ((Table.get? data key).bind read?) ∧
        log = (misfit? read? data key).toList.map complaint ∧
        (recorded = true → ∀ value ∈ misfit? read? data key, value.Writable limits) := by
  simp only [bind_eq_ok, formed_eq_ok_iff worded, Noted.pure_eq_ok]
  constructor
  · rintro ⟨_, _, _, ⟨rfl, rfl, writable⟩, ⟨rfl, rfl⟩, rfl⟩
    exact ⟨rfl, List.append_nil _, writable⟩
  · rintro ⟨rfl, rfl, writable⟩
    exact ⟨_, _, [], ⟨rfl, rfl, writable⟩, ⟨rfl, rfl⟩, (List.append_nil _).symm⟩

end formed

/-- The ids that a key lists, in lower case. -/
def listed (data : Table Value) (key : String) : Option (List String) :=
  ((Table.get? data key).bind strings?).map (·.map Text.lowercase)

theorem idList_eq_ok_iff {ids : Option (List String)} :
    idList limits recorded data key = ⟨log, .ok ids⟩ ↔
      ids = listed data key ∧ log = (misfit? strings? data key).toList.map (.notAnIdList key) ∧
        (recorded = true → ∀ value ∈ misfit? strings? data key, value.Writable limits) := by
  apply formed_bind_eq_ok_iff
  intro value
  rw [Value.Writable, ← Value.shown_eq_ok_iff]
  simp [LogEvent.headline, Outcome.bind_eq_ok, pure, Except.pure]

/-- The entries of the table under a key. -/
def entriesAt (data : Table Value) (key : String) : Table Value :=
  ((Table.get? data key).bind entries?).getD []

theorem tableAt_eq_ok_iff :
    tableAt limits recorded data key = ⟨log, .ok entries⟩ ↔
      entries = entriesAt data key ∧ log = (misfit? entries? data key).toList.map (.notATable key) ∧
        (recorded = true → ∀ value ∈ misfit? entries? data key, value.Writable limits) := by
  apply formed_bind_eq_ok_iff
  intro value
  rw [Value.Writable, ← Value.shown_eq_ok_iff]
  simp [LogEvent.headline, Outcome.bind_eq_ok, pure, Except.pure]

/-! ## Levels -/

/-- The value as a word in lower case, if it can be written. -/
def levelText (limits : Limits) (value : Value) : Option String :=
  (value.text limits).toOption.map Text.lowercase

/-- The severity of which the value is the level. -/
def severity? (limits : Limits) (value : Value) : Option Severity := (levelText limits value).bind level?

/-- The severities that levels set. -/
def levelled (limits : Limits) (levels : Table Value) : List (String × Severity) :=
  levels.filterMap fun (id, value) =>
    (severity? limits value).map fun severity => (Text.lowercase id, severity)

/-- The entries that are no levels. -/
def unlevelled (limits : Limits) (levels : Table Value) : Table Value :=
  levels.filter fun entry => (severity? limits entry.2).isNone

/-- What is noted about an entry that is no level. -/
def unlevelledEvent (entry : String × Value) : LogEvent := .unknownLevel entry.2 entry.1

/-- **Levels are read one after the other**, if the values of all entries can be written. -/
theorem severitiesOf_eq_ok_iff {levels : Table Value} {severities : List (String × Severity)} :
    severitiesOf limits recorded levels = ⟨log, .ok severities⟩ ↔
      severities = levelled limits levels ∧ log = (unlevelled limits levels).map unlevelledEvent ∧
        ∀ entry ∈ levels, entry.2.Writable limits := by
  induction levels generalizing log severities with
  | nil => simp [severitiesOf, levelled, unlevelled, and_comm, eq_comm]
  | cons entry rest ih =>
    obtain ⟨id, value⟩ := entry
    have written : (∃ word, value.text limits = .ok word) ↔ value.Writable limits :=
      Value.text_eq_ok_iff value
    rw [severitiesOf, List.forall_mem_cons]
    rcases text : value.text limits with refusal | word
    · have unwritable : ¬ value.Writable limits := fun writable => by
        obtain ⟨_, other⟩ := written.mpr writable
        cases text.symm.trans other
      simp [lift_bind_eq_ok, unwritable]
    · have writable : value.Writable limits := written.mp ⟨word, text⟩
      have severity : severity? limits value = level? (Text.lowercase word) := by
        rw [severity?, levelText, text]
        rfl
      simp only [lift_bind_eq_ok, Except.ok.injEq, exists_eq_left', writable, true_and]
      rcases level : level? (Text.lowercase word) with _ | found
      · have none : severity? limits value = none := severity.trans level
        have worded : ∃ wording, (LogEvent.unknownLevel value id).headline limits = .ok wording := by
          obtain ⟨shown, h⟩ := (Value.shown_eq_ok_iff limits.calls value).mpr writable
          simp [LogEvent.headline, h, bind, Except.bind, pure, Except.pure]
        have here : levelled limits ((id, value) :: rest) = levelled limits rest ∧
            unlevelled limits ((id, value) :: rest) = (id, value) :: unlevelled limits rest := by
          simp [levelled, unlevelled, none]
        simp only [bind_eq_ok, note_eq_ok, worded, ih, here]
        constructor
        · rintro ⟨_, _, _, ⟨rfl, -⟩, ⟨rfl, rfl, writable⟩, rfl⟩
          exact ⟨rfl, rfl, writable⟩
        · rintro ⟨rfl, rfl, writable⟩
          exact ⟨_, (), _, ⟨rfl, fun _ => trivial⟩, ⟨rfl, rfl, writable⟩, rfl⟩
      · have some : severity? limits value = some found := severity.trans level
        have here : levelled limits ((id, value) :: rest) =
              (Text.lowercase id, found) :: levelled limits rest ∧
            unlevelled limits ((id, value) :: rest) = unlevelled limits rest := by
          simp [levelled, unlevelled, some]
        simp only [bind_eq_ok, Noted.pure_eq_ok, ih, here]
        constructor
        · rintro ⟨_, _, _, ⟨rfl, rfl, writable⟩, ⟨rfl, rfl⟩, rfl⟩
          exact ⟨rfl, List.append_nil _, writable⟩
        · rintro ⟨rfl, rfl, writable⟩
          exact ⟨_, _, [], ⟨rfl, rfl, writable⟩, ⟨rfl, rfl⟩, (List.append_nil _).symm⟩

/-! ## All settings -/

/-- What is noted while settings are read. -/
def notes (limits : Limits) (data : Table Value) : List LogEvent :=
  (misfit? strings? data "select").toList.map (.notAnIdList "select") ++
    (misfit? strings? data "ignore").toList.map (.notAnIdList "ignore") ++
    (misfit? entries? data "rules").toList.map (.notATable "rules") ++
    (misfit? entries? data "lints").toList.map (.notATable "lints") ++
    (unlevelled limits (entriesAt data "lints")).map unlevelledEvent

/-- The settings and the notes are what the values under the keys make. -/
structure Made (limits : Limits) (data : Table Value) (log : List LogEvent) (settings : Settings) : Prop where
  select_eq : settings.selection.select = listed data "select"
  ignore_eq : settings.selection.ignore = (listed data "ignore").getD []
  library_eq : libraryOf limits data = .ok settings.standardLibrary
  severities_eq : settings.severities = Table.ofEntries (levelled limits (entriesAt data "lints"))
  options_eq : settings.options = optionsOf (entriesAt data "rules")
  log_eq : log = notes limits data

/-- All that is to be written can be written. -/
structure Expressible (limits : Limits) (recorded : Bool) (data : Table Value) : Prop where
  /-- The standard library is written as a word. -/
  library : ∀ value, Table.get? data "std" = some value → value.Writable limits
  /-- So are levels. -/
  levels : ∀ entries, Holds data "lints" entries → ∀ entry ∈ entries, entry.2.Writable limits
  /-- What stands for a list of ids and is none is shown, if records are taken. -/
  lists : recorded = true → ∀ key ∈ ["select", "ignore"], ∀ value, Table.get? data key = some value →
    (∀ ids, ¬ Lists data key ids) → value.Writable limits
  /-- So is what stands for a table and is none. -/
  tables : recorded = true → ∀ key ∈ ["rules", "lints"], ∀ value, Table.get? data key = some value →
    (∀ entries, ¬ Holds data key entries) → value.Writable limits

/-- The standard library is known if the value that names it can be written. -/
theorem exists_libraryOf : (∃ library, libraryOf limits data = .ok library) ↔
    ∀ value, Table.get? data "std" = some value → value.Writable limits := by
  unfold libraryOf
  rcases Table.get? data "std" with _ | value
  · simp [pure, Except.pure]
  · simp [Value.text_eq_ok_iff]

/-- The entries under a key are those of a table that stands there. -/
theorem forall_mem_entriesAt {p : String × Value → Prop} : (∀ entry ∈ entriesAt data key, p entry) ↔
    ∀ entries, Holds data key entries → ∀ entry ∈ entries, p entry := by
  unfold entriesAt Holds
  rcases Table.get? data key with _ | value
  · simp
  · rw [Option.bind_some]
    rcases read : entries? value with _ | entries
    · have other (entries : Table Value) : value ≠ .table entries := by
        rw [ne_eq, ← entries?_eq_some_iff, read]
        nofun
      simp [other]
    · obtain rfl := (entries?_eq_some_iff value entries).mp read
      simp

/-- **There are settings exactly if all that is to be written can be**, and then they are what the values
under the keys make. -/
theorem ofTable_eq_ok_iff {settings : Settings} :
    ofTable limits recorded data = ⟨log, .ok settings⟩ ↔
      Expressible limits recorded data ∧ Made limits data log settings := by
  unfold ofTable
  simp only [bind_eq_ok, ↓lift_bind_eq_ok, idList_eq_ok_iff, tableAt_eq_ok_iff, severitiesOf_eq_ok_iff,
    Noted.pure_eq_ok, mem_misfit?_iff strings?_eq_some_iff, mem_misfit?_iff entries?_eq_some_iff,
    and_imp]
  constructor
  · rintro ⟨_, _, _, ⟨rfl, rfl, select⟩, ⟨_, _, _, ⟨rfl, rfl, ignore⟩, ⟨_, _, _, ⟨rfl, rfl, rules⟩,
      ⟨library, named, ⟨_, _, _, ⟨rfl, rfl, lints⟩, ⟨_, _, _, ⟨rfl, rfl, levels⟩, ⟨rfl, rfl⟩, rfl⟩, rfl⟩⟩,
      rfl⟩, rfl⟩, rfl⟩
    refine ⟨⟨exists_libraryOf.mp ⟨library, named⟩, forall_mem_entriesAt.mp levels, fun shown => ?_,
      fun shown => ?_⟩, ⟨rfl, rfl, named, rfl, rfl, by simp [notes]⟩⟩
    · exact List.forall_mem_cons.mpr ⟨select shown, List.forall_mem_singleton.mpr (ignore shown)⟩
    · exact List.forall_mem_cons.mpr ⟨rules shown, List.forall_mem_singleton.mpr (lints shown)⟩
  · rintro ⟨expressible, made⟩
    obtain ⟨⟨select, ignore⟩, library, severities, options⟩ := settings
    obtain rfl : select = _ := made.select_eq
    obtain rfl : ignore = _ := made.ignore_eq
    obtain rfl : severities = _ := made.severities_eq
    obtain rfl : options = _ := made.options_eq
    obtain ⟨-, -, named, -, -, rfl⟩ := made
    have levels := forall_mem_entriesAt.mpr expressible.levels
    refine ⟨_, _, _, ⟨rfl, rfl, ?_⟩, ⟨_, _, _, ⟨rfl, rfl, ?_⟩, ⟨_, _, _, ⟨rfl, rfl, ?_⟩,
      ⟨library, named, ⟨_, _, _, ⟨rfl, rfl, ?_⟩, ⟨_, _, _, ⟨rfl, rfl, levels⟩, ⟨rfl, rfl⟩, rfl⟩, rfl⟩⟩,
      rfl⟩, rfl⟩, by simp [notes]⟩
    · exact fun shown => expressible.lists shown "select" (by simp)
    · exact fun shown => expressible.lists shown "ignore" (by simp)
    · exact fun shown => expressible.tables shown "rules" (by simp)
    · exact fun shown => expressible.tables shown "lints" (by simp)

/-- Settings that come of a table are what the values under its keys make. -/
theorem made_of_outcome {settings : Settings}
    (outcome : (ofTable limits recorded data).outcome = .ok settings) :
    Made limits data (ofTable limits recorded data).log settings := by
  have whole : ofTable limits recorded data =
      ⟨(ofTable limits recorded data).log, .ok settings⟩ := by rw [← outcome]
  exact (ofTable_eq_ok_iff.mp whole).2

/-- There are settings exactly if all that is to be written can be. -/
theorem exists_ofTable_iff : (∃ settings, (ofTable limits recorded data).outcome = .ok settings) ↔
    Expressible limits recorded data := by
  constructor
  · rintro ⟨settings, made⟩
    have whole : ofTable limits recorded data =
        ⟨(ofTable limits recorded data).log, .ok settings⟩ := by rw [← made]
    exact (ofTable_eq_ok_iff.mp whole).1
  · intro expressible
    obtain ⟨library, named⟩ := exists_libraryOf.mpr expressible.library
    have made : ofTable limits recorded data = ⟨notes limits data, .ok
        { selection := { select := listed data "select", ignore := (listed data "ignore").getD [] }
          standardLibrary := library
          severities := Table.ofEntries (levelled limits (entriesAt data "lints"))
          options := optionsOf (entriesAt data "rules") }⟩ :=
      ofTable_eq_ok_iff.mpr ⟨expressible, rfl, rfl, named, rfl, rfl, rfl⟩
    exact ⟨_, by rw [made]⟩

end LuaLint.Settings
