import LuaLint.Proofs.Settings.Reading
import LuaLint.Proofs.Table

/-!
# What a table of settings says

Settings are made from a table of values of any form, as long as the values that are to be written can be.
Each of them is read from one key, and what stands under another key plays no part in it.

* **Lists of ids** (`listed_of_lists`, `listed_of_other`): `select` and `ignore` count if they are lists of
  texts, and then the ids in them are lower-cased. Anything else is the same as no list. An empty list of
  selected rules selects none, which is not what no list does.
* **Tables by id** (`get?_ofEntries_filterMap`): of several keys with one lower-case form the last whose
  value means something decides (`LastMeans`). A later one whose value means nothing changes nothing.
* **What is noted** (`unknownLevels_notes`): each entry that is no level once, and nothing but warnings.
* **The settings** (`resolves_of_made`) in one statement for each part, and all of it together with what
  a part depends on and which rules are active (`ofTable_decides`).
* **No settings** come of a value that cannot be written, although every form of it that can be would have
  counted or been noted (`ofTable_long_number`).
-/

namespace LuaLint.Settings

open Toml (Limits Value)

variable {limits : Limits} {recorded : Bool} {data : Table Value} {key id name : String}
  {ids : List String} {entries : Table Value} {log : List LogEvent} {settings : Settings}

/-! ## Lists of ids -/

/-- Under the key stands a list of texts, one of which has the name as its lower-case form. -/
def ListsName (data : Table Value) (key name : String) : Prop :=
  ∃ ids, Lists data key ids ∧ ∃ id ∈ ids, Text.lowercase id = name

theorem Lists.unique {others : List String} (h : Lists data key ids) (h' : Lists data key others) :
    ids = others := by
  have same : ids.map Value.string = others.map Value.string :=
    Value.array.inj (Option.some.inj (h.symm.trans h'))
  exact (List.map_inj_right fun _ _ => Value.string.inj).mp same

/-- A list of texts is lower-cased. -/
theorem listed_of_lists (h : Lists data key ids) :
    listed data key = some (ids.map Text.lowercase) := by
  rw [listed, h, Option.bind_some, (strings?_eq_some_iff _ ids).mpr rfl, Option.map_some]

/-- What is not a list of texts is no list. -/
theorem listed_of_other (other : ∀ ids, ¬ Lists data key ids) : listed data key = none := by
  rw [listed, Option.map_eq_none_iff, Option.eq_none_iff_forall_ne_some]
  intro ids read
  obtain ⟨value, stands, read⟩ := Option.bind_eq_some_iff.mp read
  exact other ids (stands.trans (congrArg some ((strings?_eq_some_iff value ids).mp read)))

/-- The names that are read from a key are those that are listed there. -/
theorem mem_listed_iff : name ∈ (listed data key).getD [] ↔ ListsName data key name := by
  by_cases lists : ∃ ids, Lists data key ids
  · obtain ⟨ids, h⟩ := lists
    rw [listed_of_lists h, Option.getD_some, List.mem_map]
    constructor
    · rintro ⟨id, hid, same⟩
      exact ⟨ids, h, id, hid, same⟩
    · rintro ⟨others, h', id, hid, same⟩
      obtain rfl := h.unique h'
      exact ⟨id, hid, same⟩
  · rw [listed_of_other (not_exists.mp lists)]
    constructor
    · intro impossible
      cases impossible
    · rintro ⟨ids, h, -⟩
      exact absurd ⟨ids, h⟩ lists

/-! ## Tables by id -/

/-- Of the entries with the id as the lower-case form of their key and a value that means something, the
last one means `x`. -/
def LastMeans {α : Type} (means : Value → α → Prop) (entries : Table Value) (id : String) (x : α) :
    Prop :=
  ∃ before key value after, entries = before ++ (key, value) :: after ∧
    Text.lowercase key = id ∧ means value x ∧
    ∀ entry ∈ after, Text.lowercase entry.1 = id → ∀ y, ¬ means entry.2 y

/-- **The last entry that means something decides.** -/
theorem get?_ofEntries_filterMap {α : Type} {read : Value → Option α} {means : Value → α → Prop}
    (reads : ∀ value x, read value = some x ↔ means value x) (x : α) :
    Table.get? (Table.ofEntries (entries.filterMap fun (key, value) =>
      (read value).map fun y => (Text.lowercase key, y))) id = some x ↔
      LastMeans means entries id x := by
  have silent (value : Value) : read value = none ↔ ∀ y, ¬ means value y := by
    simp only [← reads, Option.eq_none_iff_forall_ne_some, ne_eq]
  let gives : String × Value → Option α := fun entry =>
    if id = Text.lowercase entry.1 then read entry.2 else none
  have each (entry : String × Value) :
      ((read entry.2).map fun y => (Text.lowercase entry.1, y)).bind
        (fun p => if id == p.1 then some p.2 else none) = gives entry := by
    rcases given : read entry.2 with _ | y <;> simp [gives, given]
  rw [Table.get?_ofEntries, Table.get?, List.lookup_eq_findSome?, ← List.filterMap_reverse,
    Latest.findSome?_filterMap]
  simp only [each]
  rw [Latest.findSome?_reverse_eq_some_iff]
  constructor
  · rintro ⟨before, ⟨key, value⟩, after, cut, here, later⟩
    obtain ⟨same, given⟩ := Option.ite_none_right_eq_some.mp here
    refine ⟨before, key, value, after, cut, same.symm, (reads value x).mp given, ?_⟩
    intro entry hentry same
    have nothing := later entry hentry
    rw [show gives entry = read entry.2 from if_pos same.symm] at nothing
    exact (silent entry.2).mp nothing
  · rintro ⟨before, key, value, after, cut, same, given, later⟩
    refine ⟨before, (key, value), after, cut, ?_, ?_⟩
    · rw [show gives (key, value) = read value from if_pos same.symm]
      exact (reads value x).mpr given
    · intro entry hentry
      by_cases here : id = Text.lowercase entry.1
      · rw [show gives entry = read entry.2 from if_pos here]
        exact (silent entry.2).mpr (later entry hentry here.symm)
      · exact if_neg here

/-- The word for a severity as a level. -/
def levelWord : Severity → String
  | .allow => "allow"
  | .warning => "warn"
  | .error => "deny"

/-- The value, read as a word in lower case, is the level of the severity. -/
def IsLevel (limits : Limits) (value : Value) (severity : Severity) : Prop :=
  levelText limits value = some (levelWord severity)

/-- The value is the level of no severity. -/
def isNoLevel (limits : Limits) (value : Value) : Bool :=
  [Severity.allow, .warning, .error].all fun severity =>
    levelText limits value != some (levelWord severity)

theorem severity?_eq_some_iff (value : Value) (severity : Severity) :
    severity? limits value = some severity ↔ IsLevel limits value severity := by
  unfold severity? IsLevel
  rcases levelText limits value with _ | word
  · simp
  · rw [Option.bind_some, Option.some.injEq]
    unfold level?
    split <;> cases severity <;> simp_all [levelWord]

theorem isNoLevel_iff (value : Value) :
    isNoLevel limits value = true ↔ ∀ severity, ¬ IsLevel limits value severity := by
  rw [isNoLevel, List.all_eq_true]
  constructor
  · intro no_level severity
    exact bne_iff_ne.mp (no_level severity (by cases severity <;> simp))
  · intro no_level severity _
    exact bne_iff_ne.mpr (no_level severity)

/-- Without a severity a value is no level. -/
theorem isNone_severity? (value : Value) :
    (severity? limits value).isNone = isNoLevel limits value := by
  rw [Bool.eq_iff_iff, isNoLevel_iff]
  simp only [Option.isNone_iff_eq_none, Option.eq_none_iff_forall_ne_some, ne_eq,
    severity?_eq_some_iff]

/-- The severities are those of the last levels. -/
theorem get?_levelled (severity : Severity) :
    Table.get? (Table.ofEntries (levelled limits entries)) id = some severity ↔
      LastMeans (IsLevel limits) entries id severity :=
  get?_ofEntries_filterMap severity?_eq_some_iff severity

/-- The options are those in the last tables. -/
theorem get?_optionsOf (values : Options Value) :
    Table.get? (optionsOf entries) id = some values ↔
      LastMeans (fun value values => value = .table values) entries id values :=
  get?_ofEntries_filterMap entries?_eq_some_iff values

/-! ## Tables -/

theorem entriesAt_of_holds (h : Holds data key entries) : entriesAt data key = entries := by
  rw [entriesAt, h]
  rfl

/-- What is no table counts as an empty one. -/
theorem entriesAt_of_other (other : ∀ entries, ¬ Holds data key entries) : entriesAt data key = [] := by
  refine List.eq_nil_iff_forall_not_mem.mpr ?_
  exact forall_mem_entriesAt.mpr fun entries h => absurd h (other entries)

/-- The last entry of what counts as the table under a key is an entry of a table. -/
theorem lastMeans_entriesAt {α : Type} {means : Value → α → Prop} {x : α} :
    LastMeans means (entriesAt data key) id x ↔
      ∃ entries, Holds data key entries ∧ LastMeans means entries id x := by
  by_cases held : ∃ entries, Holds data key entries
  · obtain ⟨entries, h⟩ := held
    rw [entriesAt_of_holds h]
    constructor
    · exact fun last => ⟨entries, h, last⟩
    · rintro ⟨others, h', last⟩
      obtain rfl : entries = others := Value.table.inj (Option.some.inj (h.symm.trans h'))
      exact last
  · rw [entriesAt_of_other (not_exists.mp held)]
    constructor
    · rintro ⟨before, key, value, after, cut, -⟩
      simp at cut
    · rintro ⟨entries, h, -⟩
      exact absurd ⟨entries, h⟩ held

/-! ## What is noted -/

/-- The entry that the event calls an unknown level. -/
def unknownLevel? : LogEvent → Option (String × Value)
  | .unknownLevel value id => some (id, value)
  | _ => none

/-- Whatever is noted is a warning. -/
theorem notes_level : ∀ e ∈ notes limits data, e.level = .warning := by
  intro e he
  simp only [notes, List.mem_append, List.mem_map] at he
  rcases he with (((⟨_, -, rfl⟩ | ⟨_, -, rfl⟩) | ⟨_, -, rfl⟩) | ⟨_, -, rfl⟩) | ⟨_, -, rfl⟩
  all_goals rfl

/-- What is noted about values of a wrong form is not about levels. -/
theorem filterMap_unknownLevel? {values : List Value} {complaint : Value → LogEvent}
    (other : ∀ value, unknownLevel? (complaint value) = none) :
    (values.map complaint).filterMap unknownLevel? = [] := by
  rw [List.filterMap_map, List.filterMap_eq_nil_iff]
  exact fun value _ => other value

/-- **Every entry that is no level is noted once.** -/
theorem unknownLevels_notes (h : Holds data "lints" entries) :
    (notes limits data).filterMap unknownLevel? =
      entries.filter fun entry => isNoLevel limits entry.2 := by
  have levels : ((unlevelled limits entries).map unlevelledEvent).filterMap unknownLevel? =
      unlevelled limits entries := by
    rw [List.filterMap_map]
    exact List.filterMap_some
  have lists (key : String) (values : List Value) :
      (values.map (.notAnIdList key)).filterMap unknownLevel? = [] :=
    filterMap_unknownLevel? fun _ => rfl
  have tables (key : String) (values : List Value) :
      (values.map (.notATable key)).filterMap unknownLevel? = [] :=
    filterMap_unknownLevel? fun _ => rfl
  simp only [notes, List.filterMap_append, entriesAt_of_holds h, levels, lists, tables, List.nil_append]
  exact List.filter_congr fun (entry : String × Value) _ => isNone_severity? entry.2

/-! ## The settings -/

/-- What the settings that are made of a table are, and what is noted about it. -/
structure Resolves (limits : Limits) (data : Table Value) (log : List LogEvent) (settings : Settings) :
    Prop where
  /-- A list of texts selects the names in it, in lower case; an empty one selects none. -/
  select_of_lists : ∀ ids, Lists data "select" ids → ∃ chosen,
    settings.selection.select = some chosen ∧
      ∀ name, name ∈ chosen ↔ ∃ id ∈ ids, Text.lowercase id = name
  /-- Without a list of texts there is no selection. -/
  select_of_other : (∀ ids, ¬ Lists data "select" ids) → settings.selection.select = none
  mem_ignore : ∀ name, name ∈ settings.selection.ignore ↔ ListsName data "ignore" name
  /-- Any value names a standard library. -/
  library : ∀ value, Table.get? data "std" = some value →
    value.text limits = .ok settings.standardLibrary
  library_of_none : Table.get? data "std" = none → settings.standardLibrary = "lua51"
  severities : ∀ id severity, Table.get? settings.severities id = some severity ↔
    ∃ levels, Holds data "lints" levels ∧ LastMeans (IsLevel limits) levels id severity
  options : ∀ id values, Table.get? settings.options id = some values ↔
    ∃ rules, Holds data "rules" rules ∧
      LastMeans (fun value values => value = .table values) rules id values
  warnings : ∀ e ∈ log, e.level = .warning
  /-- Every entry that is no level is noted once, and no other entry is. -/
  noted : ∀ levels, Holds data "lints" levels →
    log.filterMap unknownLevel? = levels.filter fun entry => isNoLevel limits entry.2

/-- **The settings and the log are what the table says.** -/
theorem resolves_of_made (made : Made limits data log settings) : Resolves limits data log settings where
  select_of_lists ids h := by
    refine ⟨ids.map Text.lowercase, ?_, fun name => List.mem_map⟩
    rw [made.select_eq, listed_of_lists h]
  select_of_other other := by rw [made.select_eq, listed_of_other other]
  mem_ignore name := by rw [made.ignore_eq, mem_listed_iff]
  library value stands := by
    have named := made.library_eq
    rwa [libraryOf, stands] at named
  library_of_none absent := by
    have named := made.library_eq
    rw [libraryOf, absent] at named
    exact (Except.ok.inj named).symm
  severities id severity := by
    rw [made.severities_eq, get?_levelled, lastMeans_entriesAt]
  options id values := by
    rw [made.options_eq, get?_optionsOf, lastMeans_entriesAt]
  warnings := made.log_eq ▸ notes_level
  noted levels h := by rw [made.log_eq, unknownLevels_notes h]

/-- **A rule is active** if it is selected, or nothing is, and it is not ignored. -/
theorem active_iff (resolved : Resolves limits data log settings) (name : String) :
    settings.selection.active name = true ↔
      ((∀ ids, ¬ Lists data "select" ids) ∨ ListsName data "select" name) ∧
        ¬ ListsName data "ignore" name := by
  have selected : (settings.selection.select.all (·.contains name)) = true ↔
      (∀ ids, ¬ Lists data "select" ids) ∨ ListsName data "select" name := by
    by_cases lists : ∃ ids, Lists data "select" ids
    · obtain ⟨ids, h⟩ := lists
      obtain ⟨chosen, whole, members⟩ := resolved.select_of_lists ids h
      rw [whole, Option.all_some, List.contains_iff_mem, members]
      constructor
      · exact fun named => Or.inr ⟨ids, h, named⟩
      · rintro (none_listed | ⟨others, h', named⟩)
        · exact absurd h (none_listed ids)
        · obtain rfl := h.unique h'
          exact named
    · rw [resolved.select_of_other (not_exists.mp lists)]
      simp only [Option.all_none, true_iff]
      exact Or.inl (not_exists.mp lists)
  rw [Selection.active, Bool.and_eq_true, selected, Bool.not_eq_true', ← Bool.not_eq_true,
    List.contains_iff_mem, resolved.mem_ignore]

/-- **Each setting is made from its own key**: where two tables agree on a key, so do the settings that are
made of it. -/
theorem Made.apart {other : Table Value} {log' : List LogEvent} {settings' : Settings}
    (made : Made limits data log settings) (made' : Made limits other log' settings') :
    (Table.get? other "select" = Table.get? data "select" →
      settings'.selection.select = settings.selection.select) ∧
    (Table.get? other "ignore" = Table.get? data "ignore" →
      settings'.selection.ignore = settings.selection.ignore) ∧
    (Table.get? other "std" = Table.get? data "std" →
      settings'.standardLibrary = settings.standardLibrary) ∧
    (Table.get? other "lints" = Table.get? data "lints" →
      settings'.severities = settings.severities) ∧
    (Table.get? other "rules" = Table.get? data "rules" → settings'.options = settings.options) := by
  refine ⟨fun same => ?_, fun same => ?_, fun same => ?_, fun same => ?_, fun same => ?_⟩
  · rw [made.select_eq, made'.select_eq, listed, listed, same]
  · rw [made.ignore_eq, made'.ignore_eq, listed, listed, same]
  · have named := made'.library_eq
    rw [libraryOf, same] at named
    exact Except.ok.inj (named.symm.trans made.library_eq)
  · rw [made.severities_eq, made'.severities_eq, entriesAt, entriesAt, same]
  · rw [made.options_eq, made'.options_eq, entriesAt, entriesAt, same]

/-- **What a table of settings comes to.** There are settings exactly if all that is to be written can be.
They are what the table says, each is made from its own key alone, and of the rules of a registry those are
active, in its order, which are selected, if a list selects any, and not ignored. -/
theorem ofTable_decides (limits : Limits) (recorded : Bool) (data : Table Value) :
    ((∃ settings, (ofTable limits recorded data).outcome = .ok settings) ↔
      Expressible limits recorded data) ∧
    ∀ settings, (ofTable limits recorded data).outcome = .ok settings →
      Resolves limits data (ofTable limits recorded data).log settings ∧
      (∀ (other : Table Value) (settings' : Settings),
        (ofTable limits recorded other).outcome = .ok settings' →
        (Table.get? other "select" = Table.get? data "select" →
          settings'.selection.select = settings.selection.select) ∧
        (Table.get? other "ignore" = Table.get? data "ignore" →
          settings'.selection.ignore = settings.selection.ignore) ∧
        (Table.get? other "std" = Table.get? data "std" →
          settings'.standardLibrary = settings.standardLibrary) ∧
        (Table.get? other "lints" = Table.get? data "lints" →
          settings'.severities = settings.severities) ∧
        (Table.get? other "rules" = Table.get? data "rules" →
          settings'.options = settings.options)) ∧
      ∀ (α : Type) (registry : Registry α), let chosen := registry.choose settings.selection
        chosen.Sublist registry ∧
          ∀ name blueprint, (name, blueprint) ∈ chosen ↔ (name, blueprint) ∈ registry ∧
            ((∀ ids, ¬ Lists data "select" ids) ∨ ListsName data "select" name) ∧
              ¬ ListsName data "ignore" name := by
  refine ⟨exists_ofTable_iff, fun settings outcome => ?_⟩
  have made := made_of_outcome outcome
  have resolved := resolves_of_made made
  refine ⟨resolved, fun other settings' outcome' => made.apart (made_of_outcome outcome'),
    fun α registry => ⟨List.filter_sublist, fun name blueprint => ?_⟩⟩
  rw [Registry.choose, List.mem_filter, active_iff resolved]

/-- In a table where `R` and `r` are both set, the later value counts if it is a level, and here it is the
earlier one that is. An empty list selects no rule, and what is no list ignores none. -/
theorem ofTable_decides_collision :
    let levels := [("R", Value.string "DENY"), ("q", .boolean true), ("r", .integer 3)]
    let data : Table Value := [("select", .array []), ("ignore", .string "r"), ("lints", .table levels)]
    Holds data "lints" levels ∧ Lists data "select" [] ∧ (∀ ids, ¬ Lists data "ignore" ids) ∧
      ∃ settings, (ofTable {} true data).outcome = .ok settings ∧
        Table.get? settings.severities "r" = some .error ∧
        (ofTable {} true data).log.filterMap unknownLevel? = [("q", .boolean true), ("r", .integer 3)] ∧
        (Registry.standard (α := Value)).choose settings.selection = [] ∧
        ∀ settings', (ofTable {} true (("std", .string "lua54") :: data)).outcome = .ok settings' →
          settings'.severities = settings.severities := by
  intro levels data
  have held : Holds data "lints" levels := rfl
  have listed : Lists data "select" [] := rfl
  have unlisted : ∀ ids, ¬ Lists data "ignore" ids := by
    intro ids h
    cases h
  have expressible : Expressible {} true data := by
    have short : Limits.Admits {} 3 := Limits.admits_of_lt_ten (by decide) (by rintro _ ⟨⟩; decide)
    refine ⟨nofun, ?_, ?_, ?_⟩
    · rintro _ ⟨⟩ entry listed
      simp only [levels, List.mem_cons, List.not_mem_nil, or_false] at listed
      rcases listed with rfl | rfl | rfl
      · exact ⟨nofun, Nat.zero_le _⟩
      · exact ⟨nofun, Nat.zero_le _⟩
      · exact ⟨List.forall_mem_singleton.mpr short, Nat.zero_le _⟩
    · intro _ key listing value stands other
      simp only [List.mem_cons, List.not_mem_nil, or_false] at listing
      rcases listing with rfl | rfl
      · exact absurd listed (other [])
      · cases stands
        exact ⟨nofun, Nat.zero_le _⟩
    · intro _ key holding value stands other
      simp only [List.mem_cons, List.not_mem_nil, or_false] at holding
      rcases holding with rfl | rfl
      · cases stands
      · exact absurd held (other levels)
  obtain ⟨possible, decided⟩ := ofTable_decides {} true data
  obtain ⟨settings, outcome⟩ := possible.mpr expressible
  obtain ⟨resolved, apart, chosen⟩ := decided settings outcome
  have deny : isNoLevel {} (.string "DENY") = false := by decide +kernel
  have yes : isNoLevel {} (.boolean true) = true := by decide +kernel
  have three : isNoLevel {} (.integer 3) = true := by decide +kernel
  refine ⟨held, listed, unlisted, settings, outcome, ?_, ?_, ?_, ?_⟩
  · refine (resolved.severities "r" .error).mpr ⟨levels, held, [], "R", .string "DENY", _, rfl, ?_, ?_, ?_⟩
    · decide +kernel
    · change some (Text.lowercase "DENY") = some "deny"
      decide +kernel
    · intro entry later _ severity
      have no_level : isNoLevel {} entry.2 = true := by
        rcases List.mem_cons.mp later with rfl | later
        · exact yes
        · rw [List.mem_singleton.mp later]
          exact three
      exact (isNoLevel_iff entry.2).mp no_level severity
  · rw [resolved.noted levels held]
    simp [levels, deny, yes, three]
  · refine List.eq_nil_iff_forall_not_mem.mpr fun ⟨name, blueprint⟩ member => ?_
    obtain ⟨-, none_listed | ⟨ids, h, id, hid, -⟩, -⟩ :=
      ((chosen _ _).2 name blueprint).mp member
    · exact none_listed [] listed
    · obtain rfl := h.unique listed
      cases hid
  · intro settings' outcome'
    exact (apart _ settings' outcome').2.2.2.1 rfl

/-! ### A number that cannot be written -/

/-- **A long number leaves no settings.** The number is no level, and so it might be noted and set nothing, as
a level of any other form is. But to be compared with the levels it has to be written, and it has more digits
than the interpreter writes. So the list that selects a rule does not count either, which it does if the
table has nothing else. -/
theorem ofTable_long_number :
    let number : Int := ((Nat.pow 16 4000 - 1 : Nat) : Int)
    let levels := [("shadowing", Value.integer number)]
    let selects : String × Value := ("select", .array [.string "A"])
    let data : Table Value := [selects, ("lints", .table levels)]
    Holds data "lints" levels ∧ Lists data "select" ["A"] ∧
      (ofTable {} false data).outcome = .error (.longNumber 4300) ∧
      ∃ settings, (ofTable {} false [selects]).outcome = .ok settings := by
  intro number levels selects data
  have long : ¬ Limits.Admits {} number := by
    intro admitted
    have short := admitted 4300 rfl
    rw [Int.natAbs_natCast] at short
    exact absurd short (by decide +kernel)
  have refused : ({} : Limits).decimal number = .error (.longNumber 4300) :=
    Limits.decimal_of_long rfl long
  have select : idList {} false data "select" = ⟨[], .ok (some [Text.lowercase "A"])⟩ := rfl
  have ignore : idList {} false data "ignore" = ⟨[], .ok none⟩ := rfl
  have rules : tableAt {} false data "rules" = ⟨[], .ok []⟩ := rfl
  have library : libraryOf {} data = .ok "lua51" := rfl
  have lints : tableAt {} false data "lints" = ⟨[], .ok levels⟩ := rfl
  have stops : severitiesOf {} false levels = ⟨[], .error (.longNumber 4300)⟩ := by
    unfold severitiesOf
    rw [show (Value.integer number).text {} = .error (.longNumber 4300) from refused]
    rfl
  refine ⟨rfl, rfl, ?_, _, rfl⟩
  unfold ofTable
  rw [select, ignore, rules, library]
  simp only [bind, lints, stops]
  rfl

end LuaLint.Settings
