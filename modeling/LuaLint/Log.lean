import LuaLint.Toml.Value
import LuaLint.Tree.Fault

/-!
# The log

What the program says about its own work. A record is an event with its cause; its level and its
wording follow from that. Some events have a cause that another part of the program words, such as the
fault in a text: it stands apart as the `detail`, after a colon in the written line.

Some events show a value of the settings, which the interpreter may refuse to write; then the event has no
wording. A record is worded as soon as it comes up, if there is anything that takes it. So noting
an event can fail, and **work that is noted** (`Noted`) leaves the events that came up before it ended or
was broken off.
-/

namespace LuaLint

/-- How much a record matters. -/
inductive LogLevel
  | debug
  | info
  | warning
deriving Repr, DecidableEq

/-- The word for the level. -/
def LogLevel.word : LogLevel → String
  | debug => "DEBUG"
  | info => "INFO"
  | warning => "WARNING"

/-- Something that the program notes about its work. -/
inductive LogEvent
  /-- A rule was not run because the user switched it off. -/
  | ruleAllowed (ruleId : String)
  /-- A file was passed over because its text is no Lua. -/
  | unparsable (fault : SyntaxFault)
  /-- The files to check were gathered. -/
  | filesFound (count : Nat)
  /-- The settings were read from a file. -/
  | settingsLoaded (path : String)
  /-- A file of settings could not be read. -/
  | settingsUnreadable (path reason : String)
  /-- A setting is not a table. -/
  | notATable (key : String) (value : Toml.Value)
  /-- A setting is not a list of rule ids. -/
  | notAnIdList (key : String) (value : Toml.Value)
  /-- A rule is set to something that is no level. -/
  | unknownLevel (value : Toml.Value) (ruleId : String)
deriving Repr

namespace LogEvent

def level : LogEvent → LogLevel
  | ruleAllowed _ => .debug
  | filesFound _ => .info
  | settingsLoaded _ => .debug
  | _ => .warning

/-- The wording of the event, without its detail. -/
def headline (limits : Toml.Limits) : LogEvent → Except Toml.Refusal String
  | ruleAllowed ruleId => return s!"rule {ruleId} is allowed, skipping"
  | unparsable _ => return "skipping unparsable source"
  | filesFound count => return s!"found {count} Lua files to check"
  | settingsLoaded path => return s!"loaded configuration from {path}"
  | settingsUnreadable path _ => return s!"could not read {path}"
  | notATable key value => do
    let shown ← value.shown limits limits.calls
    return s!"ignoring {Text.quoted key}: expected a table, got {shown}"
  | notAnIdList key value => do
    let shown ← value.shown limits limits.calls
    return s!"ignoring {Text.quoted key}: expected a list of rule ids, got {shown}"
  | unknownLevel value ruleId => do
    let shown ← value.shown limits limits.calls
    return s!"ignoring unknown lint level {shown} for {ruleId}"

/-- The cause that another part of the program words. -/
def detail? : LogEvent → Option String
  | unparsable fault => some fault.message
  | settingsUnreadable _ reason => some reason
  | _ => none

/-- The event as a line, without its detail. -/
def line (limits : Toml.Limits) (e : LogEvent) : Except Toml.Refusal String := do
  return e.level.word ++ " " ++ (← e.headline limits)

/-- The event as a line. -/
def fullLine (limits : Toml.Limits) (e : LogEvent) : Except Toml.Refusal String := do
  match e.detail? with
  | some detail => return (← e.line limits) ++ ": " ++ detail
  | none => e.line limits

end LogEvent

/-! ## Work that is noted -/

/-- The events that came up in some work, and what came of it. -/
structure Noted (ε α : Type) where
  log : List LogEvent
  outcome : Except ε α

namespace Noted

variable {ε α β : Type}

instance : Monad (Noted ε) where
  pure a := ⟨[], .ok a⟩
  bind work next := match work with
    | ⟨log, .error e⟩ => ⟨log, .error e⟩
    | ⟨log, .ok a⟩ => ⟨log ++ (next a).log, (next a).outcome⟩

/-- Work in which nothing comes up. -/
instance : MonadLift (Except ε) (Noted ε) where
  monadLift outcome := ⟨[], outcome⟩

/-- Notes an event. If records are taken it is worded first, and that may be refused. -/
def note (limits : Toml.Limits) (recorded : Bool) (e : LogEvent) : Noted Toml.Refusal Unit :=
  if recorded then match e.headline limits with
    | .ok _ => ⟨[e], .ok ()⟩
    | .error refusal => ⟨[], .error refusal⟩
  else ⟨[e], .ok ()⟩

variable {log : List LogEvent} {a b : α}

/-- Work that has nothing to do ends well, without an event. -/
@[simp] theorem pure_eq_ok : (pure a : Noted ε α) = ⟨log, .ok b⟩ ↔ log = [] ∧ a = b := by
  simp [pure, eq_comm]

/-- An event is noted, if it can be worded or need not be. -/
theorem note_eq_ok {limits : Toml.Limits} {recorded : Bool} {e : LogEvent} {u : Unit} :
    note limits recorded e = ⟨log, .ok u⟩ ↔
      log = [e] ∧ (recorded = true → ∃ wording, e.headline limits = .ok wording) := by
  unfold note
  cases recorded with
  | false => simp [eq_comm]
  | true => cases e.headline limits <;> simp [eq_comm]

/-- **Work in two steps ends well if both steps do**, and the events of the second come after those of the
first. -/
theorem bind_eq_ok {work : Noted ε α} {next : α → Noted ε β} {b : β} :
    (work >>= next) = ⟨log, .ok b⟩ ↔ ∃ first a rest,
      work = ⟨first, .ok a⟩ ∧ next a = ⟨rest, .ok b⟩ ∧ log = first ++ rest := by
  obtain ⟨first, e | a⟩ := work
  · simp [bind]
  · simp only [bind, mk.injEq, Except.ok.injEq]
    constructor
    · rintro ⟨rfl, second⟩
      exact ⟨first, a, (next a).log, ⟨rfl, rfl⟩, by rw [← second], rfl⟩
    · rintro ⟨_, _, rest, ⟨rfl, rfl⟩, second, rfl⟩
      rw [second]
      exact ⟨rfl, rfl⟩

/-- Nothing comes up while the outcome is looked at. -/
theorem lift_bind_eq_ok {outcome : Except ε α} {next : α → Noted ε β} {b : β} :
    (liftM outcome >>= next) = ⟨log, .ok b⟩ ↔ ∃ a, outcome = .ok a ∧ next a = ⟨log, .ok b⟩ := by
  rcases outcome with e | a
  · simp [bind, liftM, monadLift, MonadLift.monadLift]
  · simp only [Except.ok.injEq, exists_eq_left']
    exact Iff.rfl

end Noted

end LuaLint
