import LuaLint.Diagnostic.Basic

/-!
# Making diagnostics step by step

A workbench holds the spans, labels and diagnostics that were made so far, numbered from zero. An
action makes one more from those at hand, changes one field in a copy of one, compares two, or asks
for a primary label. **Nothing on the bench ever changes**: assigning to a field is refused, and a
change makes a new item under a new number. An action that would make something malformed is refused
too, and then its number stays empty.
-/

namespace LuaLint

/-- Something on the workbench. -/
inductive Item
  | span (s : Span)
  | label (l : Label)
  | diagnostic (d : Diagnostic)
deriving Repr, DecidableEq

/-- A new value for one field. Other items are meant by their numbers. -/
inductive Change
  | start (offset : Int)
  | stop (offset : Int)
  | span (number : Nat)
  | message (text : Option String)
  | ruleId (text : String)
  | severity (word : String)
  | labels (numbers : List Nat)
deriving Repr, DecidableEq

/-- What can be done on a workbench. -/
inductive Action
  | makeSpan (start stop : Int)
  | makeLabel (span : Nat) (message : Option String)
  | makeDiagnostic (ruleId message severity : String) (labels : List Nat)
  /-- A copy of an item with one field changed. -/
  | change (number : Nat) (edit : Change)
  | compare (first second : Nat)
  | primary (number : Nat)
  /-- An attempt to set a field of an item in place. -/
  | assign (number : Nat) (field : String)
deriving Repr, DecidableEq

/-- Why an action is refused. -/
inductive Refusal
  | malformed (flaw : Malformed)
  /-- Fields cannot be set in place. -/
  | readOnly (field : String)
  /-- There is no item of the needed kind under the number, or it has no such field. -/
  | unfit (number : Nat)
deriving Repr, DecidableEq

/-- The wording of a refusal. -/
def Refusal.message : Refusal → String
  | malformed flaw => flaw.message
  | readOnly field => s!"cannot assign to field {Text.quoted field}"
  | unfit number => s!"item {number} does not fit"

/-- What an action that is not refused answers. -/
inductive Reply
  | item (i : Item)
  | truth (b : Bool)
deriving Repr, DecidableEq

/-- Items by number. A number is empty if the action that it belongs to was refused. -/
abbrev Workbench := List (Option Item)

namespace Workbench

/-- The item under a number. -/
def item (b : Workbench) (number : Nat) : Except Refusal Item :=
  match b[number]? with
  | some (some i) => .ok i
  | _ => .error (.unfit number)

/-- The span under a number. -/
def span (b : Workbench) (number : Nat) : Except Refusal Span := do
  match ← b.item number with
  | .span s => return s
  | _ => throw (.unfit number)

/-- The label under a number. -/
def label (b : Workbench) (number : Nat) : Except Refusal Label := do
  match ← b.item number with
  | .label l => return l
  | _ => throw (.unfit number)

/-- A part of a diagnostic that may be malformed, as the result of an action. -/
def whole {α : Type} : Except Malformed α → Except Refusal α
  | .ok a => .ok a
  | .error flaw => .error (.malformed flaw)

/-- A copy of a diagnostic with other labels. -/
def relabelled (d : Diagnostic) (labels : List Label) : Except Refusal Item := do
  return .diagnostic (← whole (Diagnostic.ofLabels d.ruleId d.message d.severity labels))

/-- A copy of an item with one field changed. `number` is the item's own. -/
def changed (b : Workbench) (number : Nat) : Item → Change → Except Refusal Item
  | .span s, .start offset => do return .span (← whole (Span.ofOffsets offset s.stop))
  | .span s, .stop offset => do return .span (← whole (Span.ofOffsets s.start offset))
  | .label l, .span n => do return .label { l with span := ← b.span n }
  | .label l, .message text => .ok (.label { l with message := text })
  | .diagnostic d, .message (some text) => .ok (.diagnostic { d with message := text })
  | .diagnostic d, .ruleId text => .ok (.diagnostic { d with ruleId := text })
  | .diagnostic d, .severity word => do
    return .diagnostic { d with severity := ← whole (Severity.ofWord word) }
  | .diagnostic d, .labels numbers => do relabelled d (← numbers.mapM b.label)
  | _, _ => .error (.unfit number)

/-- The item that an action makes; `none` for an action that makes nothing. -/
def made? (b : Workbench) : Action → Option (Except Refusal Item)
  | .makeSpan start stop => some do return .span (← whole (Span.ofOffsets start stop))
  | .makeLabel n message => some do return .label ⟨← b.span n, message⟩
  | .makeDiagnostic ruleId message severity labels => some do
    let severity ← whole (Severity.ofWord severity)
    let labels ← labels.mapM b.label
    return .diagnostic (← whole (Diagnostic.ofLabels ruleId message severity labels))
  | .change number edit => some do b.changed number (← b.item number) edit
  | _ => none

/-- What an action that makes nothing answers. -/
def told (b : Workbench) : Action → Except Refusal Reply
  | .compare first second => do return .truth (decide ((← b.item first) = (← b.item second)))
  | .primary number => do
    match ← b.item number with
    | .diagnostic d => return .item (.label d.primary)
    | _ => throw (.unfit number)
  | .assign _ field => .error (.readOnly field)
  | _ => .error (.unfit b.length)

/-- The bench after an action, and what the action answers. -/
def act (b : Workbench) (a : Action) : Workbench × Except Refusal Reply :=
  match b.made? a with
  | some (.ok i) => (b ++ [some i], .ok (.item i))
  | some (.error refusal) => (b ++ [none], .error refusal)
  | none => (b, b.told a)

/-- The bench after several actions, and what each of them answers. -/
def run (b : Workbench) : List Action → Workbench × List (Except Refusal Reply)
  | [] => (b, [])
  | a :: rest =>
    let (next, reply) := b.act a
    let (last, replies) := run next rest
    (last, reply :: replies)

end Workbench

end LuaLint
