import LuaLint.Decimal.Style
import LuaLint.Text.Quoted

/-!
# Values of a TOML document

The data that a TOML document holds. Tables keep the order of the document, whole numbers have no
bounds, and times may or may not know a calendar day and a distance from universal time.

A value has two written forms. `Value.shown` is the one in messages: it tells texts from numbers and
names the type of dates and times. `Value.text` is the one that is read as a plain word: a text
stands for itself and dates have the form of ISO 8601. They agree on everything else.

**Not every value can be written, and not every numeral can be read.** The interpreter that the program
runs in sets `Limits` to the digits of a whole number that is turned into a decimal or made of one, and to
the calls that are under way within one another, of which nested values need more. What goes beyond
a limit is refused with an error (`Refusal`). Numbers in a base that is a power of two can be read at any
length, so there are documents that can be read and hold a number that cannot be written.
-/

namespace LuaLint.Toml

/-- A day of the calendar. -/
structure Date where
  year : Nat
  month : Nat
  day : Nat
deriving Repr, DecidableEq

/-- A time of day. -/
structure Time where
  hour : Nat
  minute : Nat
  second : Nat
  microsecond : Nat
deriving Repr, DecidableEq

/-- A value. -/
inductive Value
  | string (text : String)
  | integer (n : Int)
  | float (x : Decimal.Binary64)
  | boolean (b : Bool)
  | date (day : Date)
  | time (clock : Time)
  /-- A day and a time. The distance from universal time is in minutes. -/
  | dateTime (day : Date) (clock : Time) (distance : Option Int)
  | array (items : List Value)
  | table (entries : List (String × Value))
deriving Repr, Inhabited

/-! ## Limits -/

/-- What the interpreter allows where values are read and written. -/
structure Limits where
  /-- The most digits of a whole number in decimal, if there is such a limit. -/
  digits : Option Nat := some 4300
  /-- The most calls that may be under way within one another. -/
  calls : Nat := 970
deriving Repr, DecidableEq

/-- Why the interpreter refuses to read or to write a value. -/
inductive Refusal
  /-- A decimal with so many digits is to be read, and the limit is less. -/
  | longNumeral (limit digits : Nat)
  /-- A whole number with more digits than the limit is to be written. -/
  | longNumber (limit : Nat)
  /-- Values are nested so deep that there are too many calls. -/
  | nesting
deriving Repr, DecidableEq

/-- What to do about a number that is too long. -/
def raiseLimit : String := "; use sys.set_int_max_str_digits() to increase the limit"

/-- The wording of the refusal. -/
def Refusal.message : Refusal → String
  | longNumeral limit digits => s!"Exceeds the limit ({limit} digits) for integer string conversion: "
      ++ s!"value has {digits} digits" ++ raiseLimit
  | longNumber limit => s!"Exceeds the limit ({limit} digits) for integer string conversion"
      ++ raiseLimit
  | nesting => "maximum recursion depth exceeded"

/-- A whole number in decimal. -/
def Limits.decimal (limits : Limits) (n : Int) : Except Refusal String :=
  match limits.digits with
  | some most => if n.natAbs < Nat.pow 10 most then .ok (toString n) else .error (.longNumber most)
  | none => .ok (toString n)

/-! ## Dates and times -/

/-- A number with at least so many digits. -/
def digits (width n : Nat) : String := String.ofList (Decimal.paddedDigits width n)

/-- Words with commas between them. -/
def listed (items : List String) : String := String.intercalate ", " items

/-- A day as in ISO 8601. -/
def Date.text (d : Date) : String :=
  digits 4 d.year ++ "-" ++ digits 2 d.month ++ "-" ++ digits 2 d.day

/-- A time as in ISO 8601, with a fraction only if there is one. -/
def Time.text (t : Time) : String :=
  digits 2 t.hour ++ ":" ++ digits 2 t.minute ++ ":" ++ digits 2 t.second
    ++ if t.microsecond = 0 then "" else "." ++ digits 6 t.microsecond

/-- A distance from universal time as in ISO 8601. -/
def distanceText (minutes : Int) : String :=
  (if minutes < 0 then "-" else "+") ++ digits 2 (minutes.natAbs / 60) ++ ":"
    ++ digits 2 (minutes.natAbs % 60)

/-- The parts of a day as messages show them. -/
def Date.parts (d : Date) : List String := [toString d.year, toString d.month, toString d.day]

/-- The parts of a time as messages show them: seconds and microseconds are left out from the end as
long as they are zero. -/
def Time.parts (t : Time) : List String :=
  let fine :=
    if t.microsecond ≠ 0 then [toString t.second, toString t.microsecond]
    else if t.second ≠ 0 then [toString t.second]
    else []
  toString t.hour :: toString t.minute :: fine

/-- A distance from universal time as messages show it, in whole days and seconds. -/
def distanceShown (minutes : Int) : String :=
  if minutes = 0 then "datetime.timezone.utc"
  else
    let days := minutes.fdiv 1440
    let seconds := (minutes.fmod 1440) * 60
    let parts := (if days = 0 then [] else [s!"days={days}"])
      ++ (if seconds = 0 then [] else [s!"seconds={seconds}"])
    "datetime.timezone(datetime.timedelta(" ++ listed parts ++ "))"

/-! ## Written forms -/

namespace Value

mutual

/-- A value as messages show it, with so many calls left. -/
def shown (limits : Limits) : Nat → Value → Except Refusal String
  | _, string text => return Text.quoted text
  | _, integer n => limits.decimal n
  | _, float x => return Decimal.Style.plain.write x
  | _, boolean true => return "True"
  | _, boolean false => return "False"
  | _, date day => return "datetime.date(" ++ listed day.parts ++ ")"
  | _, time clock => return "datetime.time(" ++ listed clock.parts ++ ")"
  | _, dateTime day clock distance =>
    let zone := match distance with
      | some minutes => ["tzinfo=" ++ distanceShown minutes]
      | none => []
    return "datetime.datetime(" ++ listed (day.parts ++ clock.parts ++ zone) ++ ")"
  | 0, array _ => throw .nesting
  | calls + 1, array items => do return "[" ++ listed (← shownItems limits calls items) ++ "]"
  | 0, table _ => throw .nesting
  | calls + 1, table entries => do
    return "\x7b" ++ listed (← shownEntries limits calls entries) ++ "\x7d"

/-- The items of an array as messages show them. -/
def shownItems (limits : Limits) (calls : Nat) : List Value → Except Refusal (List String)
  | [] => return []
  | v :: rest => do return (← v.shown limits calls) :: (← shownItems limits calls rest)

/-- The entries of a table as messages show them. -/
def shownEntries (limits : Limits) (calls : Nat) :
    List (String × Value) → Except Refusal (List String)
  | [] => return []
  | (key, v) :: rest => do
    let first ← v.shown limits calls
    return (Text.quoted key ++ ": " ++ first) :: (← shownEntries limits calls rest)

end

/-- A value read as a plain word. -/
def text (limits : Limits) : Value → Except Refusal String
  | string text => return text
  | date day => return day.text
  | time clock => return clock.text
  | dateTime day clock distance =>
    return day.text ++ " " ++ clock.text ++ ((distance.map distanceText).getD "")
  | other => other.shown limits limits.calls

end Value

end LuaLint.Toml
