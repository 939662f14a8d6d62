import LuaLint.Toml.Draft

/-!
# Numbers, dates and times

The values that are written without quotes or brackets. Each reader looks at the front of the text and
takes the longest form that it knows there: a day is followed by a time only if the time is complete,
a number has a fraction or an exponent only if a digit follows the mark. Whatever is left over is for
the rest of the line to answer for.

Digits may be grouped by single underscores between them. Dates and times come before numbers, because
they begin with digits too.
-/

namespace LuaLint.Toml

/-- Decimal digits only. -/
def isDigit (c : Char) : Bool := '0' ≤ c && c ≤ '9'

/-- Hexadecimal digits in either case. -/
def isHexDigit (c : Char) : Bool :=
  isDigit c || ('a' ≤ c && c ≤ 'f') || ('A' ≤ c && c ≤ 'F')

/-- The number that digits write in a base up to sixteen. -/
def ofDigits (base : Nat) (digits : List Char) : Nat :=
  let digit (c : Char) : Nat := if isDigit c then c.toNat - 48 else c.toLower.toNat - 87
  digits.foldl (fun n c => n * base + digit c) 0

/-- Takes a given character. -/
def charIn (chars : String) : List Char → Option (Char × List Char)
  | c :: rest => if chars.toList.contains c then some (c, rest) else none
  | [] => none

/-! ## Dates and times -/

/-- A number with exactly so many digits, in the given range. -/
def fixed (width least greatest : Nat) (text : List Char) : Option (Nat × List Char) :=
  let digits := text.take width
  let n := ofDigits 10 digits
  if digits.length = width && digits.all isDigit && least ≤ n && n ≤ greatest then
    some (n, text.drop width)
  else none

/-- A day, which need not exist. -/
def dateForm (text : List Char) : Option (Date × List Char) := do
  let (year, rest) ← fixed 4 0 9999 text
  let (_, rest) ← charIn "-" rest
  let (month, rest) ← fixed 2 1 12 rest
  let (_, rest) ← charIn "-" rest
  let (day, rest) ← fixed 2 1 31 rest
  return (⟨year, month, day⟩, rest)

/-- A fraction of a second in microseconds. Digits beyond the sixth are passed over. -/
def fractionForm (text : List Char) : Nat × List Char :=
  match text with
  | '.' :: rest =>
    let digits := rest.takeWhile isDigit
    let fine := digits.take 6
    if digits.isEmpty then (0, text)
    else (ofDigits 10 fine * Nat.pow 10 (6 - fine.length), rest.drop digits.length)
  | _ => (0, text)

/-- A time of day, seconds included. -/
def timeForm (text : List Char) : Option (Time × List Char) := do
  let (hour, rest) ← fixed 2 0 23 text
  let (_, rest) ← charIn ":" rest
  let (minute, rest) ← fixed 2 0 59 rest
  let (_, rest) ← charIn ":" rest
  let (second, rest) ← fixed 2 0 59 rest
  let (microsecond, rest) := fractionForm rest
  return (⟨hour, minute, second, microsecond⟩, rest)

/-- A distance from universal time in minutes. -/
def distanceForm (text : List Char) : Option (Int × List Char) :=
  (do let (_, rest) ← charIn "Zz" text
      return (0, rest))
  <|> (do
      let (sign, rest) ← charIn "+-" text
      let (hours, rest) ← fixed 2 0 23 rest
      let (_, rest) ← charIn ":" rest
      let (minutes, rest) ← fixed 2 0 59 rest
      let distance : Int := hours * 60 + minutes
      return (if sign = '-' then -distance else distance, rest))

/-- How many days a month has. -/
def daysIn (year month : Nat) : Nat :=
  if month = 2 then
    if year % 4 = 0 && (year % 100 != 0 || year % 400 = 0) then 29 else 28
  else if [4, 6, 9, 11].contains month then 30
  else 31

/-- The day exists. Years are counted from one. -/
def Date.exists (d : Date) : Bool := 1 ≤ d.year && d.day ≤ daysIn d.year d.month

/-- A day, perhaps with a time and its distance from universal time. -/
def dateTimeForm (text : List Char) : Option (Value × List Char) := do
  let (day, rest) ← dateForm text
  let withTime : Option (Value × List Char) := do
    let (_, rest) ← charIn "Tt " rest
    let (clock, rest) ← timeForm rest
    match distanceForm rest with
    | some (distance, rest) => return (.dateTime day clock (some distance), rest)
    | none => return (.dateTime day clock none, rest)
  return withTime.getD (.date day, rest)

/-! ## Numbers -/

/-- Digits with single underscores between them; the underscores are dropped. -/
def groupedDigits (digit : Char → Bool) : List Char → List Char × List Char
  | [] => ([], [])
  | '_' :: c :: rest =>
    if digit c then
      let (more, rest) := groupedDigits digit rest
      (c :: more, rest)
    else ([], '_' :: c :: rest)
  | c :: rest =>
    if digit c then
      let (more, rest) := groupedDigits digit rest
      (c :: more, rest)
    else ([], c :: rest)

/-- Digits that begin with one. -/
def digitRun (digit : Char → Bool) : List Char → Option (List Char × List Char)
  | c :: rest =>
    if digit c then
      let (more, rest) := groupedDigits digit rest
      some (c :: more, rest)
    else none
  | [] => none

/-- A whole number in a base that its second character names. -/
def basedForm : List Char → Option (Int × List Char)
  | '0' :: 'x' :: rest => inBase 16 isHexDigit rest
  | '0' :: 'o' :: rest => inBase 8 (fun c => '0' ≤ c && c ≤ '7') rest
  | '0' :: 'b' :: rest => inBase 2 (fun c => c == '0' || c == '1') rest
  | _ => none
where
  inBase (base : Nat) (digit : Char → Bool) (text : List Char) : Option (Int × List Char) := do
    let (digits, rest) ← digitRun digit text
    return ((ofDigits base digits : Nat), rest)

/-- A sign, if there is one. -/
def signForm : List Char → Bool × List Char
  | '-' :: rest => (true, rest)
  | '+' :: rest => (false, rest)
  | text => (false, text)

/-- The whole part of a decimal number: a zero, or digits that begin with another one. -/
def wholeForm : List Char → Option (List Char × List Char)
  | '0' :: rest => some (['0'], rest)
  | text => digitRun isDigit text

/-- The fraction of a number, if there is one. -/
def fractionPart (text : List Char) : Option (List Char × List Char) := do
  let (_, rest) ← charIn "." text
  digitRun isDigit rest

/-- The exponent of a number, if there is one. -/
def exponentPart (text : List Char) : Option (Int × List Char) := do
  let (_, rest) ← charIn "eE" text
  let (negative, rest) := signForm rest
  let (digits, rest) ← digitRun isDigit rest
  let n : Int := ofDigits 10 digits
  return (if negative then -n else n, rest)

/-- The whole number that decimal digits write. -/
def Limits.wholeNumber (limits : Limits) (digits : List Char) : Except Refusal Nat :=
  match limits.digits with
  | some most =>
    if digits.length ≤ most then .ok (ofDigits 10 digits)
    else .error (.longNumeral most digits.length)
  | none => .ok (ofDigits 10 digits)

/-- A decimal number. It is whole unless it has a fraction or an exponent, and then it may be too long. -/
def decimalForm (limits : Limits) (text : List Char) : Option (Except Refusal Value × List Char) := do
  let (negative, rest) := signForm text
  let (whole, rest) ← wholeForm rest
  let fraction := fractionPart rest
  let (fractionDigits, rest) := fraction.getD ([], rest)
  let exponent := exponentPart rest
  let (power, rest) := exponent.getD (0, rest)
  if fraction.isNone && exponent.isNone then
    let value := (limits.wholeNumber whole).map fun n =>
      Value.integer (if negative then -(n : Int) else n)
    return (value, rest)
  else
    let digits := ofDigits 10 (whole ++ fractionDigits)
    return (.ok (.float (.ofDecimal negative digits (power - fractionDigits.length))), rest)

/-- A number that is infinite, or none. -/
def specialForm (text : List Char) : Option (Value × List Char) :=
  let (negative, rest) := signForm text
  match rest with
  | 'i' :: 'n' :: 'f' :: rest => some (.float (.infinite negative), rest)
  | 'n' :: 'a' :: 'n' :: rest => some (.float .notANumber, rest)
  | _ => none

/-! ## Any of them -/

/-- The value at the front of the text and what follows it. -/
def scalar (limits : Limits) (text : List Char) : Except Stop (Value × List Char) :=
  match dateTimeForm text with
  | some (v, rest) =>
    let day? := match v with
      | .date d => some d
      | .dateTime d _ _ => some d
      | _ => none
    if day?.all (·.exists) then .ok (v, rest) else .error (.flaw .calendar)
  | none =>
    let found :=
      ((timeForm text).map fun (t, rest) => (.ok (Value.time t), rest))
      <|> ((basedForm text).map fun (n, rest) => (.ok (Value.integer n), rest))
      <|> decimalForm limits text
      <|> ((specialForm text).map fun (v, rest) => (.ok v, rest))
    match found with
    | some (.ok v, rest) => .ok (v, rest)
    | some (.error refusal, _) => .error (.refusal refusal)
    | none => .error (.flaw .value)

end LuaLint.Toml
