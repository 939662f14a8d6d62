import LuaLint.Text.Utf8

/-!
# Lexemes: how many bytes a word of Lua takes

The functions here look at the front of a text and say how long the lexeme there is, by the rule of
the longest match. They know nothing of offsets, nodes or of what may follow what; `0` always means
that there is no such lexeme.

A name is written with any character above the space which Lua does not use as punctuation, so
letters of every script count, as do `!`, `@`, `$`, `?` and the no-break space. A numeral may carry a
fraction, an exponent and one of the endings of the dialects (`LL`, `ULL`, `i`). **A numeral ends
where its longest form ends**, also when a name follows at once: `0do` is a numeral and a word.
-/

namespace LuaLint.Lua

/-- The byte that encodes an ASCII character. -/
def byte (c : Char) : UInt8 := c.toNat.toUInt8

/-- The byte is one of the given ASCII characters. -/
def isOneOf (chars : String) (b : UInt8) : Bool := chars.toList.any (byte · == b)

/-- How many bytes at the front satisfy `p`. -/
def run (p : UInt8 → Bool) (bytes : List UInt8) : Nat := (bytes.takeWhile p).length

/-- The blanks that may stand between tokens. -/
def isSpace : UInt8 → Bool := isOneOf "\t\n\x0b\x0c\r "

/-! ## Names -/

/-- Characters that a name may hold. Digits are among them, though no name starts with one. -/
def isNameChar (c : Char) : Bool :=
  ' ' < c && !("\"#%&'()*+,-./:;<=>[\\]^\x7b|\x7d~".toList.contains c)
    && !('\x7f' ≤ c && c ≤ '\u009f')

/-- The length of the run of name characters at the front. -/
def nameLength : List UInt8 → Nat
  | [] => 0
  | lead :: rest =>
    match Utf8.piece lead rest with
    | (some c, n) => if isNameChar c then nameLength (rest.drop n) + n + 1 else 0
    | (none, _) => 0
termination_by bytes => bytes.length
decreasing_by simp only [List.length_drop, List.length_cons]; omega

/-- The words that cannot be names. -/
def reserved : List String :=
  ["and", "break", "do", "else", "elseif", "end", "false", "for", "function", "goto", "if", "in",
   "local", "nil", "not", "or", "repeat", "return", "then", "true", "until", "while"]

/-! ## Numerals -/

def isDigit : UInt8 → Bool := isOneOf "0123456789"

def isHexDigit : UInt8 → Bool := isOneOf "0123456789abcdefABCDEF"

def isBinaryDigit : UInt8 → Bool := isOneOf "01"

/-- The length of an exponent: its mark, perhaps a sign, and at least one digit. -/
def exponentLength (mark : String) : List UInt8 → Nat
  | [] => 0
  | m :: rest =>
    let sign := if rest.head?.any (isOneOf "+-") then 1 else 0
    let digits := run isDigit (rest.drop sign)
    if isOneOf mark m && 0 < digits then 1 + sign + digits else 0

/-- The length of the mark of an imaginary numeral. -/
def imaginaryLength (bytes : List UInt8) : Nat :=
  if bytes.head?.any (isOneOf "iI") then 1 else 0

/-- The length of an exponent and, after it, of the mark of an imaginary numeral. -/
def scaleLength (mark : String) (bytes : List UInt8) : Nat :=
  let exponent := exponentLength mark bytes
  exponent + imaginaryLength (bytes.drop exponent)

/-- The length of the ending that gives a whole numeral its width: `LL`, `ULL` or `i`. -/
def widthLength : List UInt8 → Nat
  | a :: b :: c :: rest =>
    if isOneOf "uU" a && isOneOf "lL" b && isOneOf "lL" c then 3
    else if isOneOf "lL" a && isOneOf "lL" b then 2
    else imaginaryLength (a :: b :: c :: rest)
  | a :: b :: [] => if isOneOf "lL" a && isOneOf "lL" b then 2 else imaginaryLength [a]
  | bytes => imaginaryLength bytes

/-- The length of a numeral written with the given digits and exponent mark. A point needs a digit
on one of its sides; without a point the numeral ends in an exponent or in a width. -/
def positionalLength (digit : UInt8 → Bool) (mark : String) (bytes : List UInt8) : Nat :=
  let whole := run digit bytes
  let rest := bytes.drop whole
  let fraction := run digit (rest.drop 1)
  if rest.head? = some (byte '.') && 0 < whole + fraction then
    let point := whole + 1 + fraction
    point + scaleLength mark (bytes.drop point)
  else if whole = 0 then 0
  else if 0 < exponentLength mark rest then whole + scaleLength mark rest
  else whole + widthLength rest

/-- The length of a binary numeral after its `0b`. -/
def binaryLength (bytes : List UInt8) : Nat :=
  let whole := run isBinaryDigit bytes
  if whole = 0 then 0 else whole + widthLength (bytes.drop whole)

/-- The length of the numeral at the front. -/
def numeralLength (bytes : List UInt8) : Nat :=
  let decimal := positionalLength isDigit "eE" bytes
  match bytes with
  | zero :: base :: rest =>
    if zero = byte '0' && isOneOf "xX" base && 0 < positionalLength isHexDigit "pP" rest then
      2 + positionalLength isHexDigit "pP" rest
    else if zero = byte '0' && isOneOf "bB" base && 0 < binaryLength rest then
      2 + binaryLength rest
    else decimal
  | _ => decimal

/-! ## Operators and punctuation -/

/-- Every operator and punctuation mark, none before a longer one that starts with it. -/
def marks : List String :=
  ["...", "..", ".", "==", "=", "~=", "~", "<=", "<<", "<", ">=", ">>", ">", "//", "/", "::", ":",
   ";", ",", "(", ")", "\x7b", "\x7d", "[", "]", "+", "-", "*", "%", "^", "#", "&", "|"]

/-- The longest operator or punctuation mark at the front. -/
def mark? (bytes : List UInt8) : Option String :=
  marks.find? fun m => (Utf8.encode m).isPrefixOf bytes

/-! ## Escapes -/

/-- The length of an escape without its backslash. -/
def escapeLength : List UInt8 → Nat
  | [] => 0
  | c :: rest =>
    if isOneOf "\n\"'\\abfnrtv" c then 1
    else if c = byte 'z' then 1 + run isSpace rest
    else if isDigit c then 1 + min 2 (run isDigit rest)
    else if c = byte 'x' then if 2 ≤ run isHexDigit rest then 3 else 0
    else if c = byte 'u' && rest.head? = some (byte '\x7b') then
      let digits := run isHexDigit (rest.drop 1)
      if 0 < digits && (rest.drop (1 + digits)).head? = some (byte '\x7d') then digits + 3 else 0
    else 0

/-! ## Long brackets -/

/-- The level of the long bracket that opens at the front: how many `=` stand between its `[`s. -/
def longOpening? : List UInt8 → Option Nat
  | [] => none
  | c :: rest =>
    let level := run (· == byte '=') rest
    if c = byte '[' && (rest.drop level).head? = some (byte '[') then some level else none

/-- The closing long bracket of a level. -/
def longClosing (level : Nat) : List UInt8 :=
  byte ']' :: List.replicate level (byte '=') ++ [byte ']']

/-- How many bytes come before the first closing bracket of the level, if there is one. -/
def longContent? (level : Nat) : List UInt8 → Option Nat
  | [] => none
  | c :: rest =>
    if (longClosing level).isPrefixOf (c :: rest) then some 0
    else (longContent? level rest).map (· + 1)

end LuaLint.Lua
