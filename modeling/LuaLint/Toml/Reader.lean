import LuaLint.Text.Split
import LuaLint.Text.Utf8
import LuaLint.Toml.Scalar

/-!
# Reading TOML

`Toml.read` reads the bytes of a document as a table. The bytes must be UTF-8 without a mark of it at
the start; a carriage return counts only before a line feed, and together they are one line end. The
text is a sequence of statements, one to a line, each of which is applied to the draft of the table before
the next one is read: whatever comes first in the text stops the reading, a flaw or a value that the
interpreter refuses to read.

As with every grammar here, each reader returns what is left with the proof that it is shorter. How deep
arrays and inline tables may be nested is a matter of the calls that are left: reading an array takes two
more of them, for itself and for its items, and reading an inline table takes three.
-/

namespace LuaLint.Toml

/-- Reading that uses up at least one character of `text`. -/
abbrev Reads (α : Type) (text : List Char) := Except Stop (Step Char α text.length)

/-- Reading that may use up nothing. -/
abbrev Skims (α : Type) (text : List Char) := Except Stop (Step Char α (text.length + 1))

/-! ## Characters -/

/-- A control character other than the tab. -/
def isControl (c : Char) : Bool := (c.toNat < 0x20 && c != '\t') || c.toNat == 0x7F

/-- The blanks within a line. -/
def isBlank (c : Char) : Bool := c == ' ' || c == '\t'

/-- The blanks and the line end. -/
def isGap (c : Char) : Bool := isBlank c || c == '\n'

/-- Takes the characters that satisfy `p`, as many as there are. -/
def span (p : Char → Bool) (text : List Char) : Step Char (List Char) (text.length + 1) :=
  ⟨text.takeWhile p, text.dropWhile p, by
    have := (List.dropWhile_suffix p (l := text)).length_le
    omega⟩

/-- Takes a given character, or has the given flaw. -/
def mark (c : Char) (flaw : Flaw) (text : List Char) : Reads Char text :=
  match text with
  | d :: rest => if d = c then .ok ⟨d, rest, Step.one_used d rest⟩ else .error (.flaw flaw)
  | [] => .error (.flaw flaw)

/-- Takes the next character, or has the given flaw. -/
def next (flaw : Flaw) (text : List Char) : Reads Char text :=
  match text with
  | c :: rest => .ok ⟨c, rest, Step.one_used c rest⟩
  | [] => .error (.flaw flaw)

/-- Takes the next so many characters, at least one, or has the given flaw. -/
def take (count : Nat) (flaw : Flaw) (text : List Char) : Reads (List Char) text :=
  if h : 0 < count ∧ count ≤ text.length then
    .ok ⟨text.take count, text.drop count, by simp only [List.length_drop]; omega⟩
  else .error (.flaw flaw)

/-- A comment, if one begins here, up to the end of its line. -/
def comment (text : List Char) : Skims Unit text := do
  if text.head? = some '#' then
    let ⟨inner, rest, _⟩ := span (· != '\n') text
    if inner.any isControl then throw (.flaw .comment)
    return ⟨(), rest, by omega⟩
  else return ⟨(), text, Step.none_used text⟩

/-- Blanks, line ends and comments, as many as there are. -/
def gap (text : List Char) : Skims Unit text := do
  let ⟨_, rest, _⟩ := span isGap text
  let ⟨_, rest', _⟩ ← comment rest
  if h : rest'.length < rest.length then
    let ⟨_, rest, _⟩ ← gap rest'
    return ⟨(), rest, by omega⟩
  else return ⟨(), rest', by omega⟩
termination_by text.length

/-! ## Texts -/

/-- The character that an escape of one letter stands for. -/
def escapeLetter? : Char → Option Char
  | 'b' => some '\x08'
  | 't' => some '\t'
  | 'n' => some '\n'
  | 'f' => some '\x0c'
  | 'r' => some '\r'
  | '"' => some '"'
  | '\\' => some '\\'
  | _ => none

/-- The number of a character is neither too large nor a surrogate. -/
def isScalarValue (n : Nat) : Bool := n < 0xD800 || (0xE000 ≤ n && n < 0x110000)

/-- A character that is given by so many hexadecimal digits. -/
def numbered (count : Nat) (text : List Char) : Reads (List Char) text := do
  let ⟨digits, rest, _⟩ ← take count .escape text
  let n := ofDigits 16 digits
  if digits.all isHexDigit && isScalarValue n then return ⟨[Char.ofNat n], rest, by omega⟩
  else throw (.flaw .escape)

/-- What an escape stands for, reading on after its backslash. In a text of several lines a backslash
at the end of a line also takes in the blanks and line ends that follow. -/
def escape (multiline : Bool) (text : List Char) : Reads (List Char) text := do
  let ⟨letter, rest, _⟩ ← next .escape text
  match letter with
  | 'u' =>
    let ⟨c, rest, _⟩ ← numbered 4 rest
    return ⟨c, rest, by omega⟩
  | 'U' =>
    let ⟨c, rest, _⟩ ← numbered 8 rest
    return ⟨c, rest, by omega⟩
  | c =>
    match escapeLetter? c with
    | some d => return ⟨[d], rest, by omega⟩
    | none =>
      if multiline && isGap c then
        let ⟨_, lineEnd, _⟩ := if c = '\n' then ⟨[], rest, by omega⟩ else span isBlank rest
        if c = '\n' || lineEnd.head?.all (· == '\n') then
          let ⟨_, rest, _⟩ := span isGap lineEnd
          return ⟨[], rest, by omega⟩
        else throw (.flaw .escape)
      else throw (.flaw .escape)

/-- The text is at a closing quote: three of them in a text of several lines. -/
def closes (quote : Char) (multiline : Bool) (text : List Char) : Bool :=
  if multiline then [quote, quote, quote].isPrefixOf text else [quote].isPrefixOf text

/-- The content of a text up to and including its closing quote. -/
def content (quote : Char) (escapes multiline : Bool) (text : List Char) :
    Reads (List Char) text := do
  if closes quote multiline text then
    let ⟨_, rest, _⟩ ← take (if multiline then 3 else 1) .string text
    return ⟨[], rest, by omega⟩
  else
    let ⟨c, rest, _⟩ ← next .string text
    if escapes && c == '\\' then
      let ⟨meant, rest, _⟩ ← escape multiline rest
      let ⟨more, rest, _⟩ ← content quote escapes multiline rest
      return ⟨meant ++ more, rest, by omega⟩
    else if isControl c && !(multiline && c == '\n') then throw (.flaw .string)
    else
      let ⟨more, rest, _⟩ ← content quote escapes multiline rest
      return ⟨c :: more, rest, by omega⟩
termination_by text.length

/-- Quotes right after the closing ones of a text of several lines. Up to two belong to the text. -/
def extraQuotes (quote : Char) (text : List Char) : Step Char (List Char) (text.length + 1) :=
  match text with
  | a :: b :: rest =>
    if a = quote then
      if b = quote then ⟨[a, b], rest, by simp; omega⟩ else ⟨[a], b :: rest, by simp⟩
    else ⟨[], a :: b :: rest, by omega⟩
  | [a] => if a = quote then ⟨[a], [], by simp⟩ else ⟨[], [a], by omega⟩
  | [] => ⟨[], [], by omega⟩

/-- A text in one line, between single quotes as it is or between double quotes with escapes. -/
def lineText (quote : Char) (text : List Char) : Reads String text := do
  let ⟨_, rest, _⟩ ← mark quote .string text
  let ⟨inner, rest, _⟩ ← content quote (quote == '"') false rest
  return ⟨String.ofList inner, rest, by omega⟩

/-- Takes a line end, if one is there. -/
def lineEnd? (text : List Char) : Step Char Unit (text.length + 1) :=
  match text with
  | '\n' :: rest => ⟨(), rest, by simp only [List.length_cons]; omega⟩
  | other => ⟨(), other, Step.none_used other⟩

/-- A text of several lines. A line end right after the opening quotes does not belong to it. -/
def blockText (quote : Char) (text : List Char) : Reads String text := do
  let ⟨_, rest, _⟩ ← take 3 .string text
  let ⟨_, rest, _⟩ := lineEnd? rest
  let ⟨inner, rest, _⟩ ← content quote (quote == '"') true rest
  let ⟨extra, rest, _⟩ := extraQuotes quote rest
  return ⟨String.ofList (inner ++ extra), rest, by omega⟩

/-- A text of either form. -/
def anyText (quote : Char) (text : List Char) : Reads String text :=
  if closes quote true text then blockText quote text else lineText quote text

/-! ## Keys -/

/-- The characters of a key without quotes. -/
def isKeyChar (c : Char) : Bool :=
  isDigit c || ('a' ≤ c && c ≤ 'z') || ('A' ≤ c && c ≤ 'Z') || c == '-' || c == '_'

/-- A character that begins a key. -/
def beginsKey (c : Char) : Bool := isKeyChar c || c == '"' || c == '\''

/-- One part of a key. -/
def keyPart (text : List Char) : Reads String text := do
  match text.head? with
  | some '"' => lineText '"' text
  | some '\'' => lineText '\'' text
  | some _ =>
    let ⟨first, rest, _⟩ ← next .key text
    if isKeyChar first then
      let ⟨more, rest, _⟩ := span isKeyChar rest
      return ⟨String.ofList (first :: more), rest, by omega⟩
    else throw (.flaw .key)
  | none => throw (.flaw .key)

/-- A key, whose parts have dots between them. Blanks around the parts do not count. -/
def key (text : List Char) : Reads (List String) text := do
  let ⟨first, rest, _⟩ ← keyPart text
  let ⟨_, rest, _⟩ := span isBlank rest
  if rest.head? = some '.' then
    let ⟨_, rest, _⟩ ← mark '.' .key rest
    let ⟨_, rest, _⟩ := span isBlank rest
    let ⟨more, rest, _⟩ ← key rest
    return ⟨first :: more, rest, by omega⟩
  else return ⟨[first], rest, by omega⟩
termination_by text.length

/-! ## Values -/

/-- The calls that reading an array takes: for the array and for the items in it. -/
def arrayCalls : Nat := 2

/-- The calls that reading an inline table takes: for the table, for its entries and for their values. -/
def tableCalls : Nat := 3

/-- What is left of the calls after so many more. -/
def spend (cost calls : Nat) : Except Stop Nat :=
  if cost ≤ calls then .ok (calls - cost) else .error (.refusal .nesting)

/-- A value without quotes or brackets. -/
def plainValue (limits : Limits) (text : List Char) : Reads Value text :=
  match scalar limits text with
  | .error stop => .error stop
  | .ok (v, rest) =>
    if h : rest.length < text.length then .ok ⟨v, rest, h⟩ else .error (.flaw .value)

mutual

/-- A value, with so many calls left. -/
def value (limits : Limits) (calls : Nat) (text : List Char) : Reads Value text := do
  match text.head? with
  | some '"' =>
    let ⟨s, rest, _⟩ ← anyText '"' text
    return ⟨.string s, rest, by omega⟩
  | some '\'' =>
    let ⟨s, rest, _⟩ ← anyText '\'' text
    return ⟨.string s, rest, by omega⟩
  | some '[' =>
    let calls ← spend arrayCalls calls
    let ⟨_, rest, _⟩ ← mark '[' .array text
    let ⟨_, rest, _⟩ ← gap rest
    let ⟨items, rest, _⟩ ← items limits calls rest
    return ⟨.array items, rest, by omega⟩
  | some '\x7b' =>
    let calls ← spend tableCalls calls
    let ⟨_, rest, _⟩ ← mark '\x7b' .inlineTable text
    let ⟨_, rest, _⟩ := span isBlank rest
    if rest.head? = some '\x7d' then
      let ⟨_, rest, _⟩ ← mark '\x7d' .inlineTable rest
      return ⟨.table [], rest, by omega⟩
    else
      let ⟨all, rest, _⟩ ← entries limits calls [] rest
      return ⟨.table (Draft.completeAll all), rest, by omega⟩
  | _ =>
    if "true".toList.isPrefixOf text then
      let ⟨_, rest, _⟩ ← take 4 .value text
      return ⟨.boolean true, rest, by omega⟩
    else if "false".toList.isPrefixOf text then
      let ⟨_, rest, _⟩ ← take 5 .value text
      return ⟨.boolean false, rest, by omega⟩
    else plainValue limits text
termination_by 4 * text.length + 1

/-- The items of an array, up to and including its closing bracket. A comma may follow the last. -/
def items (limits : Limits) (calls : Nat) (text : List Char) : Reads (List Value) text := do
  if text.head? = some ']' then
    let ⟨_, rest, _⟩ ← mark ']' .array text
    return ⟨[], rest, by omega⟩
  else
    let ⟨v, rest, _⟩ ← value limits calls text
    let ⟨_, rest, _⟩ ← gap rest
    if rest.head? = some ',' then
      let ⟨_, rest, _⟩ ← mark ',' .array rest
      let ⟨_, rest, _⟩ ← gap rest
      let ⟨more, rest, _⟩ ← items limits calls rest
      return ⟨v :: more, rest, by omega⟩
    else
      let ⟨_, rest, _⟩ ← mark ']' .array rest
      return ⟨[v], rest, by omega⟩
termination_by 4 * text.length + 2

/-- A key and its value. -/
def keyValue (limits : Limits) (calls : Nat) (text : List Char) :
    Reads (List String × Value) text := do
  let ⟨path, rest, _⟩ ← key text
  let ⟨_, rest, _⟩ ← mark '=' .equals rest
  let ⟨_, rest, _⟩ := span isBlank rest
  let ⟨v, rest, _⟩ ← value limits calls rest
  return ⟨(path, v), rest, by omega⟩
termination_by 4 * text.length

/-- The entries of an inline table, up to and including its closing brace, after those that it has so
far. There is at least one more. -/
def entries (limits : Limits) (calls : Nat) (soFar : Draft.Entries) (text : List Char) :
    Reads Draft.Entries text := do
  let ⟨(path, v), rest, _⟩ ← keyValue limits calls text
  let all ← Draft.assign 0 v path soFar
  let ⟨_, rest, _⟩ := span isBlank rest
  if rest.head? = some ',' then
    let ⟨_, rest, _⟩ ← mark ',' .inlineTable rest
    let ⟨_, rest, _⟩ := span isBlank rest
    let ⟨all, rest, _⟩ ← entries limits calls all rest
    return ⟨all, rest, by omega⟩
  else
    let ⟨_, rest, _⟩ ← mark '\x7d' .inlineTable rest
    return ⟨all, rest, by omega⟩
termination_by 4 * text.length + 3

end

/-! ## Statements -/

/-- A header: the key between brackets, of which there are one or two on each side. -/
def header (text : List Char) : Reads Statement text := do
  let ⟨_, rest, _⟩ ← mark '[' .header text
  if rest.head? = some '[' then
    let ⟨_, rest, _⟩ ← mark '[' .header rest
    let ⟨_, rest, _⟩ := span isBlank rest
    let ⟨path, rest, _⟩ ← key rest
    let ⟨_, rest, _⟩ ← mark ']' .header rest
    let ⟨_, rest, _⟩ ← mark ']' .header rest
    return ⟨.append path, rest, by omega⟩
  else
    let ⟨_, rest, _⟩ := span isBlank rest
    let ⟨path, rest, _⟩ ← key rest
    let ⟨_, rest, _⟩ ← mark ']' .header rest
    return ⟨.declare path, rest, by omega⟩

/-- The statement of a line, if it has one. -/
def statement (limits : Limits) (text : List Char) : Skims (Option Statement) text := do
  match text.head? with
  | some '[' =>
    let ⟨s, rest, _⟩ ← header text
    return ⟨some s, rest, by omega⟩
  | some c =>
    if beginsKey c then
      let ⟨(path, v), rest, _⟩ ← keyValue limits limits.calls text
      return ⟨some (.assign path v), rest, by omega⟩
    else if c = '#' || c = '\n' then return ⟨none, text, Step.none_used text⟩
    else throw (.flaw .statement)
  | none => return ⟨none, text, Step.none_used text⟩

/-- Applies the statements of all lines to a draft, in order. -/
def statements (limits : Limits) (draft : Draft.State) (text : List Char) :
    Except Stop Draft.State := do
  let ⟨_, rest, _⟩ := span isBlank text
  let ⟨s, rest, _⟩ ← statement limits rest
  let draft ← match s with
    | some s => s.apply draft
    | none => pure draft
  let ⟨_, rest, _⟩ := span isBlank rest
  let ⟨_, rest, _⟩ ← comment rest
  if rest.isEmpty then return draft
  else
    let ⟨_, rest, _⟩ ← mark '\n' .lineEnd rest
    statements limits draft rest
termination_by text.length

/-! ## Documents -/

/-- The text with each carriage return that stands before a line feed left out. -/
def unifyLineEnds : List Char → List Char
  | '\r' :: '\n' :: rest => '\n' :: unifyLineEnds rest
  | c :: rest => c :: unifyLineEnds rest
  | [] => []

/-- The table that the text of a document holds. -/
def document (limits : Limits) (text : List Char) : Except Stop (List (String × Value)) := do
  return Draft.completeAll (← statements limits {} (unifyLineEnds text)).entries

/-- Why no document is read from bytes. -/
inductive Unreadable
  /-- They encode no text. -/
  | encoding
  /-- They encode a text that is no document, or one that the interpreter refuses to read. -/
  | stopped (stop : Stop)
deriving Repr, DecidableEq

/-- The table that the bytes of a document hold. -/
def read (limits : Limits) (bytes : List UInt8) : Except Unreadable (List (String × Value)) :=
  match Utf8.decode? bytes with
  | none => .error .encoding
  | some text => (document limits text).mapError .stopped

end LuaLint.Toml
