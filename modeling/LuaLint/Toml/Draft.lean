import LuaLint.Toml.Value

/-!
# Drafts of a document

A TOML document is read statement by statement, and what a statement may do depends on how the tables
that it touches came about. A draft keeps that for each table until the document is complete.

* A table that only lies on the way to another header is **implied**. It may still get a header of its
  own, and keys with dots may go through it.
* A table with a header is **declared**, and the header may not come again.
* A table that keys with dots made or went through belongs to their section. In that section more such
  keys may go through it; after the next header it is closed.
* Values are closed, inline tables and arrays included. An array of tables grows by its headers, and
  the paths of other headers lead into its last table.

Entries keep the order in which they came up.
-/

namespace LuaLint.Toml

/-- Why a text is no TOML document. -/
inductive Flaw
  /-- A line begins with no key, header or comment. -/
  | statement
  /-- Something follows a statement in its line. -/
  | lineEnd
  /-- A key is missing or has no form of a key. -/
  | key
  /-- No equals sign follows a key. -/
  | equals
  /-- A header is not closed. -/
  | header
  /-- A value is missing or has no form of a value. -/
  | value
  /-- A day or a time does not exist. -/
  | calendar
  /-- A text is not closed, or holds a character that has to be escaped. -/
  | string
  /-- A backslash begins no escape. -/
  | escape
  /-- A comment holds a control character. -/
  | comment
  /-- An array is not closed. -/
  | array
  /-- An inline table is not closed. -/
  | inlineTable
  /-- A key or a table is defined again. -/
  | redefined (name : String)
deriving Repr, DecidableEq

/-- The wording of the flaw. -/
def Flaw.message : Flaw → String
  | statement => "invalid statement"
  | lineEnd => "expected the end of the line after a statement"
  | key => "invalid key"
  | equals => "expected an equals sign after a key"
  | header => "unclosed header"
  | value => "invalid value"
  | calendar => "no such date or time"
  | string => "unclosed text or illegal character in it"
  | escape => "invalid escape in a text"
  | comment => "illegal character in a comment"
  | array => "unclosed array"
  | inlineTable => "unclosed inline table"
  | redefined name => s!"cannot define {Text.quoted name} again"

/-- Why reading a text ends before its end. -/
inductive Stop
  /-- The text is no document. -/
  | flaw (flaw : Flaw)
  /-- The interpreter refuses to read on. -/
  | refusal (refusal : Refusal)
deriving Repr, DecidableEq

/-- A flaw stops the reading. -/
instance : MonadLift (Except Flaw) (Except Stop) where
  monadLift outcome := outcome.mapError .flaw

/-- How a table came about. -/
inductive Origin
  | implied
  | declared
  /-- By keys with dots in the section of the given number. -/
  | dotted (number : Nat)
deriving Repr, DecidableEq

/-- An entry of a document that is being read. -/
inductive Draft
  | value (v : Value)
  | table (origin : Origin) (entries : List (String × Draft))
  /-- An array of tables: those that are complete, and the entries of the last one. -/
  | tables (earlier : List Value) (last : List (String × Draft))

/-- The entries of a table that is being read. -/
abbrev Draft.Entries := List (String × Draft)

namespace Draft

/-! ## Completion -/

mutual

/-- The value of a complete entry. -/
def complete : Draft → Value
  | value v => v
  | table _ entries => .table (completeAll entries)
  | tables earlier last => .array (earlier ++ [.table (completeAll last)])

/-- The values of complete entries. -/
def completeAll : Entries → List (String × Value)
  | [] => []
  | (key, d) :: rest => (key, d.complete) :: completeAll rest

end

/-! ## Statements -/

/-- Replaces the entry under a key, or makes it at the end. -/
def update (key : String) (f : Option Draft → Except Flaw Draft) : Entries → Except Flaw Entries
  | [] => do return [(key, ← f none)]
  | (other, d) :: rest =>
    if other = key then do return (other, ← f (some d)) :: rest
    else do return (other, d) :: (← update key f rest)

/-- Goes into the table under a key on the way of a header, making it if need be. -/
def into (key : String) (f : Entries → Except Flaw Entries) : Option Draft → Except Flaw Draft
  | none => do return table .implied (← f [])
  | some (table origin entries) => do return table origin (← f entries)
  | some (tables earlier last) => do return tables earlier (← f last)
  | some (value _) => throw (.redefined key)

/-- The header of a table. -/
def declare : List String → Entries → Except Flaw Entries
  | [], entries => .ok entries
  | [key], entries => entries |> update key fun
    | none => .ok (table .declared [])
    | some (table .implied inner) => .ok (table .declared inner)
    | some _ => .error (.redefined key)
  | key :: path, entries => update key (into key (declare path)) entries

/-- The header of one more table in an array. -/
def append : List String → Entries → Except Flaw Entries
  | [], entries => .ok entries
  | [key], entries => entries |> update key fun
    | none => .ok (tables [] [])
    | some (tables earlier last) => .ok (tables (earlier ++ [.table (completeAll last)]) [])
    | some _ => .error (.redefined key)
  | key :: path, entries => update key (into key (append path)) entries

/-- A key and its value in the section of the given number. -/
def assign (now : Nat) (v : Value) : List String → Entries → Except Flaw Entries
  | [], entries => .ok entries
  | [key], entries => entries |> update key fun
    | none => .ok (value v)
    | some _ => .error (.redefined key)
  | key :: path, entries => entries |> update key fun
    | none => do return table (.dotted now) (← assign now v path [])
    | some (table .implied inner) => do return table (.dotted now) (← assign now v path inner)
    | some (table (.dotted made) inner) =>
      if made = now then do return table (.dotted now) (← assign now v path inner)
      else throw (.redefined key)
    | some _ => throw (.redefined key)

/-- A key and its value below a header. -/
def assignUnder (now : Nat) (v : Value) (path : List String) :
    List String → Entries → Except Flaw Entries
  | [], entries => assign now v path entries
  | key :: header, entries => update key (into key (assignUnder now v path header)) entries

end Draft

/-- A statement of a document. -/
inductive Statement
  /-- The header of a table. -/
  | declare (path : List String)
  /-- The header of one more table in an array. -/
  | append (path : List String)
  | assign (path : List String) (value : Value)
deriving Repr

/-- A document that is being read: its entries, and the header in force with its number. -/
structure Draft.State where
  entries : Draft.Entries := []
  header : List String := []
  number : Nat := 0

/-- The draft after one more statement. -/
def Statement.apply (s : Draft.State) : Statement → Except Flaw Draft.State
  | declare path => do
    return { entries := ← Draft.declare path s.entries, header := path, number := s.number + 1 }
  | append path => do
    return { entries := ← Draft.append path s.entries, header := path, number := s.number + 1 }
  | assign path value => do
    return { s with entries := ← Draft.assignUnder s.number value path s.header s.entries }

end LuaLint.Toml
