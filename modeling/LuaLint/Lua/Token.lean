import LuaLint.Lua.Lexeme
import LuaLint.Tree.Fault

/-!
# Tokens of a Lua text

A text is cut from left to right into **tokens** and **comments**, with blanks between them. A token
is a node of the tree to be: a name, a numeral, a string with its parts, or an anonymous mark or
reserved word. Comments are nodes too, but no rule of the grammar mentions them; they are kept aside
and find their place in the finished tree by their offsets.

What cannot be cut is a `SyntaxFault` at the offset where the cutting stopped: a character outside
every class, a string or a long bracket without an end, an escape that is none, or bytes outside
strings and comments that encode no character.
-/

namespace LuaLint

namespace Lua

/-- A token together with its length in bytes, which says where the next one may begin. -/
structure Cut where
  node : Node
  length : Nat

/-! ## Strings -/

/-- The escapes of a quoted string and the offset of its closing quote, reading on from `offset`. -/
def quotedContent (quote : UInt8) (offset : Nat) : List UInt8 → Except SyntaxFault (List Node × Nat)
  | [] => .error ⟨offset⟩
  | c :: rest =>
    if c = quote then .ok ([], offset)
    else if c = byte '\\' then
      let length := escapeLength rest
      if length = 0 then .error ⟨offset⟩
      else do
        let stop := offset + 1 + length
        let escape := Node.token "escape_sequence" true offset stop (c :: rest.take length)
        let (escapes, close) ← quotedContent quote stop (rest.drop length)
        return (escape :: escapes, close)
    else quotedContent quote (offset + 1) rest
termination_by bytes => bytes.length
decreasing_by all_goals simp only [List.length_drop, List.length_cons]; omega

/-- A string in quotes: the opening quote, the content unless it is empty, the closing quote. -/
def quotedString (offset : Nat) (quote : UInt8) (rest : List UInt8) : Except SyntaxFault Cut := do
  let mark := if quote = byte '"' then "\"" else "'"
  let (escapes, close) ← quotedContent quote (offset + 1) rest
  let content : Node :=
    { Node.token "string_content" true (offset + 1) close [] with children := escapes }
  let parts := [Node.token mark false offset (offset + 1) [quote]]
    ++ (if close = offset + 1 then [] else [content])
    ++ [Node.token mark false close (close + 1) [quote]]
  return ⟨Node.construct "string" parts, close + 1 - offset⟩

/-- What a long bracket of a level encloses, as the parts of a node: the opening bracket, which
starts at `first`, the content and the closing bracket. `rest` begins after the opening bracket, at
`offset`. The second result is the offset where the closing bracket stops. -/
def longParts (contentKind : String) (first offset level : Nat) (rest : List UInt8) :
    Except SyntaxFault (List Node × Nat) :=
  match longContent? level rest with
  | none => .error ⟨first⟩
  | some length =>
    let close := offset + length
    let stop := close + level + 2
    .ok ([Node.token "[[" false first offset [],
          Node.token contentKind true offset close (rest.take length),
          Node.token "]]" false close stop []], stop)

/-! ## Comments -/

/-- The comment after `--`, where `rest` is what follows these two bytes. A long bracket right after
them makes it a block; any other comment ends with its line. -/
def comment (offset : Nat) (rest : List UInt8) : Except SyntaxFault Cut :=
  match longOpening? rest with
  | some level => do
    let opening := level + 2
    let (parts, stop) ←
      longParts "comment_content" offset (offset + 2 + opening) level (rest.drop opening)
    return ⟨Node.construct "comment" parts, stop - offset⟩
  | none =>
    let length := run (fun b => b != byte '\n' && b != byte '\r') rest
    let parts := [Node.token "--" false offset (offset + 2) [],
      Node.token "comment_content" true (offset + 2) (offset + 2 + length) (rest.take length)]
    .ok ⟨Node.construct "comment" parts, 2 + length⟩

/-! ## One token -/

/-- The token or comment at the front of `c :: rest`. Only the first token of a text may be a line
that starts with `#`. -/
def cut (first : Bool) (offset : Nat) (c : UInt8) (rest : List UInt8) : Except SyntaxFault Cut :=
  let bytes := c :: rest
  let leaf (kind : String) (named : Bool) (length : Nat) : Cut :=
    ⟨Node.token kind named offset (offset + length) (bytes.take length), length⟩
  let numeral := numeralLength bytes
  let name := nameLength bytes
  if first && c = byte '#' then .ok (leaf "hash_bang_line" true (run (· != byte '\n') bytes))
  else if c = byte '-' && rest.head? = some (byte '-') then comment offset (rest.drop 1)
  else if c = byte '"' || c = byte '\'' then quotedString offset c rest
  else if 0 < numeral then .ok (leaf "number" true numeral)
  else if 0 < name then
    match reserved.find? (Utf8.encode · == bytes.take name) with
    | some word => .ok (leaf word false name)
    | none => .ok (leaf "identifier" true name)
  else match longOpening? bytes with
    | some level => do
      let opening := level + 2
      let (parts, stop) ←
        longParts "string_content" offset (offset + opening) level (bytes.drop opening)
      return ⟨Node.construct "string" parts, stop - offset⟩
    | none => match mark? bytes with
      | some mark => .ok (leaf mark false (Utf8.encode mark).length)
      | none => .error ⟨offset⟩

/-! ## The whole text -/

/-- The tokens and comments of a text in order, reading on from `offset`; `soFar` holds those
already cut, latest first. -/
def cutAll (soFar : List Node) (offset : Nat) : List UInt8 → Except SyntaxFault (List Node)
  | [] => .ok soFar.reverse
  | c :: rest =>
    if isSpace c then cutAll soFar (offset + 1) rest
    else match cut (soFar.all (·.kind == "comment")) offset c rest with
      | .error fault => .error fault
      | .ok ⟨_, 0⟩ => .error ⟨offset⟩
      | .ok ⟨node, length + 1⟩ => cutAll (node :: soFar) (offset + length + 1) (rest.drop length)
termination_by bytes => bytes.length
decreasing_by all_goals simp only [List.length_drop, List.length_cons]; omega

/-- The bytes that may stand at the start of a text to mark it as UTF-8. -/
def byteOrderMark : List UInt8 := [0xEF, 0xBB, 0xBF]

/-- The tokens and comments of a text. A mark of its encoding is skipped, but counts for offsets. -/
def tokens (source : List UInt8) : Except SyntaxFault (List Node) :=
  if byteOrderMark.isPrefixOf source then cutAll [] byteOrderMark.length (source.drop 3)
  else cutAll [] 0 source

end Lua

end LuaLint
