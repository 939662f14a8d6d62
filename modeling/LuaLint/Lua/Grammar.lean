import LuaLint.Lua.Token
import LuaLint.Text.Split

/-!
# The grammar of Lua

Reads the tokens of a text, comments left out, as a concrete syntax tree. Each construct has one
function, and each function takes the tokens that are left and returns what it read together with
the tokens after it. **The result carries the proof that tokens were used up** (`Step`), so the
constructs may refer to one another freely and the reading still ends: the measure is the number of
tokens left and, for constructs that start alike, their place in the grammar.

Operators follow their binding powers: a binary operator holds its operands with the powers on its
two sides, so a right-associative one is stronger on its left. A prefix expression grows to the right
as long as an index, a field, a method or arguments follow, on the same line or not.

`global` is a name in most places. It starts a declaration at the start of a statement when a name,
`function`, `<` or `*` follows, and where it is used as a variable the tree holds it as a token and
not as an `identifier`.
-/

namespace LuaLint.Lua

/-! ## Steps -/

/-- What a reader runs into that does not fit: a token, or the end of the text. -/
inductive Obstacle
  | token (offset : Int)
  | endOfText
deriving Repr, DecidableEq

/-- Reading that uses up at least one token of `ts`. -/
abbrev Reads (α : Type) (ts : List Node) := Except Obstacle (Step Node α ts.length)

/-- Reading that may use up nothing. -/
abbrev Skims (α : Type) (ts : List Node) := Except Obstacle (Step Node α (ts.length + 1))

/-- The kind of the next token; empty at the end. -/
def front (ts : List Node) : String := (ts.head?.map (·.kind)).getD ""

/-- The obstacle that the next token is when it does not fit. -/
def obstacle : List Node → Obstacle
  | [] => .endOfText
  | t :: _ => .token t.start

/-- Takes the next token, whatever it is. -/
def take : (ts : List Node) → Reads Node ts
  | [] => .error (obstacle [])
  | t :: rest => .ok ⟨t, rest, by simp⟩

/-- Takes the next token if it is of the given kind. -/
def expect (kind : String) (ts : List Node) : Reads Node ts :=
  if front ts = kind then take ts else .error (obstacle ts)

/-- Takes a name. -/
def name (ts : List Node) : Reads Node ts := expect "identifier" ts

/-- The token as a leaf that the tree names `kind`. -/
def asLeaf (kind : String) (t : Node) : Node := { t with kind, named := true }

/-- A name read as a variable: `global` stays a token. -/
def asVariable (t : Node) : Node :=
  if t.text = Utf8.encode "global" then { t with kind := "global", named := false } else t

/-- Statements as the body of a construct. An empty body leaves no node. -/
def body (statements : List Node) : List Node :=
  if statements.isEmpty then [] else [Node.construct "block" statements]

/-! ## Names and parameters -/

/-- Names after the first of a list: `, name` as often as it goes on. -/
def moreNames (ts : List Node) : Skims (List Node) ts := do
  if front ts = "," then
    let ⟨comma, r, _⟩ ← take ts
    let ⟨n, r, _⟩ ← name r
    let ⟨more, r, _⟩ ← moreNames r
    return ⟨comma :: n :: more, r, by omega⟩
  else return ⟨[], ts, by omega⟩
termination_by ts.length

/-- `...`, and in some dialects a name for what it holds. -/
def vararg (ts : List Node) : Reads (List Node) ts := do
  let ⟨dots, r, _⟩ ← expect "..." ts
  let dots := asLeaf "vararg_expression" dots
  if front r = "identifier" then
    let ⟨n, r, _⟩ ← take r
    return ⟨[dots, n], r, by omega⟩
  else return ⟨[dots], r, by omega⟩

/-- Parameters after the first of a list; `...` can only be the last. -/
def moreParameters (ts : List Node) : Skims (List Node) ts := do
  if front ts = "," then
    let ⟨comma, r, _⟩ ← take ts
    if front r = "..." then
      let ⟨last, r, _⟩ ← vararg r
      return ⟨comma :: last, r, by omega⟩
    else
      let ⟨n, r, _⟩ ← name r
      let ⟨more, r, _⟩ ← moreParameters r
      return ⟨comma :: n :: more, r, by omega⟩
  else return ⟨[], ts, by omega⟩
termination_by ts.length

/-- The parameter list of a function. -/
def parameters (ts : List Node) : Reads Node ts := do
  let ⟨opening, r, _⟩ ← expect "(" ts
  let ⟨inner, r, _⟩ ← (do
    match front r with
    | ")" => return ⟨[], r, by omega⟩
    | "..." =>
      let ⟨last, q, _⟩ ← vararg r
      return ⟨last, q, by omega⟩
    | _ =>
      let ⟨n, q, _⟩ ← name r
      let ⟨more, q, _⟩ ← moreParameters q
      return ⟨n :: more, q, by omega⟩ : Skims (List Node) r)
  let ⟨closing, r, _⟩ ← expect ")" r
  return ⟨Node.construct "parameters" (opening :: inner ++ [closing]), r, by omega⟩

/-- The name of a declared function, as far as it is read: fields, then at most one method. -/
def functionNameTail (whole : Node) (ts : List Node) : Skims Node ts := do
  match front ts with
  | "." =>
    let ⟨dot, r, _⟩ ← take ts
    let ⟨n, r, _⟩ ← name r
    let ⟨longer, r, _⟩ ← functionNameTail (Node.construct "dot_index_expression" [whole, dot, n]) r
    return ⟨longer, r, by omega⟩
  | ":" =>
    let ⟨colon, r, _⟩ ← take ts
    let ⟨n, r, _⟩ ← name r
    return ⟨Node.construct "method_index_expression" [whole, colon, n], r, by omega⟩
  | _ => return ⟨whole, ts, by omega⟩
termination_by ts.length

/-! ## Attributes -/

/-- Takes a `>`, also off the front of a longer mark, whose other half stays. -/
def closeAngle (ts : List Node) : Skims Node ts :=
  match ts with
  | t :: rest =>
    let angle := Node.token ">" false t.start (t.start + 1) (t.text.take 1)
    let half (kind : String) := Node.token kind false (t.start + 1) t.stop (t.text.drop 1)
    match t.kind with
    | ">" => .ok ⟨t, rest, by simp only [List.length_cons]; omega⟩
    | ">=" => .ok ⟨angle, half "=" :: rest, by simp⟩
    | ">>" => .ok ⟨angle, half ">" :: rest, by simp⟩
    | _ => .error (obstacle ts)
  | [] => .error (obstacle ts)

/-- An attribute in angle brackets, if one follows. -/
def attributes (ts : List Node) : Skims (List Node) ts := do
  if front ts = "<" then
    let ⟨opening, r, _⟩ ← take ts
    let ⟨n, r, _⟩ ← name r
    let ⟨closing, r, _⟩ ← closeAngle r
    return ⟨[Node.construct "attribute" [opening, n, closing]], r, by omega⟩
  else return ⟨[], ts, by omega⟩

/-- Declared names, each with perhaps an attribute after it. -/
def declaredNames (ts : List Node) : Reads (List Node) ts := do
  let ⟨n, r, _⟩ ← name ts
  let ⟨attrs, r, _⟩ ← attributes r
  if front r = "," then
    let ⟨comma, r, _⟩ ← take r
    let ⟨more, r, _⟩ ← declaredNames r
    return ⟨n :: attrs ++ comma :: more, r, by omega⟩
  else return ⟨n :: attrs, r, by omega⟩
termination_by ts.length

/-! ## Operators -/

/-- The binding powers of a binary operator on its left and on its right. -/
def binaryPower? : String → Option (Nat × Nat)
  | "or" => some (1, 1)
  | "and" => some (2, 2)
  | "<" | "<=" | "==" | "~=" | ">=" | ">" => some (3, 3)
  | "|" => some (4, 4)
  | "~" => some (5, 5)
  | "&" => some (6, 6)
  | "<<" | ">>" => some (7, 7)
  | ".." => some (9, 8)
  | "+" | "-" => some (10, 10)
  | "*" | "/" | "//" | "%" => some (11, 11)
  | "^" => some (14, 13)
  | _ => none

/-- How firmly a unary operator holds its operand. -/
def unaryPower : Nat := 12

/-- The marks and words that are unary operators. -/
def isUnary (kind : String) : Bool := ["not", "-", "#", "~"].contains kind

/-- The statement begins a declaration of global names. -/
def declaresGlobals : List Node → Bool
  | t :: next :: _ =>
    t.kind == "identifier" && t.text == Utf8.encode "global"
      && ["identifier", "function", "<", "*"].contains next.kind
  | _ => false

/-! ## Expressions and statements -/

mutual

/-- An expression whose operators all hold more firmly than `power`. -/
def expression (power : Nat) (ts : List Node) : Reads Node ts := do
  let ⟨left, r, _⟩ ← operand ts
  let ⟨whole, r, _⟩ ← operations power left r
  return ⟨whole, r, by omega⟩
termination_by 16 * ts.length + 4

/-- Binary operations to the right of `left`, as long as their operators hold more firmly than
`power`. -/
def operations (power : Nat) (left : Node) (ts : List Node) : Skims Node ts := do
  match binaryPower? (front ts) with
  | none => return ⟨left, ts, by omega⟩
  | some (onLeft, onRight) =>
    if power < onLeft then
      let ⟨operator, r, _⟩ ← take ts
      let ⟨right, r, _⟩ ← expression onRight r
      let whole := Node.construct "binary_expression"
        [left.inField "left", operator.inField "operator", right.inField "right"]
      let ⟨whole, r, _⟩ ← operations power whole r
      return ⟨whole, r, by omega⟩
    else return ⟨left, ts, by omega⟩
termination_by 16 * ts.length

/-- An expression without binary operators at its top. -/
def operand (ts : List Node) : Reads Node ts := do
  let kind := front ts
  if isUnary kind then
    let ⟨operator, r, _⟩ ← take ts
    let ⟨argument, r, _⟩ ← expression unaryPower r
    return ⟨Node.construct "unary_expression" [operator, argument], r, by omega⟩
  else match kind with
    | "nil" | "true" | "false" =>
      let ⟨word, r, _⟩ ← take ts
      return ⟨asLeaf word.kind word, r, by omega⟩
    | "..." =>
      let ⟨dots, r, _⟩ ← take ts
      return ⟨asLeaf "vararg_expression" dots, r, by omega⟩
    | "number" | "string" => take ts
    | "function" =>
      let ⟨word, r, _⟩ ← take ts
      let ⟨parts, r, _⟩ ← functionBody r
      return ⟨Node.construct "function_definition" (word :: parts), r, by omega⟩
    | "\x7b" => table ts
    | _ => prefixExpression ts
termination_by 16 * ts.length + 3

/-- A variable, a call, or an expression in parentheses. -/
def prefixExpression (ts : List Node) : Reads Node ts := do
  let ⟨head, r, _⟩ ← (do
    match front ts with
    | "identifier" =>
      let ⟨n, r, _⟩ ← take ts
      return ⟨asVariable n, r, by omega⟩
    | _ =>
      let ⟨opening, r, _⟩ ← expect "(" ts
      let ⟨inner, r, _⟩ ← expression 0 r
      let ⟨closing, r, _⟩ ← expect ")" r
      return ⟨Node.construct "parenthesized_expression" [opening, inner, closing], r, by omega⟩
    : Reads Node ts)
  let ⟨whole, r, _⟩ ← suffixes head r
  return ⟨whole, r, by omega⟩
termination_by 16 * ts.length + 2

/-- Indexes, fields, methods and arguments to the right of `head`. -/
def suffixes (head : Node) (ts : List Node) : Skims Node ts := do
  match front ts with
  | "." =>
    let ⟨dot, r, _⟩ ← take ts
    let ⟨n, r, _⟩ ← name r
    let ⟨whole, r, _⟩ ← suffixes (Node.construct "dot_index_expression" [head, dot, n]) r
    return ⟨whole, r, by omega⟩
  | "[" =>
    let ⟨opening, r, _⟩ ← take ts
    let ⟨index, r, _⟩ ← expression 0 r
    let ⟨closing, r, _⟩ ← expect "]" r
    let ⟨whole, r, _⟩ ←
      suffixes (Node.construct "bracket_index_expression" [head, opening, index, closing]) r
    return ⟨whole, r, by omega⟩
  | ":" =>
    let ⟨colon, r, _⟩ ← take ts
    let ⟨n, r, _⟩ ← name r
    let ⟨given, r, _⟩ ← arguments r
    let method := Node.construct "method_index_expression" [head, colon, n]
    let ⟨whole, r, _⟩ ← suffixes (Node.construct "function_call" [method, given]) r
    return ⟨whole, r, by omega⟩
  | "(" | "string" | "\x7b" =>
    let ⟨given, r, _⟩ ← arguments ts
    let ⟨whole, r, _⟩ ← suffixes (Node.construct "function_call" [head, given]) r
    return ⟨whole, r, by omega⟩
  | _ => return ⟨head, ts, by omega⟩
termination_by 16 * ts.length + 2

/-- The arguments of a call: a list in parentheses, one string or one table. -/
def arguments (ts : List Node) : Reads Node ts := do
  match front ts with
  | "string" =>
    let ⟨text, r, _⟩ ← take ts
    return ⟨Node.construct "arguments" [text], r, by omega⟩
  | "\x7b" =>
    let ⟨fields, r, _⟩ ← table ts
    return ⟨Node.construct "arguments" [fields], r, by omega⟩
  | _ =>
    let ⟨opening, r, _⟩ ← expect "(" ts
    let ⟨given, r, _⟩ ← (do
      if front r = ")" then return ⟨[], r, by omega⟩
      else
        let ⟨given, q, _⟩ ← expressions r
        return ⟨given, q, by omega⟩ : Skims (List Node) r)
    let ⟨closing, r, _⟩ ← expect ")" r
    return ⟨Node.construct "arguments" (opening :: given ++ [closing]), r, by omega⟩
termination_by 16 * ts.length + 1

/-- Expressions with commas between them. -/
def expressions (ts : List Node) : Reads (List Node) ts := do
  let ⟨first, r, _⟩ ← expression 0 ts
  if front r = "," then
    let ⟨comma, r, _⟩ ← take r
    let ⟨more, r, _⟩ ← expressions r
    return ⟨first :: comma :: more, r, by omega⟩
  else return ⟨[first], r, by omega⟩
termination_by 16 * ts.length + 5

/-- A table. -/
def table (ts : List Node) : Reads Node ts := do
  let ⟨opening, r, _⟩ ← expect "\x7b" ts
  let ⟨inner, r, _⟩ ← fields r
  let ⟨closing, r, _⟩ ← expect "\x7d" r
  return ⟨Node.construct "table_constructor" (opening :: inner ++ [closing]), r, by omega⟩
termination_by 16 * ts.length

/-- The fields of a table, up to its closing brace. A separator may follow the last one. -/
def fields (ts : List Node) : Skims (List Node) ts := do
  if front ts = "\x7d" then return ⟨[], ts, by omega⟩
  else
    let ⟨one, r, _⟩ ← tableField ts
    if front r = "," || front r = ";" then
      let ⟨separator, r, _⟩ ← take r
      let ⟨more, r, _⟩ ← fields r
      return ⟨one :: separator :: more, r, by omega⟩
    else return ⟨[one], r, by omega⟩
termination_by 16 * ts.length + 7

/-- One field of a table: an index and a value, a name and a value, or a value alone. -/
def tableField (ts : List Node) : Reads Node ts := do
  if front ts = "[" then
    let ⟨opening, r, _⟩ ← take ts
    let ⟨index, r, _⟩ ← expression 0 r
    let ⟨closing, r, _⟩ ← expect "]" r
    let ⟨equals, r, _⟩ ← expect "=" r
    let ⟨value, r, _⟩ ← expression 0 r
    return ⟨Node.construct "field" [opening, index, closing, equals, value], r, by omega⟩
  else if front ts = "identifier" && front (ts.drop 1) = "=" then
    let ⟨n, r, _⟩ ← take ts
    let ⟨equals, r, _⟩ ← expect "=" r
    let ⟨value, r, _⟩ ← expression 0 r
    return ⟨Node.construct "field" [n, equals, value], r, by omega⟩
  else
    let ⟨value, r, _⟩ ← expression 0 ts
    return ⟨Node.construct "field" [value], r, by omega⟩
termination_by 16 * ts.length + 6

/-- The parameters, the body and the `end` of a function. -/
def functionBody (ts : List Node) : Reads (List Node) ts := do
  let ⟨given, r, _⟩ ← parameters ts
  let ⟨statements, r, _⟩ ← block r
  let ⟨last, r, _⟩ ← expect "end" r
  return ⟨given :: body statements ++ [last], r, by omega⟩
termination_by 16 * ts.length

/-- Statements up to a word that closes a block, or to the end. `return` is always the last. -/
def block (ts : List Node) : Skims (List Node) ts := do
  match front ts with
  | "" | "end" | "else" | "elseif" | "until" => return ⟨[], ts, by omega⟩
  | "return" =>
    let ⟨last, r, _⟩ ← returnStatement ts
    return ⟨[last], r, by omega⟩
  | _ =>
    let ⟨one, r, _⟩ ← statement ts
    let ⟨more, r, _⟩ ← block r
    return ⟨one :: more, r, by omega⟩
termination_by 16 * ts.length + 9

/-- `return` with its values and perhaps a semicolon. -/
def returnStatement (ts : List Node) : Reads Node ts := do
  let ⟨word, r, _⟩ ← expect "return" ts
  let ⟨values, r, _⟩ ← (do
    match front r with
    | "" | "end" | "else" | "elseif" | "until" | ";" => return ⟨[], r, by omega⟩
    | _ =>
      let ⟨values, q, _⟩ ← expressions r
      return ⟨[Node.construct "expression_list" values], q, by omega⟩ : Skims (List Node) r)
  if front r = ";" then
    let ⟨semicolon, r, _⟩ ← take r
    return ⟨Node.construct "return_statement" (word :: values ++ [semicolon]), r, by omega⟩
  else return ⟨Node.construct "return_statement" (word :: values), r, by omega⟩
termination_by 16 * ts.length

/-- Any statement but `return`. -/
def statement (ts : List Node) : Reads Node ts := do
  match front ts with
  | ";" =>
    let ⟨mark, r, _⟩ ← take ts
    return ⟨Node.construct "empty_statement" [mark], r, by omega⟩
  | "break" =>
    let ⟨word, r, _⟩ ← take ts
    return ⟨asLeaf "break_statement" word, r, by omega⟩
  | "goto" =>
    let ⟨word, r, _⟩ ← take ts
    let ⟨n, r, _⟩ ← name r
    return ⟨Node.construct "goto_statement" [word, n], r, by omega⟩
  | "::" =>
    let ⟨opening, r, _⟩ ← take ts
    let ⟨n, r, _⟩ ← name r
    let ⟨closing, r, _⟩ ← expect "::" r
    return ⟨Node.construct "label_statement" [opening, n, closing], r, by omega⟩
  | "do" =>
    let ⟨word, r, _⟩ ← take ts
    let ⟨statements, r, _⟩ ← block r
    let ⟨last, r, _⟩ ← expect "end" r
    return ⟨Node.construct "do_statement" (word :: body statements ++ [last]), r, by omega⟩
  | "while" =>
    let ⟨word, r, _⟩ ← take ts
    let ⟨condition, r, _⟩ ← expression 0 r
    let ⟨doWord, r, _⟩ ← expect "do" r
    let ⟨statements, r, _⟩ ← block r
    let ⟨last, r, _⟩ ← expect "end" r
    return ⟨Node.construct "while_statement"
      (word :: condition :: doWord :: body statements ++ [last]), r, by omega⟩
  | "repeat" =>
    let ⟨word, r, _⟩ ← take ts
    let ⟨statements, r, _⟩ ← block r
    let ⟨untilWord, r, _⟩ ← expect "until" r
    let ⟨condition, r, _⟩ ← expression 0 r
    return ⟨Node.construct "repeat_statement"
      (word :: body statements ++ [untilWord, condition]), r, by omega⟩
  | "if" =>
    let ⟨word, r, _⟩ ← take ts
    let ⟨condition, r, _⟩ ← expression 0 r
    let ⟨thenWord, r, _⟩ ← expect "then" r
    let ⟨statements, r, _⟩ ← block r
    let ⟨others, r, _⟩ ← alternatives r
    let ⟨last, r, _⟩ ← expect "end" r
    return ⟨Node.construct "if_statement"
      (word :: condition :: thenWord :: body statements ++ others ++ [last]), r, by omega⟩
  | "for" =>
    let ⟨word, r, _⟩ ← take ts
    let ⟨clause, r, _⟩ ← forClause r
    let ⟨doWord, r, _⟩ ← expect "do" r
    let ⟨statements, r, _⟩ ← block r
    let ⟨last, r, _⟩ ← expect "end" r
    return ⟨Node.construct "for_statement"
      (word :: clause :: doWord :: body statements ++ [last]), r, by omega⟩
  | "function" =>
    let ⟨word, r, _⟩ ← take ts
    let ⟨n, r, _⟩ ← name r
    let ⟨whole, r, _⟩ ← functionNameTail n r
    let ⟨parts, r, _⟩ ← functionBody r
    return ⟨Node.construct "function_declaration" (word :: whole :: parts), r, by omega⟩
  | "local" =>
    let ⟨word, r, _⟩ ← take ts
    let ⟨whole, r, _⟩ ← declaration word r
    return ⟨whole, r, by omega⟩
  | _ =>
    if declaresGlobals ts then
      let ⟨t, r, _⟩ ← take ts
      let word := asVariable t
      let ⟨attrs, q, _⟩ ← attributes r
      if front q = "*" then
        let ⟨star, q, _⟩ ← take q
        return ⟨Node.construct "implicit_variable_declaration" (word :: attrs ++ [star]), q,
          by omega⟩
      else
        let ⟨whole, r, _⟩ ← declaration word r
        return ⟨whole, r, by omega⟩
    else assignmentOrCall ts
termination_by 16 * ts.length + 8

/-- What follows `local` or `global`: a function, or names and perhaps their values. -/
def declaration (word : Node) (ts : List Node) : Reads Node ts := do
  if front ts = "function" then
    let ⟨functionWord, r, _⟩ ← take ts
    let ⟨n, r, _⟩ ← name r
    let ⟨parts, r, _⟩ ← functionBody r
    return ⟨Node.construct "function_declaration" (word :: functionWord :: n :: parts), r, by omega⟩
  else
    let ⟨attrs, r, _⟩ ← attributes ts
    let ⟨names, r, _⟩ ← declaredNames r
    let targets := Node.construct "variable_list" (attrs ++ names)
    if front r = "=" then
      let ⟨equals, r, _⟩ ← take r
      let ⟨values, r, _⟩ ← expressions r
      let assignment := Node.construct "assignment_statement"
        [targets, equals, Node.construct "expression_list" values]
      return ⟨Node.construct "variable_declaration" [word, assignment], r, by omega⟩
    else return ⟨Node.construct "variable_declaration" [word, targets], r, by omega⟩
termination_by 16 * ts.length + 1

/-- The branches of a conditional after the first. -/
def alternatives (ts : List Node) : Skims (List Node) ts := do
  match front ts with
  | "elseif" =>
    let ⟨word, r, _⟩ ← take ts
    let ⟨condition, r, _⟩ ← expression 0 r
    let ⟨thenWord, r, _⟩ ← expect "then" r
    let ⟨statements, r, _⟩ ← block r
    let ⟨others, r, _⟩ ← alternatives r
    let branch := Node.construct "elseif_statement"
      (word :: condition :: thenWord :: body statements)
    return ⟨branch :: others, r, by omega⟩
  | "else" =>
    let ⟨word, r, _⟩ ← take ts
    let ⟨statements, r, _⟩ ← block r
    return ⟨[Node.construct "else_statement" (word :: body statements)], r, by omega⟩
  | _ => return ⟨[], ts, by omega⟩
termination_by 16 * ts.length

/-- What a `for` loop runs over: numbers from one to another, or the values of an iterator. -/
def forClause (ts : List Node) : Reads Node ts := do
  let ⟨first, r, _⟩ ← name ts
  if front r = "=" then
    let ⟨equals, r, _⟩ ← take r
    let ⟨low, r, _⟩ ← expression 0 r
    let ⟨comma, r, _⟩ ← expect "," r
    let ⟨high, r, _⟩ ← expression 0 r
    if front r = "," then
      let ⟨secondComma, r, _⟩ ← take r
      let ⟨stride, r, _⟩ ← expression 0 r
      return ⟨Node.construct "for_numeric_clause"
        [first, equals, low, comma, high, secondComma, stride], r, by omega⟩
    else return ⟨Node.construct "for_numeric_clause" [first, equals, low, comma, high], r, by omega⟩
  else
    let ⟨more, r, _⟩ ← moreNames r
    let ⟨inWord, r, _⟩ ← expect "in" r
    let ⟨values, r, _⟩ ← expressions r
    return ⟨Node.construct "for_generic_clause"
      [Node.construct "variable_list" (first :: more), inWord,
       Node.construct "expression_list" values], r, by omega⟩
termination_by 16 * ts.length

/-- A statement that starts with a prefix expression: a call, or an assignment to variables. -/
def assignmentOrCall (ts : List Node) : Reads Node ts := do
  let ⟨first, r, _⟩ ← prefixExpression ts
  if first.kind = "function_call" then return ⟨first, r, by omega⟩
  else if first.kind = "parenthesized_expression" then throw (obstacle r)
  else
    let ⟨more, r, _⟩ ← moreTargets r
    let ⟨equals, r, _⟩ ← expect "=" r
    let ⟨values, r, _⟩ ← expressions r
    return ⟨Node.construct "assignment_statement"
      [Node.construct "variable_list" (first :: more), equals,
       Node.construct "expression_list" values], r, by omega⟩
termination_by 16 * ts.length + 7

/-- The targets of an assignment after the first. -/
def moreTargets (ts : List Node) : Skims (List Node) ts := do
  if front ts = "," then
    let ⟨comma, r, _⟩ ← take ts
    let ⟨target, r, _⟩ ← prefixExpression r
    if target.kind = "function_call" || target.kind = "parenthesized_expression" then
      throw (obstacle r)
    let ⟨more, r, _⟩ ← moreTargets r
    return ⟨comma :: target :: more, r, by omega⟩
  else return ⟨[], ts, by omega⟩
termination_by 16 * ts.length

end

/-- All tokens of a text as the children of its root. -/
def chunk (ts : List Node) : Except Obstacle (List Node) := do
  let (opening, ts) := match ts with
    | t :: rest => if t.kind = "hash_bang_line" then ([t], rest) else ([], ts)
    | [] => ([], ts)
  let ⟨statements, rest, _⟩ ← block ts
  if rest.isEmpty then return opening ++ statements else throw (obstacle rest)

end LuaLint.Lua
