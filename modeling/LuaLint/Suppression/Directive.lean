import LuaLint.Suppression.RuleSet
import LuaLint.Text.Utf8

/-!
# Directives

A directive is written in a line as `--`, the name `moonlint:` and a keyword, then perhaps a colon and
a list of rule ids. `noqa` is about its line and `disable-file` about the whole file. Blanks may stand
after `--` and after each colon, and the case of letters does not matter.

**The first match in a line counts**, and anything may follow it: a keyword that goes on as a longer
word, or a colon without an id after it, leaves a directive about all rules. The search is in the
text of the line and does not ask whether the match lies in a comment.
-/

namespace LuaLint.Directive

/-- What a directive is about. -/
inductive Scope
  | line
  | file
deriving Repr, DecidableEq

/-- The keyword of a scope. -/
def Scope.keyword : Scope → String
  | line => "noqa"
  | file => "disable-file"

/-! ## Characters -/

/-- The small ASCII letter that a character is compared as: letters without regard to case, the two
letters `i` without and with a dot of the Turkic alphabets, the long `s` and the sign for kelvin. -/
def fold (c : Char) : Char :=
  if 'A' ≤ c && c ≤ 'Z' then c.toLower
  else match c with
    | '\u0130' | '\u0131' => 'i'
    | '\u017f' => 's'
    | '\u212a' => 'k'
    | other => other

/-- The character can begin a list of ids. -/
def isIdChar (c : Char) : Bool :=
  let f := fold c
  ('a' ≤ f && f ≤ 'z') || ('0' ≤ c && c ≤ '9') || c == '_'

/-- The character can stand in a list of ids. -/
def isListChar (c : Char) : Bool :=
  isIdChar c || c == ',' || Text.isBlank c

/-! ## Matching -/

/-- What follows a word at the front of the text. -/
def afterWord : List Char → List Char → Option (List Char)
  | [], text => some text
  | w :: word, c :: text => if fold c = w then afterWord word text else none
  | _ :: _, [] => none

/-- The text without the blanks at its front. -/
def skipBlanks (text : List Char) : List Char := text.dropWhile Text.isBlank

/-- The list of ids after a keyword, if there is one. -/
def list? : List Char → Option (List Char)
  | ':' :: text =>
    match skipBlanks text with
    | c :: rest => if isIdChar c then some ((c :: rest).takeWhile isListChar) else none
    | [] => none
  | _ => none

/-- The directive at the front of the text: the rules that it is about. -/
def atFront? (scope : Scope) (text : List Char) : Option RuleSet := do
  let text ← afterWord ['-', '-'] text
  let text ← afterWord "moonlint:".toList (skipBlanks text)
  let text ← afterWord scope.keyword.toList (skipBlanks text)
  return RuleSet.ofList (list? text)

/-- The first directive in a text. -/
def find? (scope : Scope) : List Char → Option RuleSet
  | [] => none
  | c :: text => match atFront? scope (c :: text) with
    | some rules => some rules
    | none => find? scope text

/-- The first directive in a line of a source. -/
def inLine? (scope : Scope) (line : List UInt8) : Option RuleSet :=
  find? scope (Utf8.decodeLenient line)

end LuaLint.Directive
