import LuaLint.Text.Blank
import LuaLint.Text.CaseTable

/-!
# Lower case

Lower-casing maps each character by itself, with two exceptions. The dotted capital I becomes two
characters, an `i` and a combining dot. The capital sigma becomes the final sigma at the end of a
word and the medial one elsewhere. **A word ends** where a letter comes before and none after, when
the characters that case rules pass over (accents, apostrophes) are left out of account.
-/

namespace LuaLint.Text

/-- The character of a run that `n` maps to, if the run holds `n`. -/
def LowerRun.image? (r : LowerRun) (n : Nat) : Option Nat :=
  if r.first ≤ n && n ≤ r.last && (n - r.first) % r.stride == 0 then some (n + r.offset).toNat
  else none

/-- The lower-case form of a character, whatever stands around it. -/
def lowerChar (c : Char) : Char :=
  match lowerRuns.findSome? (·.image? c.toNat) with
  | some n => Char.ofNat n
  | none => c

/-- The first character that case rules do not pass over is a letter with case. -/
def meetsCased (text : List Char) : Bool :=
  match text.dropWhile fun c => covers caseIgnorableIntervals c.toNat with
  | c :: _ => covers casedIntervals c.toNat
  | [] => false

/-- Lower-cases a text, where `before` holds what precedes it, nearest first. -/
def lowerAfter (before : List Char) : List Char → List Char
  | [] => []
  | 'İ' :: rest => 'i' :: '\u0307' :: lowerAfter ('İ' :: before) rest
  | 'Σ' :: rest =>
    (if meetsCased before && !meetsCased rest then 'ς' else 'σ') :: lowerAfter ('Σ' :: before) rest
  | c :: rest => lowerChar c :: lowerAfter (c :: before) rest

/-- The text in lower case. -/
def lower (text : List Char) : List Char := lowerAfter [] text

/-- A string in lower case. -/
def lowercase (text : String) : String := String.ofList (lower text.toList)

end LuaLint.Text
