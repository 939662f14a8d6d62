/-!
# UTF-8

Bytes are cut into **pieces** from left to right: a piece is either the encoding of one character or
the longest run of bytes that could have begun an encoding and did not go on as one. The second kind
is at least one byte long, so cutting always makes progress. Strict decoding succeeds when every
piece is a character; lenient decoding puts U+FFFD in the place of each piece that is not.

The cutting follows the table of well-formed sequences of the Unicode standard: overlong forms,
surrogates and values above U+10FFFF are no encodings.
-/

namespace LuaLint.Utf8

/-- The ranges in which the bytes after a lead byte lie; `none` for a byte that leads nothing. -/
def continuation (lead : UInt8) : Option (List (UInt8 × UInt8)) :=
  let any : UInt8 × UInt8 := (0x80, 0xBF)
  if lead < 0x80 then some []
  else if lead < 0xC2 then none
  else if lead < 0xE0 then some [any]
  else if lead = 0xE0 then some [(0xA0, 0xBF), any]
  else if lead = 0xED then some [(0x80, 0x9F), any]
  else if lead < 0xF0 then some [any, any]
  else if lead = 0xF0 then some [(0x90, 0xBF), any, any]
  else if lead < 0xF4 then some [any, any, any]
  else if lead = 0xF4 then some [(0x80, 0x8F), any, any]
  else none

/-- How many of the given ranges the bytes meet before the first that they miss. -/
def matching : List (UInt8 × UInt8) → List UInt8 → Nat
  | (lo, hi) :: ranges, b :: bytes => if lo ≤ b && b ≤ hi then matching ranges bytes + 1 else 0
  | _, _ => 0

/-- The bits that a lead byte contributes, when `n` bytes follow it. -/
def leadBits (lead : UInt8) : Nat → Nat
  | 0 => lead.toNat
  | 1 => lead.toNat % 0x20
  | 2 => lead.toNat % 0x10
  | _ => lead.toNat % 0x08

/-- The number that a lead byte and its continuation bytes encode. -/
def scalar (lead : UInt8) (tail : List UInt8) : Nat :=
  tail.foldl (fun value b => value * 0x40 + b.toNat % 0x40) (leadBits lead tail.length)

/-- The first piece of `lead :: rest`: its character, if it is one, and how many bytes of `rest`
belong to it. -/
def piece (lead : UInt8) (rest : List UInt8) : Option Char × Nat :=
  match continuation lead with
  | none => (none, 0)
  | some ranges =>
    let n := matching ranges rest
    if n = ranges.length then (some (Char.ofNat (scalar lead (rest.take n))), n) else (none, n)

/-- All pieces of a text; `none` stands for one that is no character. -/
def pieces : List UInt8 → List (Option Char)
  | [] => []
  | lead :: rest =>
    let p := piece lead rest
    p.1 :: pieces (rest.drop p.2)
termination_by bytes => bytes.length
decreasing_by simp only [List.length_drop, List.length_cons]; omega

/-- Strict decoding: `none` unless all of the bytes are the encoding of a text. -/
def decode? (bytes : List UInt8) : Option (List Char) :=
  (pieces bytes).mapM id

/-- Lenient decoding: each piece that is no character is read as U+FFFD. -/
def decodeLenient (bytes : List UInt8) : List Char :=
  (pieces bytes).map (·.getD '\uFFFD')

/-- The encoding of a text. -/
def encode (text : String) : List UInt8 :=
  text.toUTF8.toList

end LuaLint.Utf8
