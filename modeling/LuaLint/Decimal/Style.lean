import LuaLint.Decimal.Shortest

/-!
# Writing decimals

How a binary number is written, given its shortest decimal: in positional notation within a range of
exponents, else with a mark and an exponent. The choices are the fields of a `Style`, and
`Style.write` is the one function that follows them.
-/

namespace LuaLint.Decimal

/-- The choices in writing a number. -/
structure Style where
  /-- The least exponent of the first digit that is written positionally. -/
  leastPositional : Int
  /-- The greatest exponent of the first digit that is written positionally. -/
  greatestPositional : Int
  /-- What follows a whole number in positional notation. -/
  wholeEnding : String
  /-- What stands before an exponent. -/
  exponentMark : String
  /-- How many digits an exponent has at least. Its sign is always written. -/
  exponentWidth : Nat
  infinity : String
  notANumber : String

/-- Positional notation from 0.0001 to below 10^16, with `.0` after whole numbers; other numbers as
in `1e+16` and `1e-05`. -/
def Style.plain : Style :=
  { leastPositional := -4, greatestPositional := 15, wholeEnding := ".0", exponentMark := "e"
    exponentWidth := 2, infinity := "inf", notANumber := "nan" }

/-- The decimal digits of a number, with zeros in front up to the width. -/
def paddedDigits (width n : Nat) : List Char :=
  let digits := Nat.toDigits 10 n
  List.replicate (width - digits.length) '0' ++ digits

/-- The digits without the zeros at their end. -/
def withoutTrailingZeros (digits : List Char) : List Char :=
  (digits.reverse.dropWhile (· == '0')).reverse

namespace Style

/-- A number whose first digit has the given exponent, in positional notation. -/
def positional (s : Style) (digits : List Char) (leading : Int) : List Char :=
  if leading < 0 then
    '0' :: '.' :: List.replicate (-leading - 1).toNat '0' ++ digits
  else
    let whole := digits.take (leading.toNat + 1)
    let zeros := List.replicate (leading.toNat + 1 - whole.length) '0'
    let fraction := digits.drop (leading.toNat + 1)
    whole ++ zeros ++ if fraction.isEmpty then s.wholeEnding.toList else '.' :: fraction

/-- A number whose first digit has the given exponent, with the exponent written out. -/
def scientific (s : Style) (digits : List Char) (leading : Int) : List Char :=
  let fraction := digits.drop 1
  digits.take 1 ++ (if fraction.isEmpty then [] else '.' :: fraction) ++ s.exponentMark.toList
    ++ [if leading < 0 then '-' else '+'] ++ paddedDigits s.exponentWidth leading.natAbs

/-- A number as text. -/
def write (s : Style) (x : Binary64) : String :=
  let signed (negative : Bool) (text : List Char) : String :=
    String.ofList (if negative then '-' :: text else text)
  match x with
  | .notANumber => s.notANumber
  | .infinite negative => signed negative s.infinity.toList
  | .finite negative 0 _ => signed negative ('0' :: s.wholeEnding.toList)
  | .finite negative significand quantum =>
    let d := shortest significand quantum
    let all := Nat.toDigits 10 d.digits
    let leading := d.exponent + all.length - 1
    let digits := withoutTrailingZeros all
    signed negative <|
      if s.leastPositional ≤ leading && leading ≤ s.greatestPositional then
        s.positional digits leading
      else s.scientific digits leading

end Style

end LuaLint.Decimal
