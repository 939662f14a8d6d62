import LuaLint.Decimal.Binary64

/-!
# The shortest decimal of a binary number

A decimal **reads back** as a binary number if it lies in the interval of reals that are rounded to
that number; the ends belong to the interval when the significand is even. The shortest decimal has
the fewest digits among those that read back, and among these it is the nearest to the number.

It is found on grids: with `n` digits, only the multiples of one power of ten come into question, and
if any of them lies in the interval, then so does one of the two around the number.
-/

namespace LuaLint.Decimal

/-- The decimal `digits · 10^exponent`. -/
structure Digits where
  digits : Nat
  exponent : Int
deriving Repr, DecidableEq

/-- The reals that are rounded to a positive number, in quarters of its quantum. -/
structure Basin where
  low : Nat
  centre : Nat
  high : Nat
  /-- The ends belong to it. -/
  closed : Bool

/-- The basin of `significand · 2^quantum`. Below a power of two the numbers lie closer. -/
def Basin.around (significand : Nat) (quantum : Int) : Basin :=
  let lowGap :=
    if significand = Nat.pow 2 (Binary64.precision - 1) && Binary64.leastQuantum < quantum then 1
    else 2
  { low := 4 * significand - lowGap, centre := 4 * significand, high := 4 * significand + 2
    closed := significand % 2 == 0 }

/-- The quotient of `quarters · 2^(quantum - 2)` and `10^exponent`. -/
def inUnits (quantum exponent : Int) (quarters : Nat) : Nat × Nat :=
  let (n, d) := overPower 2 (2 - quantum) quarters 1
  overPower 10 exponent n d

/-- The multiple `d` of the grid `10^exponent` lies in the basin. -/
def Basin.holds (b : Basin) (quantum exponent : Int) (d : Nat) : Bool :=
  let (lowN, lowD) := inUnits quantum exponent b.low
  let (highN, highD) := inUnits quantum exponent b.high
  if b.closed then decide (lowN ≤ d * lowD) && decide (d * highD ≤ highN)
  else decide (lowN < d * lowD) && decide (d * highD < highN)

/-- The point of the grid that reads back and is nearest to the number, if one reads back. -/
def Basin.onGrid? (b : Basin) (quantum exponent : Int) : Option Nat :=
  let (n, d) := inUnits quantum exponent b.centre
  let below := n / d
  let rest := 2 * (n % d)
  let above := below + 1
  let belowFirst := rest < d || (rest == d && below % 2 == 0)
  let candidates := if belowFirst then [below, above] else [above, below]
  candidates.find? fun c => 0 < c && b.holds quantum exponent c

/-- The exponent of the first decimal digit of `numerator / denominator`, by trial from `guess`
upwards. -/
def leadingExponent (numerator denominator : Nat) (guess : Int) : Nat → Int
  | 0 => guess
  | tries + 1 =>
    let (n, d) := overPower 10 (guess + 1) numerator denominator
    if n < d then guess else leadingExponent numerator denominator (guess + 1) tries

/-- How many digits a decimal needs at most to read back. -/
def mostDigits : Nat := 17

/-- The shortest decimal of `significand · 2^quantum`. -/
def shortest (significand : Nat) (quantum : Int) : Digits :=
  let basin := Basin.around significand quantum
  let (n, d) := inUnits quantum 0 basin.centre
  let guess : Int := (Nat.toDigits 10 n).length - (Nat.toDigits 10 d).length - 1
  let leading := leadingExponent n d guess 2
  let found := (List.range mostDigits).findSome? fun (more : Nat) =>
    let exponent := leading - more
    (basin.onGrid? quantum exponent).map fun c => Digits.mk c exponent
  found.getD ⟨significand, 0⟩

end LuaLint.Decimal
