/-!
# Numbers of 64 bits

A binary floating-point number of 64 bits as exact data: a sign, a significand below 2^53 and a power
of two, or an infinity, or not a number. `Binary64.ofDecimal` gives the number nearest to a decimal;
of two equally near ones it takes the one with an even significand. All of it is arithmetic on whole
numbers.
-/

namespace LuaLint.Decimal

/-- A binary floating-point number. -/
inductive Binary64
  /-- The number ± significand · 2^quantum. -/
  | finite (negative : Bool) (significand : Nat) (quantum : Int)
  | infinite (negative : Bool)
  | notANumber
deriving Repr, DecidableEq, Inhabited

/-- The whole number nearest to a quotient; of two equally near ones, the even one. -/
def roundQuotient (numerator denominator : Nat) : Nat :=
  let floor := numerator / denominator
  let rest := 2 * (numerator % denominator)
  if rest < denominator || (rest == denominator && floor % 2 == 0) then floor else floor + 1

/-- The quotient over a power of `base`: `numerator / (denominator * base ^ power)`, as a numerator
and a denominator. -/
def overPower (base : Nat) (power : Int) (numerator denominator : Nat) : Nat × Nat :=
  match power with
  | .ofNat n => (numerator, denominator * base.pow n)
  | .negSucc n => (numerator * base.pow (n + 1), denominator)

namespace Binary64

/-- The least quantum, which the smallest numbers share. -/
def leastQuantum : Int := -1074

/-- The greatest quantum of a finite number. -/
def greatestQuantum : Int := 971

/-- How many bits a significand has at most. -/
def precision : Nat := 53

/-- The number nearest to a quotient. -/
def ofQuotient (negative : Bool) (numerator denominator : Nat) : Binary64 :=
  let significandAt (quantum : Int) : Nat :=
    let (n, d) := overPower 2 quantum numerator denominator
    n / d
  let estimate : Int := numerator.log2 - denominator.log2 - precision
  let quantum := if significandAt estimate < Nat.pow 2 precision then estimate else estimate + 1
  let quantum := max quantum leastQuantum
  let (n, d) := overPower 2 quantum numerator denominator
  let significand := roundQuotient n d
  let (significand, quantum) :=
    if significand = Nat.pow 2 precision then (Nat.pow 2 (precision - 1), quantum + 1)
    else (significand, quantum)
  if greatestQuantum < quantum then infinite negative else finite negative significand quantum

/-- The number nearest to `± digits · 10^exponent`. Numbers that are out of range by far are decided
by their size alone. -/
def ofDecimal (negative : Bool) (digits : Nat) (exponent : Int) : Binary64 :=
  let size : Int := (Nat.toDigits 10 digits).length + exponent
  if digits = 0 || size < -330 then finite negative 0 leastQuantum
  else if 310 < size then infinite negative
  else
    let (n, d) := overPower 10 (-exponent) digits 1
    ofQuotient negative n d

end Binary64

end LuaLint.Decimal
