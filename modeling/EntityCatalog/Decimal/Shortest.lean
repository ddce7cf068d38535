/-!
# Shortest decimals of a double

A finite double stands for all reals that round to it.  Its shortest decimal
is the one with the fewest digits among them, and of two with equally few
digits the nearer one.  Only when both are equally near does the outcome
depend on a choice, which the caller makes.

The search is exact: for one digit, two digits and so on up to seventeen it
tests the two neighbours of the value on that decimal grid, in natural number
arithmetic.  If any grid point rounds to the double then one of these two
neighbours does.
-/

namespace EntityCatalog

/-- The number `coefficient * 10 ^ power`. -/
structure Decimal where
  coefficient : Nat
  /-- The decimal place of the last digit. -/
  power : Int
  deriving DecidableEq, Repr, Inhabited

namespace Decimal

/-- Which of two equally near decimals is taken. -/
inductive Tie where
  | even
  | up
  deriving DecidableEq, Repr

/-- Compare `left * 2 ^ binary` with `right * 10 ^ decimal`. -/
def compareScaled (left : Nat) (binary : Int) (right : Nat) (decimal : Int) :
    Ordering :=
  compare (left * Nat.pow 2 binary.toNat * Nat.pow 10 (-decimal).toNat)
    (right * Nat.pow 10 decimal.toNat * Nat.pow 2 (-binary).toNat)

/-- The reals that round to one double: an interval with bounds in units of
`2 ^ exponent`. -/
structure RoundingRange where
  lower : Nat
  upper : Nat
  /-- The binary place of the unit. -/
  exponent : Int
  /-- Whether the bounds themselves belong to the interval. -/
  closed : Bool

/-- The interval of the double `significand * 2 ^ exponent`.  Below a power of
two the neighbouring double is only half as far away. -/
def roundingRange (significand : Nat) (exponent : Int) : RoundingRange where
  lower :=
    if significand = Nat.pow 2 52 ∧ exponent > -1074 then 4 * significand - 1
    else 4 * significand - 2
  upper := 4 * significand + 2
  exponent := exponent - 2
  closed := significand % 2 = 0

/-- Whether a decimal lies in the interval. -/
def RoundingRange.holds (range : RoundingRange) (decimal : Decimal) : Bool :=
  let below := compareScaled range.lower range.exponent
    decimal.coefficient decimal.power
  let above := compareScaled range.upper range.exponent
    decimal.coefficient decimal.power
  (below = .lt || (range.closed && below = .eq)) &&
    (above = .gt || (range.closed && above = .eq))

/-- The number of decimal digits of a natural number. -/
def digitCount (number : Nat) : Nat :=
  (Nat.toDigits 10 number).length

/-- The place of the first significant digit of `numerator / denominator`. -/
def leadingPlace (numerator denominator : Nat) : Int :=
  if denominator ≤ numerator then
    digitCount (numerator / denominator) - 1
  else
    let places := digitCount denominator - digitCount numerator
    if denominator ≤ numerator * Nat.pow 10 places then -places else -(places + 1)

/-- Drop the zeros at the end of a coefficient; at most `bound` of them. -/
def trimZeros : Nat → Decimal → Decimal
  | 0, decimal => decimal
  | bound + 1, decimal =>
    if decimal.coefficient ≠ 0 ∧ decimal.coefficient % 10 = 0 then
      trimZeros bound ⟨decimal.coefficient / 10, decimal.power + 1⟩
    else decimal

/-- The decimal of the grid `10 ^ power` that stands for
`numerator / denominator`, if one of its two neighbours there rounds to the
double. -/
def onGrid (tie : Tie) (range : RoundingRange) (numerator denominator : Nat)
    (power : Int) : Option Decimal :=
  let scaledNumerator := numerator * Nat.pow 10 (-power).toNat
  let scaledDenominator := denominator * Nat.pow 10 power.toNat
  let floor := scaledNumerator / scaledDenominator
  let rest := scaledNumerator % scaledDenominator
  let lower : Decimal := ⟨floor, power⟩
  let upper : Decimal := ⟨floor + 1, power⟩
  match floor ≠ 0 && range.holds lower, range.holds upper with
  | false, false => none
  | true, false => some lower
  | false, true => some upper
  | true, true =>
    match compare (2 * rest) scaledDenominator with
    | .lt => some lower
    | .gt => some upper
    | .eq =>
      match tie with
      | .up => some upper
      | .even => some (if floor % 2 = 0 then lower else upper)

/-- The shortest decimal of the double `significand * 2 ^ exponent`, which is
not zero.  Seventeen digits always suffice. -/
def shortest (tie : Tie) (significand : Nat) (exponent : Int) : Decimal :=
  let numerator := significand * Nat.pow 2 exponent.toNat
  let denominator := Nat.pow 2 (-exponent).toNat
  let range := roundingRange significand exponent
  let leading := leadingPlace numerator denominator
  let found := (List.range 17).findSome? fun (count : Nat) =>
    onGrid tie range numerator denominator (leading - count)
  trimZeros 400 (found.getD ⟨significand, exponent⟩)

end Decimal

/-- A double taken apart. -/
inductive FloatParts where
  | notANumber
  | infinite (negative : Bool)
  /-- The number `significand * 2 ^ exponent`, with a sign of its own. -/
  | finite (negative : Bool) (significand : Nat) (exponent : Int)
  deriving DecidableEq, Repr

/-- Take a double apart, by the fields of its word. -/
def FloatParts.ofFloat (number : Float) : FloatParts :=
  let word := number.toBits.toNat
  let negative := decide (word / Nat.pow 2 63 = 1)
  let exponent : Nat := word / Nat.pow 2 52 % Nat.pow 2 11
  let fraction : Nat := word % Nat.pow 2 52
  if exponent = 2047 then
    if fraction = 0 then .infinite negative else .notANumber
  else if exponent = 0 then .finite negative fraction (-1074)
  else .finite negative (Nat.pow 2 52 + fraction) ((exponent : Int) - 1075)

end EntityCatalog
