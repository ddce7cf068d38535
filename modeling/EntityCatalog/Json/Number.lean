/-!
# Numbers of JSON documents

A number without fraction and exponent that fits into sixty-four bits, signed
or unsigned, is a whole number.  Every other number is a double.  It is
computed from a significand of at most sixty-four bits, further digits being
dropped, by one multiplication or division with a power of ten; a number
whose magnitude exceeds the doubles has no value.
-/

namespace EntityCatalog.Json

/-- The value of a number. -/
inductive Number where
  | integer (value : Int)
  | float (value : Float)

/-- A number as it is spelled. -/
structure Numeral where
  negative : Bool
  whole : List Char
  fraction : Option (List Char)
  exponent : Option Int

/-- The largest significand, which has sixty-four bits. -/
def largestSignificand : Nat := UInt64.size - 1

/-- Append digits to a significand as long as it stays in bounds, and return
the digits left over. -/
def absorb (significand : Nat) : List Char → Nat × List Char
  | [] => (significand, [])
  | digit :: rest =>
    let longer := significand * 10 + (digit.toNat - '0'.toNat)
    if longer ≤ largestSignificand then absorb longer rest
    else (significand, digit :: rest)

/-- A power of ten as a double. -/
def powerOfTen (exponent : Nat) : Float :=
  Float.ofScientific 1 false exponent

/-- Multiply by a power of ten; nothing when the result is too large.  A
division beyond `10 ^ 308` takes several rounds, of which the third finds
zero. -/
def scale : Nat → Float → Int → Option Float
  | 0, value, _ => some value
  | rounds + 1, value, exponent =>
    if exponent.natAbs ≤ 308 then
      if 0 ≤ exponent then
        let product := value * powerOfTen exponent.natAbs
        if product.isFinite then some product else none
      else some (value / powerOfTen exponent.natAbs)
    else if value == 0 then some value
    else if 0 ≤ exponent then none
    else scale rounds (value / powerOfTen 308) (exponent + 308)

/-- Put a sign in front of a double. -/
def signed (negative : Bool) (value : Float) : Float :=
  if negative then -value else value

/-- The double that a numeral spells. -/
def Numeral.float? (numeral : Numeral) : Option Float :=
  let (whole, dropped) := absorb 0 numeral.whole
  let digits := numeral.fraction.getD []
  let (significand, ignored) := absorb whole digits
  let places : Int := dropped.length - (digits.length - ignored.length : Nat)
  (scale 4 (Float.ofNat significand) (places + numeral.exponent.getD 0)).map
    (signed numeral.negative)

/-- The value of a numeral, if it is in range. -/
def Numeral.value? (numeral : Numeral) : Option Number :=
  let (whole, dropped) := absorb 0 numeral.whole
  if numeral.fraction.isNone && numeral.exponent.isNone && dropped.isEmpty then
    if !numeral.negative then some (.integer whole)
    else if whole ≠ 0 ∧ whole ≤ Nat.pow 2 63 then some (.integer (-whole))
    else some (.float (-Float.ofNat whole))
  else numeral.float?.map .float

/-- Digits at the start of a text, and the rest. -/
def readDigits (text : List Char) : List Char × List Char :=
  (text.takeWhile Char.isDigit, text.dropWhile Char.isDigit)

/-- The digits after a point, where one stands.  Nothing when a point is not
followed by a digit. -/
def readFraction? : List Char → Option (Option (List Char) × List Char)
  | '.' :: text =>
    match readDigits text with
    | ([], _) => none
    | (digits, rest) => some (some digits, rest)
  | text => some (none, text)

/-- The digits of an exponent with its sign. -/
def readExponentDigits? (negative : Bool) (text : List Char) :
    Option (Option Int × List Char) :=
  match readDigits text with
  | ([], _) => none
  | (digits, rest) =>
    let magnitude : Int := Nat.ofDigitChars 10 digits 0
    some (some (if negative then -magnitude else magnitude), rest)

/-- The exponent, where one stands.  Nothing when its mark is not followed by a
digit. -/
def readExponent? : List Char → Option (Option Int × List Char)
  | 'e' :: '-' :: text | 'E' :: '-' :: text => readExponentDigits? true text
  | 'e' :: '+' :: text | 'E' :: '+' :: text => readExponentDigits? false text
  | 'e' :: text | 'E' :: text => readExponentDigits? false text
  | text => some (none, text)

/-- A sign at the start of a text, and the rest. -/
def readSign : List Char → Bool × List Char
  | '-' :: text => (true, text)
  | text => (false, text)

/-- The numeral at the start of a text, and the rest.  A whole part of several
digits does not start with zero. -/
def readNumeral? (text : List Char) : Option (Numeral × List Char) := do
  let (negative, text) := readSign text
  let (whole, text) := readDigits text
  match whole with
  | [] => none
  | '0' :: _ :: _ => none
  | _ =>
    let (fraction, text) ← readFraction? text
    let (exponent, text) ← readExponent? text
    return (⟨negative, whole, fraction, exponent⟩, text)

end EntityCatalog.Json
