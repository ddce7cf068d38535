import EntityCatalog.Decimal.Shortest

/-!
# Written doubles

How a double is laid out as text once its shortest digits are known.  The
layout is a record of choices: which magnitudes are written positionally,
whether a whole number carries a mark, and how ties between equally short
decimals go.

Two layouts are used.  `FloatLayout.plain` never writes an exponent and never
marks whole numbers.  `FloatLayout.document` is the one of JSON documents: it
marks whole numbers with `.0` and goes over to an exponent for very large and
very small magnitudes.
-/

namespace EntityCatalog

/-- The choices that turn shortest digits into text. -/
structure FloatLayout where
  tie : Decimal.Tie
  /-- Whether a number whose first digit stands at the given place is written
  without exponent. -/
  positional : Int → Bool
  /-- What follows a whole number. -/
  wholeMark : String

namespace FloatLayout

/-- Never an exponent, no mark on whole numbers, ties go up. -/
def plain : FloatLayout := ⟨.up, fun _ => true, ""⟩

/-- The form of numbers inside JSON documents: positional from `10 ^ -5` to
below `10 ^ 16`, whole numbers end in `.0`, ties go to the even digit. -/
def document : FloatLayout :=
  ⟨.even, fun place => -5 ≤ place && place < 16, ".0"⟩

/-- A run of zeros. -/
def zeros (count : Nat) : String :=
  String.ofList (List.replicate count '0')

/-- Digits with their point, without exponent. -/
def writePositional (layout : FloatLayout) (digits : List Char) (power : Int) :
    String :=
  if 0 ≤ power then
    String.ofList digits ++ zeros power.toNat ++ layout.wholeMark
  else
    let point := digits.length + power
    if 0 < point then
      String.ofList (digits.take point.toNat) ++ "." ++
        String.ofList (digits.drop point.toNat)
    else "0." ++ zeros (-point).toNat ++ String.ofList digits

/-- One digit before the point, the others after it, then a signed exponent. -/
def writeExponent (digits : List Char) (place : Int) : String :=
  let fraction := digits.drop 1
  let point := if fraction.isEmpty then "" else "."
  let sign := if place < 0 then "-" else "+"
  String.ofList (digits.take 1) ++ point ++ String.ofList fraction ++ "e" ++
    sign ++ Nat.repr place.natAbs

/-- The text of a decimal. -/
def writeDecimal (layout : FloatLayout) (decimal : Decimal) : String :=
  let digits := Nat.toDigits 10 decimal.coefficient
  let place := decimal.power + digits.length - 1
  if layout.positional place then
    layout.writePositional digits decimal.power
  else writeExponent digits place

/-- The text of a double.  Zero keeps its sign. -/
def write (layout : FloatLayout) (number : Float) : String :=
  let sign (negative : Bool) : String := if negative then "-" else ""
  match FloatParts.ofFloat number with
  | .notANumber => "NaN"
  | .infinite negative => sign negative ++ "inf"
  | .finite negative significand exponent =>
    sign negative ++
      if significand = 0 then "0" ++ layout.wholeMark
      else layout.writeDecimal (Decimal.shortest layout.tie significand exponent)

end FloatLayout

end EntityCatalog
