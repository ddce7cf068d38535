import EntityCatalog.Decimal.Layout
import EntityCatalog.Json.Basic
import EntityCatalog.Text.Quoted

/-!
# Writing JSON documents

One printer with two spacings: without any blank, and with every item and
member on a line of its own, indented by two blanks a level.  An array or
object that holds nothing is written without inner space in both.
-/

namespace EntityCatalog.Json

/-- The blanks of a document: none, or lines indented by a number of blanks. -/
abbrev Spacing := Option Nat

namespace Spacing

/-- The spacing one level further in. -/
def deeper (spacing : Spacing) : Spacing :=
  spacing.map (· + 2)

/-- The start of a line. -/
def line : Spacing → List Char
  | none => []
  | some indent => '\n' :: List.replicate indent ' '

/-- What stands between a key and its value. -/
def colon : Spacing → List Char
  | none => [':']
  | some _ => [':', ' ']

end Spacing

/-- A floating-point number; one that is not finite has no JSON form and is
written as `null`. -/
def writeFloat (number : Float) : List Char :=
  if number.isFinite then (FloatLayout.document.write number).toList
  else "null".toList

/-- A whole number. -/
def writeInteger : Int → List Char
  | .ofNat number => Nat.toDigits 10 number
  | .negSucc number => '-' :: Nat.toDigits 10 (number + 1)

mutual

/-- A value. -/
def write (spacing : Spacing) : Json → List Char
  | .null => "null".toList
  | .bool true => "true".toList
  | .bool false => "false".toList
  | .integer value => writeInteger value
  | .float value => writeFloat value
  | .string value => Text.Quoted.encode value
  | .array [] => ['[', ']']
  | .array (item :: rest) =>
    '[' :: spacing.deeper.line ++ write spacing.deeper item ++
      writeItems spacing rest
  | .object [] => ['\x7b', '\x7d']
  | .object ((key, value) :: rest) =>
    '\x7b' :: spacing.deeper.line ++ Text.Quoted.encode key ++ spacing.colon ++
      write spacing.deeper value ++ writeMembers spacing rest

/-- The items after the first, and the end of the array. -/
def writeItems (spacing : Spacing) : List Json → List Char
  | [] => spacing.line ++ [']']
  | item :: rest =>
    ',' :: spacing.deeper.line ++ write spacing.deeper item ++
      writeItems spacing rest

/-- The members after the first, and the end of the object. -/
def writeMembers (spacing : Spacing) : List (String × Json) → List Char
  | [] => spacing.line ++ ['\x7d']
  | (key, value) :: rest =>
    ',' :: spacing.deeper.line ++ Text.Quoted.encode key ++ spacing.colon ++
      write spacing.deeper value ++ writeMembers spacing rest

end

/-- The document without blanks. -/
def compact (value : Json) : String :=
  String.ofList (value.write none)

/-- The document with a line for every item and member. -/
def pretty (value : Json) : String :=
  String.ofList (value.write (some 0))

end EntityCatalog.Json
