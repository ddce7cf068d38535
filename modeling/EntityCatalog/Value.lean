import EntityCatalog.Json.Printer
import EntityCatalog.Json.Decode
import EntityCatalog.Table

/-!
# Literal values

A value is a default, an enum item or a field of a record.  Scalars have
constructors of their own; arrays and objects are kept as JSON values whose
members are sorted.  `Value.display` is the form in messages and snapshots,
`Value.toJson` the form in documents.
-/

namespace EntityCatalog

/-- A literal value. -/
inductive Value where
  | null
  | bool (value : Bool)
  | integer (value : Int64)
  | float (value : Float)
  | string (value : String)
  /-- An array or an object. -/
  | json (value : Json)
  deriving Inhabited

namespace Value

/-- Whether this is the null value. -/
def isNull : Value → Bool
  | .null => true
  | _ => false

/-- The text of a string. -/
def text? : Value → Option String
  | .string value => some value
  | _ => none

/-- The number of a whole number. -/
def integer? : Value → Option Int64
  | .integer value => some value
  | _ => none

/-- Whether two values are equal.  Values of different kinds never are, and
floating-point numbers are compared as numbers. -/
def same : Value → Value → Bool
  | .null, .null => true
  | .bool left, .bool right => left = right
  | .integer left, .integer right => left = right
  | .float left, .float right => left == right
  | .string left, .string right => left = right
  | .json left, .json right => left.same right
  | _, _ => false

/-- The value that a whole number of a document stands for: a floating-point
number where it exceeds sixty-four signed bits. -/
def ofInteger (number : Int) : Value :=
  if Int64.minValue.toInt ≤ number ∧ number ≤ Int64.maxValue.toInt then
    .integer (Int64.ofInt number)
  else if 0 ≤ number then .float (Float.ofNat number.natAbs)
  else .float (-Float.ofNat number.natAbs)

/-- The value that a JSON value stands for. -/
def ofJson : Json → Value
  | .null => .null
  | .bool value => .bool value
  | .integer value => ofInteger value
  | .float value => .float value
  | .string value => .string value
  | .array items => .json (Json.normal (.array items))
  | .object members => .json (Json.normal (.object members))

/-- The JSON value of a value. -/
def toJson : Value → Json
  | .null => .null
  | .bool value => .bool value
  | .integer value => .integer value.toInt
  | .float value => .float value
  | .string value => .string value
  | .json value => value

/-- The value in messages: strings stand in single quotes and are not
escaped, floating-point numbers have no exponent. -/
def display : Value → String
  | .null => "null"
  | .bool value => if value then "true" else "false"
  | .integer value => String.ofList (Json.writeInteger value.toInt)
  | .float value => FloatLayout.plain.write value
  | .string value => "'" ++ value ++ "'"
  | .json value => value.compact

/-- Any value of a document. -/
def decode : Json.Decoder Value := fun depth node =>
  (Json.decodeAny depth node).map ofJson

end Value

/-- Values by name, in the order in which the names first came. -/
abbrev Record := Table (Prod.fst : String × Value → String)

/-- A record of a document. -/
def Record.decode : Json.Decoder Record :=
  Json.decodeTable Value.decode

end EntityCatalog
