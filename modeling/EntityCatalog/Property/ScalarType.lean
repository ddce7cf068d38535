import EntityCatalog.Text.LowerCase

/-!
# Scalar types

The semantic type of a plain column.  Names are recognised whatever the case
of their ASCII letters, with a few synonyms; a name that is not known is kept
as a type of its own.
-/

namespace EntityCatalog

/-- The type of a scalar property. -/
inductive ScalarType where
  | string
  | text
  | character
  | uuid
  | integer
  | smallInt
  | tinyInt
  | mediumInt
  | bigInt
  | float
  | double
  | decimal
  | boolean
  | date
  | time
  | dateTime
  | interval
  | json
  | blob
  | byteArray
  | array
  | unknown
  | custom (name : String)
  deriving DecidableEq, Repr, Inhabited

namespace ScalarType

/-- The type that a declared name means.  The exact spelling `Date` means a
date with a time, any other spelling of it a calendar date. -/
def ofName (name : String) : ScalarType :=
  match Text.asciiLowerCase name with
  | "string" => .string
  | "text" => .text
  | "character" | "char" => .character
  | "uuid" => .uuid
  | "integer" | "int" => .integer
  | "smallint" => .smallInt
  | "tinyint" => .tinyInt
  | "mediumint" => .mediumInt
  | "bigint" => .bigInt
  | "float" => .float
  | "double" | "number" => .double
  | "decimal" => .decimal
  | "boolean" | "bool" => .boolean
  | "date" => if name = "Date" then .dateTime else .date
  | "time" => .time
  | "datetime" => .dateTime
  | "interval" => .interval
  | "json" => .json
  | "blob" => .blob
  | "uint8array" => .byteArray
  | "array" => .array
  | "unknown" => .unknown
  | _ => .custom name

/-- The canonical name of a type. -/
def name : ScalarType → String
  | .string => "string"
  | .text => "text"
  | .character => "character"
  | .uuid => "uuid"
  | .integer => "integer"
  | .smallInt => "smallint"
  | .tinyInt => "tinyint"
  | .mediumInt => "mediumint"
  | .bigInt => "bigint"
  | .float => "float"
  | .double => "double"
  | .decimal => "decimal"
  | .boolean => "boolean"
  | .date => "date"
  | .time => "time"
  | .dateTime => "datetime"
  | .interval => "interval"
  | .json => "json"
  | .blob => "blob"
  | .byteArray => "uint8array"
  | .array => "array"
  | .unknown => "unknown"
  | .custom name => name

/-- Whether the type is known by its name only. -/
def isCustom : ScalarType → Bool
  | .custom _ => true
  | _ => false

/-- Whether values of the type are integers, which a database can number. -/
def isInteger : ScalarType → Bool
  | .integer | .smallInt | .tinyInt | .mediumInt | .bigInt => true
  | _ => false

/-- Whether values of the type are numbers. -/
def isNumeric : ScalarType → Bool
  | .float | .double | .decimal => true
  | other => other.isInteger

end ScalarType

end EntityCatalog
