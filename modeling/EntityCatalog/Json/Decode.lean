import EntityCatalog.Json.Basic
import EntityCatalog.Json.Node
import EntityCatalog.Decimal.Layout
import EntityCatalog.Text.Literal
import EntityCatalog.Table

/-!
# Decoding documents

A decoder turns a node into a value or says what is wrong.  It walks the node
in text order, so the first problem is the one reported: a member is judged by
its key before its value is looked at, and a missing field shows at the end of
its object.

`RecordFormat` describes a record by its fields and decodes both of its
spellings, an object with members in any order and an array with the fields in
declaration order.  `decodeVariant` decodes one of several named alternatives.

A decoder is given the number of containers that may still be opened.  A text
may have at most 127 open at once.
-/

namespace EntityCatalog.Json

/-- A value found where another kind of value belongs. -/
inductive Unexpected where
  | null
  | bool (value : Bool)
  | integer (value : Int)
  | float (value : Float)
  | string (value : String)
  | map
  | sequence
  /-- An alternative named without the value it carries. -/
  | unitVariant

namespace Unexpected

/-- How messages call the value. -/
def message : Unexpected → String
  | .null => "null"
  | .bool value => "boolean `" ++ (if value then "true" else "false") ++ "`"
  | .integer value => "integer `" ++ toString value ++ "`"
  | .float value => "floating point `" ++ FloatLayout.document.write value ++ "`"
  | .string value => "string " ++ Text.literal value
  | .map => "map"
  | .sequence => "sequence"
  | .unitVariant => "unit variant"

end Unexpected

/-- Why a text could not be decoded. -/
inductive DecodeError where
  /-- The text is not JSON, or not in the form that the place demands. -/
  | malformed
  | missingField (field : String)
  | unknownField (field : String)
  | duplicateField (field : String)
  | unknownVariant (variant : String)
  | invalidType (found : Unexpected)
  | negative (value : Int)
  | invalidLength (length : Nat)

namespace DecodeError

/-- The text of the error, where it has one. -/
def message : DecodeError → Option String
  | .malformed => none
  | .missingField field => some ("missing field `" ++ field ++ "`")
  | .unknownField field => some ("unknown field `" ++ field ++ "`")
  | .duplicateField field => some ("duplicate field `" ++ field ++ "`")
  | .unknownVariant variant => some ("unknown variant `" ++ variant ++ "`")
  | .invalidType found => some ("invalid type: " ++ found.message)
  | .negative value =>
    some ("invalid value: integer `" ++ toString value ++ "`")
  | .invalidLength length => some ("invalid length " ++ toString length)

end DecodeError

/-- A decoder, given how many containers may still be opened. -/
abbrev Decoder (Value : Type) := Nat → Node → Except DecodeError Value

/-- The error of a node that has the wrong kind.  A scalar has to be readable
before its kind is judged; a container is judged by its opening. -/
def mismatch : Node → DecodeError
  | .null => .invalidType .null
  | .bool value => .invalidType (.bool value)
  | .number (some (.integer value)) => .invalidType (.integer value)
  | .number (some (.float value)) => .invalidType (.float value)
  | .number none => .malformed
  | .string (some value) => .invalidType (.string value)
  | .string none => .malformed
  | .array _ _ => .invalidType .sequence
  | .object _ _ => .invalidType .map
  | .broken => .malformed

/-- A string. -/
def decodeString : Decoder String := fun _ node =>
  match node with
  | .string (some value) => .ok value
  | other => .error (mismatch other)

/-- A truth value. -/
def decodeBool : Decoder Bool := fun _ node =>
  match node with
  | .bool value => .ok value
  | other => .error (mismatch other)

/-- A whole number that is not negative. -/
def decodeNatural : Decoder Nat := fun _ node =>
  match node with
  | .number (some (.integer value)) =>
    if 0 ≤ value then .ok value.toNat else .error (.negative value)
  | other => .error (mismatch other)

/-- A value that may be absent, which `null` says too. -/
def decodeOption {Value : Type} (decode : Decoder Value) :
    Decoder (Option Value) := fun depth node =>
  match node with
  | .null => .ok none
  | other => (decode depth other).map some

/-- The items of an array from here on. -/
def decodeItems {Value : Type} (decode : Node → Except DecodeError Value)
    (closed : Bool) : List Node → Except DecodeError (List Value)
  | [] => if closed then .ok [] else .error .malformed
  | item :: rest => do
    let value ← decode item
    let values ← decodeItems decode closed rest
    return value :: values

/-- An array of any length. -/
def decodeList {Value : Type} (decode : Decoder Value) : Decoder (List Value) :=
  fun depth node =>
    match node, depth with
    | .array _ _, 0 => .error .malformed
    | .array items closed, depth + 1 => decodeItems (decode depth) closed items
    | other, _ => .error (mismatch other)

/-- The entries of an object with free keys, from here on. -/
def decodeEntries {Value : Type} (decode : Node → Except DecodeError Value)
    (closed : Bool) :
    List (Node × Node) → Except DecodeError (List (String × Value))
  | [] => if closed then .ok [] else .error .malformed
  | (.string (some key), node) :: rest => do
    let value ← decode node
    let entries ← decodeEntries decode closed rest
    return (key, value) :: entries
  | _ :: _ => .error .malformed

/-- An object with free keys, as a table: a repeated key keeps its first place
and its last value. -/
def decodeTable {Value : Type} (decode : Decoder Value) :
    Decoder (Table (Prod.fst : String × Value → String)) := fun depth node =>
  match node, depth with
  | .object _ _, 0 => .error .malformed
  | .object members closed, depth + 1 =>
    (decodeEntries (decode depth) closed members).map Table.ofList
  | other, _ => .error (mismatch other)

/-! ## Records -/

/-- What it means that a field is absent. -/
inductive Absence where
  | required
  /-- Its initial value in an object, an error in an array. -/
  | optional
  | defaulted
  deriving DecidableEq

/-- A field of a record. -/
structure Field (Record : Type) where
  name : String
  absence : Absence
  /-- Decode the field's value and put it into the record. -/
  decode : Decoder (Record → Record)

/-- A field from a decoder of its value and a setter. -/
def Field.of {Record Value : Type} (name : String) (absence : Absence)
    (decode : Decoder Value) (set : Value → Record → Record) : Field Record :=
  ⟨name, absence, fun depth node => (decode depth node).map set⟩

/-- The form of a record. -/
structure RecordFormat (Record : Type) where
  initial : Record
  fields : List (Field Record)
  /-- Whether members that are no fields are refused. -/
  strict : Bool

namespace RecordFormat

variable {Record : Type}

/-- Read the members of an object from here on into a record; `seen` are the
fields met so far. -/
def decodeMembers (format : RecordFormat Record) (depth : Nat) (closed : Bool)
    (seen : List String) (record : Record) :
    List (Node × Node) → Except DecodeError (List String × Record)
  | [] => if closed then .ok (seen, record) else .error .malformed
  | (.string (some key), node) :: rest =>
    match format.fields.find? fun field => field.name = key with
    | some field =>
      if key ∈ seen then .error (.duplicateField key)
      else
        match field.decode depth node with
        | .ok set =>
          format.decodeMembers depth closed (key :: seen) (set record) rest
        | .error error => .error error
    | none =>
      if format.strict then .error (.unknownField key)
      else if node.wellFormed then
        format.decodeMembers depth closed seen record rest
      else .error .malformed
  | _ :: _ => .error .malformed

/-- The first required field that was not met. -/
def firstMissing (format : RecordFormat Record) (seen : List String) :
    Option String :=
  (format.fields.find? fun field =>
    field.absence = .required && field.name ∉ seen).map Field.name

/-- Read the items of an array into the remaining fields of a record; `count`
items came before. -/
def decodePositions (depth : Nat) (closed : Bool) (count : Nat)
    (record : Record) :
    List (Field Record) → List Node → Except DecodeError Record
  | [], [] => if closed then .ok record else .error .malformed
  | [], _ :: _ => .error .malformed
  | field :: fields, [] =>
    if !closed then .error .malformed
    else if field.absence = .defaulted then
      decodePositions depth closed count record fields []
    else .error (.invalidLength count)
  | field :: fields, item :: rest =>
    match field.decode depth item with
    | .ok set => decodePositions depth closed (count + 1) (set record) fields rest
    | .error error => .error error

/-- Decode a record in either spelling. -/
def decode (format : RecordFormat Record) : Decoder Record :=
  fun depth node =>
    match node, depth with
    | .object _ _, 0 | .array _ _, 0 => .error .malformed
    | .object members closed, depth + 1 => do
      let (seen, record) ←
        format.decodeMembers depth closed [] format.initial members
      match format.firstMissing seen with
      | some field => .error (.missingField field)
      | none => .ok record
    | .array items closed, depth + 1 =>
      decodePositions depth closed 0 format.initial format.fields items
    | other, _ => .error (mismatch other)

end RecordFormat

/-! ## Alternatives -/

/-- One of several named alternatives. -/
inductive Variant (Value : Type) where
  | unit (value : Value)
  | carrying (decode : Decoder Value)

/-- Decode the value an alternative carries; for one that carries none this
has to be `null`. -/
def Variant.decodePayload {Value : Type} :
    Variant Value → Decoder Value
  | .unit value, _, .null => .ok value
  | .unit _, _, node => .error (mismatch node)
  | .carrying decode, depth, node => decode depth node

/-- Decode an alternative: its name as a string, or an object whose only
member has the name as key. -/
def decodeVariant {Value : Type} (variants : String → Option (Variant Value)) :
    Decoder Value := fun depth node =>
  match node, depth with
  | .string (some name), _ =>
    match variants name with
    | some (.unit value) => .ok value
    | some (.carrying _) => .error (.invalidType .unitVariant)
    | none => .error (.unknownVariant name)
  | .object ((.string (some name), payload) :: rest) closed, depth + 1 =>
    match variants name with
    | some variant => do
      let value ← variant.decodePayload depth payload
      if rest.isEmpty && closed then .ok value else .error .malformed
    | none => .error (.unknownVariant name)
  | _, _ => .error .malformed

/-! ## Any value -/

namespace Node

mutual

/-- The value of a node, if it can be read to its end. -/
def toJson? : Nat → Node → Option Json
  | _, .null => some .null
  | _, .bool value => some (.bool value)
  | _, .number (some (.integer value)) => some (.integer value)
  | _, .number (some (.float value)) => some (.float value)
  | _, .string (some value) => some (.string value)
  | depth + 1, .array items true => (itemsToJson? depth items).map .array
  | depth + 1, .object members true =>
    (membersToJson? depth members).map .object
  | _, _ => none

/-- The values of items. -/
def itemsToJson? : Nat → List Node → Option (List Json)
  | _, [] => some []
  | depth, item :: rest => do
    let value ← toJson? depth item
    let values ← itemsToJson? depth rest
    return value :: values

/-- The keys and values of members. -/
def membersToJson? : Nat → List (Node × Node) → Option (List (String × Json))
  | _, [] => some []
  | depth, (.string (some key), node) :: rest => do
    let value ← toJson? depth node
    let values ← membersToJson? depth rest
    return (key, value) :: values
  | _, _ :: _ => none

end

end Node

/-- Any value. -/
def decodeAny : Decoder Json := fun depth node =>
  match node.toJson? depth with
  | some value => .ok value
  | none => .error .malformed

/-! ## Whole texts -/

/-- The number of containers that may be open at once. -/
def nestingLimit : Nat := 127

/-- Decode a whole text, after which only blanks may follow. -/
def decodeText {Value : Type} (decode : Decoder Value) (text : String) :
    Except DecodeError Value := do
  let document := Document.ofText text
  let value ← decode nestingLimit document.root
  if document.ended then .ok value else .error .malformed

end EntityCatalog.Json
