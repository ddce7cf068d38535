import EntityCatalog.Property.Constraint
import EntityCatalog.Property.Kind
import EntityCatalog.Property.ScalarType
import EntityCatalog.Reference.Basic

/-!
# Property options

The options declared for one property, exactly as they were given.  Nothing is
checked here: whether the options fit together is decided when the property is
normalised.  The options of a document have the same fields, hooks apart,
under the names listed in `Options.format`.
-/

namespace EntityCatalog

/-- The declared options of one property. -/
structure Options where
  kind : Option PropertyKind := none
  typeName : Option String := none
  entity : Option EntityRef := none
  isEnum : Bool := false
  items : Option EnumItems := none
  nullable : Option Bool := none
  array : Bool := false
  reference : Bool := false
  primary : Bool := false
  mapToKey : Bool := false
  default : Option Value := none
  onCreate : Option Hook := none
  onUpdate : Option Hook := none
  owner : Option Bool := none
  mappedBy : Option String := none
  inversedBy : Option String := none
  deleteRule : Option ReferentialAction := none
  updateRule : Option ReferentialAction := none
  checkTime : Option CheckTime := none
  fixedOrder : Bool := false
  columnPrefix : Option String := none
  deriving Inhabited

namespace Options

/-- A scalar of a named type. -/
def typed (name : String) : Options := { typeName := some name }

/-- A relation or an embedded property. -/
def relation (kind : PropertyKind) (target : EntityRef) : Options :=
  { kind := some kind, entity := some target }

/-- A many-to-one relation. -/
def manyToOne (target : EntityRef) : Options :=
  relation (.relation .manyToOne) target

/-- A one-to-one relation. -/
def oneToOne (target : EntityRef) : Options :=
  relation (.relation .oneToOne) target

/-- A one-to-many relation, the inverse of a property of the target. -/
def oneToMany (target : EntityRef) (mappedBy : String) : Options :=
  { relation (.relation .oneToMany) target with
    mappedBy := some mappedBy }

/-- A many-to-many relation. -/
def manyToMany (target : EntityRef) : Options :=
  relation (.relation .manyToMany) target

/-- An embedded entity. -/
def embedded (target : EntityRef) : Options :=
  relation .embedded target

/-- An enum. -/
def enumeration (items : EnumItems) : Options :=
  { isEnum := true, items := some items }

/-- A field whose absence leaves the default. -/
def field {Value : Type} (name : String) (decode : Json.Decoder Value)
    (set : Value → Options → Options) : Json.Field Options :=
  .of name .defaulted decode set

/-- The form of options in documents. -/
def format : Json.RecordFormat Options where
  initial := {}
  strict := true
  fields := [
    field "kind" (Json.decodeOption PropertyKind.decode)
      fun value options => { options with kind := value },
    field "type" (Json.decodeOption Json.decodeString)
      fun value options => { options with typeName := value },
    field "entity" (Json.decodeOption EntityRef.decode)
      fun value options => { options with entity := value },
    field "enum" Json.decodeBool
      fun value options => { options with isEnum := value },
    field "items" (Json.decodeOption EnumItems.decode)
      fun value options => { options with items := value },
    field "nullable" (Json.decodeOption Json.decodeBool)
      fun value options => { options with nullable := value },
    field "array" Json.decodeBool
      fun value options => { options with array := value },
    field "ref" Json.decodeBool
      fun value options => { options with reference := value },
    field "primary" Json.decodeBool
      fun value options => { options with primary := value },
    field "mapToPk" Json.decodeBool
      fun value options => { options with mapToKey := value },
    field "default" (Json.decodeOption Value.decode)
      fun value options => { options with default := value },
    field "owner" (Json.decodeOption Json.decodeBool)
      fun value options => { options with owner := value },
    field "mappedBy" (Json.decodeOption Json.decodeString)
      fun value options => { options with mappedBy := value },
    field "inversedBy" (Json.decodeOption Json.decodeString)
      fun value options => { options with inversedBy := value },
    field "deleteRule" (Json.decodeOption ReferentialAction.decode)
      fun value options => { options with deleteRule := value },
    field "updateRule" (Json.decodeOption ReferentialAction.decode)
      fun value options => { options with updateRule := value },
    field "deferMode" (Json.decodeOption CheckTime.decode)
      fun value options => { options with checkTime := value },
    field "fixedOrder" Json.decodeBool
      fun value options => { options with fixedOrder := value },
    field "prefix" (Json.decodeOption Json.decodeString)
      fun value options => { options with columnPrefix := value }]

/-- The options that a text describes. -/
def ofText (text : String) : Except Json.DecodeError Options :=
  Json.decodeText format.decode text

end Options

end EntityCatalog
