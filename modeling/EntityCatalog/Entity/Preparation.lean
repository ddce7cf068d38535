import EntityCatalog.Entity.Basic

/-!
# Preparing records

Before a record is written its fields are checked against the properties of
the entity, and what is left out is filled in.  All faults are collected: those
of properties in property order, then the fields that no property accounts for.
A prepared record lists its fields in property order.
-/

namespace EntityCatalog

/-- What is wrong with a field of a record. -/
inductive FieldFault where
  | missing
  | null
  | unknown
  | notWritable
  deriving DecidableEq, Repr

/-- The wording of a fault at a place. -/
def FieldFault.message (place : Place) : FieldFault → String
  | .missing => place.text ++ " is required"
  | .null => place.text ++ " cannot be null"
  | .unknown => place.entity ++ " has no property '" ++ place.property ++ "'"
  | .notWritable => place.text ++ " is a collection and cannot be assigned"

/-- The faults of a record. -/
structure RecordFaults where
  entity : String
  faults : List (String × FieldFault)
  deriving DecidableEq, Repr

namespace RecordFaults

/-- The wording of each fault. -/
def messages (faults : RecordFaults) : List String :=
  faults.faults.map fun (name, fault) => fault.message ⟨faults.entity, name⟩

/-- The wording of all faults together. -/
def message (faults : RecordFaults) : String :=
  "invalid input for " ++ faults.entity ++ ": " ++
    String.intercalate "; " faults.messages

end RecordFaults

/-- What becomes of a property in a prepared record. -/
inductive Field where
  | absent
  | value (value : Value)
  | fault (fault : FieldFault)
  deriving Inhabited

namespace Field

/-- The value of a field. -/
def value? : Field → Option Value
  | .value given => some given
  | _ => none

/-- The fault of a field. -/
def fault? : Field → Option FieldFault
  | .fault found => some found
  | _ => none

end Field

namespace Property

/-- The field of a property to which a value is assigned. -/
def assign (property : Property) (value : Value) : Field :=
  if !property.isWritable then .fault .notWritable
  else if value.isNull && !property.nullable then .fault .null
  else .value value

/-- The field of a property that is left out when an entity is created: its
hook is called, else its default is taken, else null if it is nullable. -/
def fillOnCreate (sources : Sources) (property : Property) (tally : Tally) :
    Field × Tally :=
  if !property.isWritable then (.absent, tally)
  else
    match property.onCreate, property.default with
    | some hook, _ =>
      let (value, tally) := sources.evaluateHook hook tally
      (.value value, tally)
    | none, some value => (.value value, tally)
    | none, none =>
      if property.nullable then (.value .null, tally)
      else if property.isOptionalOnInput then (.absent, tally)
      else (.fault .missing, tally)

/-- The field of a property that is left out of an update: its hook is
called. -/
def fillOnUpdate (sources : Sources) (property : Property) (tally : Tally) :
    Field × Tally :=
  match property.onUpdate with
  | some hook =>
    let (value, tally) := sources.evaluateHook hook tally
    (.value value, tally)
  | none => (.absent, tally)

end Property

/-- The fields of properties: assigned from a record where it has them, else
filled in. -/
def fieldsOf (fill : Property → Tally → Field × Tally) (record : Record) :
    List Property → Tally → List (String × Field) × Tally
  | [], tally => ([], tally)
  | property :: rest, tally =>
    let (field, tally) :=
      match record.find? property.name with
      | some (_, value) => (property.assign value, tally)
      | none => fill property tally
    let (fields, tally) := fieldsOf fill record rest tally
    ((property.name, field) :: fields, tally)

namespace Entity

/-- The names in a record that no property accounts for. -/
def unknownNames (entity : Entity) (record : Record) : List String :=
  record.keys.filter fun name => !entity.properties.contains name

/-- Prepare a record, given how properties that are left out are filled in. -/
def prepare (entity : Entity) (fill : Property → Tally → Field × Tally)
    (record : Record) (tally : Tally) :
    Except RecordFaults Record × Tally :=
  let (fields, tally) := fieldsOf fill record entity.properties.items tally
  let faults :=
    (fields.filterMap fun (name, field) => field.fault?.map (name, ·)) ++
      (entity.unknownNames record).map (·, .unknown)
  let values :=
    fields.filterMap fun (name, field) => field.value?.map (name, ·)
  if faults.isEmpty then (.ok (.ofList values), tally)
  else (.error ⟨entity.name, faults⟩, tally)

/-- Prepare a record for the creation of an entity. -/
def prepareCreate (sources : Sources) (entity : Entity) (record : Record)
    (tally : Tally) : Except RecordFaults Record × Tally :=
  entity.prepare (Property.fillOnCreate sources) record tally

/-- Prepare the changes of an update. -/
def prepareUpdate (sources : Sources) (entity : Entity) (record : Record)
    (tally : Tally) : Except RecordFaults Record × Tally :=
  entity.prepare (Property.fillOnUpdate sources) record tally

end Entity

end EntityCatalog
