import EntityCatalog.Json.Decode
import EntityCatalog.Json.Printer
import EntityCatalog.Snapshot.Basic

/-!
# Snapshots in documents

A snapshot is written as a document, which has a member for every field in a
fixed order, and read from documents with the members in any order.
-/

namespace EntityCatalog

/-! ## Writing -/

namespace PropertySnapshot

/-- A property in documents. -/
def toJson (property : PropertySnapshot) : Json :=
  .object [
    ("name", .string property.name),
    ("kind", .string property.kind),
    ("scalar_type", .ofString? property.scalarType),
    ("nullable", .bool property.nullable),
    ("array", .bool property.array),
    ("reference", .bool property.reference),
    ("primary", .bool property.primary),
    ("map_to_pk", .bool property.mapToKey),
    ("default", .ofString? property.default),
    ("has_on_create", .bool property.hasOnCreate),
    ("has_on_update", .bool property.hasOnUpdate),
    ("target", .ofString? property.target),
    ("owner", .bool property.owner),
    ("mapped_by", .ofString? property.mappedBy),
    ("inversed_by", .ofString? property.inversedBy),
    ("delete_rule", .ofString? property.deleteRule),
    ("update_rule", .ofString? property.updateRule),
    ("defer_mode", .ofString? property.checkTime),
    ("fixed_order", .bool property.fixedOrder),
    ("prefix", .ofString? property.columnPrefix),
    ("enum_items", .ofStrings property.items),
    ("shape", .string property.shape),
    ("declared_by", .string property.declaredBy),
    ("synthesized", .bool property.synthesized)]

end PropertySnapshot

namespace EntitySnapshot

/-- An entity in documents. -/
def toJson (entity : EntitySnapshot) : Json :=
  .object [
    ("name", .string entity.name),
    ("extends", .ofString? entity.base),
    ("is_abstract", .bool entity.isAbstract),
    ("embeddable", .bool entity.embeddable),
    ("keyless", .bool entity.keyless),
    ("primary_keys", .ofStrings entity.primaryKeys),
    ("properties", .array (entity.properties.map PropertySnapshot.toJson))]

end EntitySnapshot

namespace Snapshot

/-- A snapshot in documents. -/
def toJson (snapshot : Snapshot) : Json :=
  .object [("entities", .array (snapshot.entities.map EntitySnapshot.toJson))]

/-- The document of a snapshot, a member on each line. -/
def toText (snapshot : Snapshot) : String :=
  snapshot.toJson.pretty

end Snapshot

/-! ## Reading -/

namespace PropertySnapshot

/-- A string that has to be there. -/
def text (name : String) (set : String → PropertySnapshot → PropertySnapshot) :
    Json.Field PropertySnapshot :=
  .of name .required Json.decodeString set

/-- A string that may be absent. -/
def text? (name : String)
    (set : Option String → PropertySnapshot → PropertySnapshot) :
    Json.Field PropertySnapshot :=
  .of name .optional (Json.decodeOption Json.decodeString) set

/-- A mark, which has to be there. -/
def mark (name : String) (set : Bool → PropertySnapshot → PropertySnapshot) :
    Json.Field PropertySnapshot :=
  .of name .required Json.decodeBool set

/-- The form of a property in documents. -/
def format : Json.RecordFormat PropertySnapshot where
  initial := {}
  strict := false
  fields := [
    text "name" fun value property => { property with name := value },
    text "kind" fun value property => { property with kind := value },
    text? "scalar_type" fun value property =>
      { property with scalarType := value },
    mark "nullable" fun value property => { property with nullable := value },
    mark "array" fun value property => { property with array := value },
    mark "reference" fun value property => { property with reference := value },
    mark "primary" fun value property => { property with primary := value },
    mark "map_to_pk" fun value property => { property with mapToKey := value },
    text? "default" fun value property => { property with default := value },
    mark "has_on_create" fun value property =>
      { property with hasOnCreate := value },
    mark "has_on_update" fun value property =>
      { property with hasOnUpdate := value },
    text? "target" fun value property => { property with target := value },
    mark "owner" fun value property => { property with owner := value },
    text? "mapped_by" fun value property => { property with mappedBy := value },
    text? "inversed_by" fun value property =>
      { property with inversedBy := value },
    text? "delete_rule" fun value property =>
      { property with deleteRule := value },
    text? "update_rule" fun value property =>
      { property with updateRule := value },
    text? "defer_mode" fun value property =>
      { property with checkTime := value },
    mark "fixed_order" fun value property =>
      { property with fixedOrder := value },
    text? "prefix" fun value property =>
      { property with columnPrefix := value },
    .of "enum_items" .required (Json.decodeList Json.decodeString)
      fun value property => { property with items := value },
    text "shape" fun value property => { property with shape := value },
    text "declared_by" fun value property =>
      { property with declaredBy := value },
    mark "synthesized" fun value property =>
      { property with synthesized := value }]

end PropertySnapshot

namespace EntitySnapshot

/-- The form of an entity in documents. -/
def format : Json.RecordFormat EntitySnapshot where
  initial := {}
  strict := false
  fields := [
    .of "name" .required Json.decodeString
      fun value entity => { entity with name := value },
    .of "extends" .optional (Json.decodeOption Json.decodeString)
      fun value entity => { entity with base := value },
    .of "is_abstract" .required Json.decodeBool
      fun value entity => { entity with isAbstract := value },
    .of "embeddable" .required Json.decodeBool
      fun value entity => { entity with embeddable := value },
    .of "keyless" .required Json.decodeBool
      fun value entity => { entity with keyless := value },
    .of "primary_keys" .required (Json.decodeList Json.decodeString)
      fun value entity => { entity with primaryKeys := value },
    .of "properties" .required
      (Json.decodeList PropertySnapshot.format.decode)
      fun value entity => { entity with properties := value }]

end EntitySnapshot

namespace Snapshot

/-- The form of a snapshot in documents. -/
def format : Json.RecordFormat Snapshot where
  initial := {}
  strict := false
  fields := [
    .of "entities" .required (Json.decodeList EntitySnapshot.format.decode)
      fun value snapshot => { snapshot with entities := value }]

/-- The snapshot that a document describes. -/
def ofText (text : String) : Except Json.DecodeError Snapshot :=
  Json.decodeText format.decode text

end Snapshot

end EntityCatalog
