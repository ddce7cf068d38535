import EntityCatalog.Graph.Basic

/-!
# Snapshots

A snapshot is a copy of a graph as plain data: entities and targets are named,
values and shapes are texts, and hooks are only marked as present.  Snapshots
can be compared, and two graphs with equal snapshots describe the same
entities.
-/

namespace EntityCatalog

/-- A property as plain data. -/
structure PropertySnapshot where
  name : String := ""
  kind : String := ""
  scalarType : Option String := none
  nullable : Bool := false
  array : Bool := false
  reference : Bool := false
  primary : Bool := false
  mapToKey : Bool := false
  default : Option String := none
  hasOnCreate : Bool := false
  hasOnUpdate : Bool := false
  target : Option String := none
  owner : Bool := false
  mappedBy : Option String := none
  inversedBy : Option String := none
  deleteRule : Option String := none
  updateRule : Option String := none
  checkTime : Option String := none
  fixedOrder : Bool := false
  columnPrefix : Option String := none
  items : List String := []
  shape : String := ""
  declaredBy : String := ""
  synthesized : Bool := false
  deriving DecidableEq, Repr, Inhabited

/-- An entity as plain data. -/
structure EntitySnapshot where
  name : String := ""
  base : Option String := none
  isAbstract : Bool := false
  embeddable : Bool := false
  keyless : Bool := false
  primaryKeys : List String := []
  properties : List PropertySnapshot := []
  deriving DecidableEq, Repr, Inhabited

/-- A graph as plain data. -/
structure Snapshot where
  entities : List EntitySnapshot := []
  deriving DecidableEq, Repr, Inhabited

/-- An item of an enum as text, after its key if it has one. -/
def EnumItem.text (item : EnumItem) : String :=
  match item.key with
  | some key => key ++ "=" ++ item.value.display
  | none => item.value.display

namespace PropertySnapshot

/-- The snapshot of a property. -/
def ofProperty (property : Property) : PropertySnapshot where
  name := property.name
  kind := property.kind.tag
  scalarType := property.scalarType?.map ScalarType.name
  nullable := property.nullable
  array := property.array
  reference := property.reference
  primary := property.primary
  mapToKey := property.mapToKey
  default := property.default.map Value.display
  hasOnCreate := property.onCreate.isSome
  hasOnUpdate := property.onUpdate.isSome
  target := property.targetName?
  owner := property.owner
  mappedBy := property.mappedBy?
  inversedBy := property.inversedBy?
  deleteRule :=
    (property.relation?.bind (·.deleteRule)).map ReferentialAction.text
  updateRule :=
    (property.relation?.bind (·.updateRule)).map ReferentialAction.text
  checkTime := (property.relation?.bind (·.checkTime)).map CheckTime.text
  fixedOrder := property.relation?.any (·.fixedOrder)
  columnPrefix := property.embedding?.bind (·.columnPrefix)
  items :=
    ((property.enumeration?.bind (·.items)).getD []).map EnumItem.text
  shape := property.shape.render property.targetName?
  declaredBy := property.declaredBy
  synthesized := property.synthesized

end PropertySnapshot

namespace EntitySnapshot

/-- The snapshot of an entity. -/
def ofEntity (entity : Entity) : EntitySnapshot where
  name := entity.name
  base := entity.base
  isAbstract := entity.isAbstract
  embeddable := entity.embeddable
  keyless := entity.keyless
  primaryKeys := entity.primaryKeys
  properties := entity.properties.items.map PropertySnapshot.ofProperty

/-- The property with a given name. -/
def property? (entity : EntitySnapshot) (name : String) :
    Option PropertySnapshot :=
  entity.properties.find? fun property => property.name = name

end EntitySnapshot

namespace Snapshot

/-- The entity with a given name. -/
def entity? (snapshot : Snapshot) (name : String) : Option EntitySnapshot :=
  snapshot.entities.find? fun entity => entity.name = name

end Snapshot

/-- The snapshot of a graph. -/
def Graph.snapshot (graph : Graph) : Snapshot :=
  ⟨graph.entities.items.map EntitySnapshot.ofEntity⟩

end EntityCatalog
