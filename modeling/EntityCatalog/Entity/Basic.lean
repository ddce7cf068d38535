import EntityCatalog.Property.Basic

/-!
# Entities

An entity has a name, perhaps a base, three marks and its properties: the
inherited ones first, then its own, in the order of their declaration.  It
also knows its primary key and which relations point at it.  Entities are kept
in a table by name, in the order of their registration.
-/

namespace EntityCatalog

/-- A relation that points at an entity, as the entity knows it. -/
structure BackReference where
  place : Place
  kind : RelationKind
  deriving DecidableEq, Repr, Inhabited

/-- An entity. -/
structure Entity where
  name : String
  base : Option String := none
  isAbstract : Bool := false
  embeddable : Bool := false
  keyless : Bool := false
  /-- The properties, inherited ones first. -/
  properties : Properties := .empty
  primaryKeys : List String := []
  referencedBy : List BackReference := []

instance : Inhabited Entity := ⟨{ name := "" }⟩

namespace Entity

/-- Whether the entity has a table of its own. -/
def isTable (entity : Entity) : Bool :=
  !entity.isAbstract && !entity.embeddable

/-- The property with a given name. -/
def property? (entity : Entity) (name : String) : Option Property :=
  entity.properties.find? name

/-- The properties that satisfy a condition, in order. -/
def select (entity : Entity) (condition : Property → Bool) : List Property :=
  entity.properties.items.filter condition

/-- The relations. -/
def relations (entity : Entity) : List Property :=
  entity.select Property.isRelation

/-- The embedded properties. -/
def embedded (entity : Entity) : List Property :=
  entity.select Property.isEmbedded

/-- The properties that are plain or enumerated columns. -/
def scalars (entity : Entity) : List Property :=
  entity.select fun property => !property.kind.hasTarget

/-- The properties that the entity declares itself. -/
def ownProperties (entity : Entity) : List Property :=
  entity.select fun property => property.declaredBy = entity.name

/-- The properties in the primary key. -/
def primaryKeyProperties (entity : Entity) : List Property :=
  entity.primaryKeys.filterMap entity.property?

/-- The place of one of the entity's properties. -/
def place (entity : Entity) (property : Property) : Place :=
  ⟨entity.name, property.name⟩

/-- The entity with its primary key read off its properties. -/
def withPrimaryKeys (entity : Entity) : Entity :=
  { entity with primaryKeys := (entity.select (·.primary)).map Property.name }

/-- The entity with every property changed by a function that keeps names. -/
def mapProperties (entity : Entity) (change : Property → Property)
    (keeps : ∀ property, (change property).name = property.name) : Entity :=
  { entity with properties := entity.properties.map change keeps }

end Entity

/-- Entities by name, in registration order. -/
abbrev Entities := Table Entity.name

namespace Entities

/-- The base of an entity. -/
def base? (entities : Entities) (name : String) : Option String :=
  (entities.find? name).bind (·.base)

/-- The property that an entity holds under a name. -/
def property? (entities : Entities) (place : Place) : Option Property :=
  (entities.find? place.entity).bind (·.property? place.property)

end Entities

end EntityCatalog
