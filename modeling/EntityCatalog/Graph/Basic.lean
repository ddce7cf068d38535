import EntityCatalog.Entity.Ancestry

/-!
# Entity graphs

A graph is the frozen result of a resolution: its entities, in the order of
their registration, with every target known and every relation settled.  It is
only read: entities and properties by name, the targets of properties and the
relations from and to an entity.
-/

namespace EntityCatalog

/-- Resolved entities. -/
structure Graph where
  entities : Entities
  deriving Inhabited

namespace Graph

/-- The entity with a given name. -/
def entity? (graph : Graph) (name : String) : Option Entity :=
  graph.entities.find? name

/-- The property that an entity holds under a name. -/
def property? (graph : Graph) (place : Place) : Option Property :=
  graph.entities.property? place

/-- The names of all entities. -/
def names (graph : Graph) : List String :=
  graph.entities.keys

/-- The entities that have a table. -/
def tables (graph : Graph) : List Entity :=
  graph.entities.items.filter Entity.isTable

/-- The number of properties of all entities together. -/
def propertyCount (graph : Graph) : Nat :=
  (graph.entities.items.flatMap fun entity => entity.properties.items).length

/-- The entity that a property points at. -/
def target? (graph : Graph) (property : Property) : Option Entity :=
  property.targetName?.bind graph.entity?

/-- The property on the other side of a relation, and the entity that holds
it. -/
def reciprocal? (graph : Graph) (place : Place) :
    Option (Entity × Property) := do
  let property ← graph.property? place
  let name ← property.reciprocalName?
  let target ← graph.target? property
  let other ← target.property? name
  return (target, other)

/-- The relations that an entity holds. -/
def relationsFrom (graph : Graph) (entity : String) : List Property :=
  ((graph.entity? entity).map Entity.relations).getD []

/-- The relations that point at an entity, with their holders. -/
def relationsTo (graph : Graph) (entity : String) :
    List (Entity × Property) :=
  match graph.entity? entity with
  | none => []
  | some target =>
    target.referencedBy.filterMap fun reference => do
      let holder ← graph.entity? reference.place.entity
      let property ← holder.property? reference.place.property
      return (holder, property)

end Graph

end EntityCatalog
