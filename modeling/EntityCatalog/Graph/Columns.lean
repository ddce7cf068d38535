import EntityCatalog.Graph.Basic

/-!
# Columns

The columns of an entity include those of the entities it embeds.  An embedded
property contributes the columns of its target, each with the property's prefix
in front: the declared one, or the property's name and an underscore.
-/

namespace EntityCatalog

/-- A column of an entity. -/
structure Column where
  name : String
  /-- The names of the properties that lead to it. -/
  path : List String
  property : Property
  deriving Inhabited

/-- The prefix of the columns that an embedded property contributes. -/
def Property.columnPrefix (property : Property) : String :=
  (property.embedding?.bind (·.columnPrefix)).getD (property.name ++ "_")

namespace Column

/-- The column that a property holds itself. -/
def own (property : Property) : Column :=
  ⟨property.name, [property.name], property⟩

/-- A column of an embedded entity, seen from the property that embeds it. -/
def within (property : Property) (column : Column) : Column :=
  { column with
    name := property.columnPrefix ++ column.name
    path := property.name :: column.path }

end Column

namespace Graph

/-- The columns of some properties, given the columns of embedded entities. -/
def columnsOf (graph : Graph) (embedded : Entity → List Column)
    (properties : List Property) : List Column :=
  properties.flatMap fun property =>
    if property.isEmbedded then
      ((graph.target? property).elim [] embedded).map (Column.within property)
    else if property.hasColumn then [Column.own property]
    else []

/-- The columns of an entity, entities embedded through more than `depth`
properties left out. -/
def columnsWithin (graph : Graph) : Nat → Entity → List Column
  | 0, _ => []
  | depth + 1, entity =>
    graph.columnsOf (graph.columnsWithin depth) entity.properties.items

/-- The columns of the entity with a given name.  Without cycles no chain of
embedded entities is longer than the number of entities. -/
def columns (graph : Graph) (entity : String) : List Column :=
  ((graph.entity? entity).map
    (graph.columnsWithin graph.entities.size)).getD []

end Graph

end EntityCatalog
