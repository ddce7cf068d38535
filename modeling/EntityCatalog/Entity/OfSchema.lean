import EntityCatalog.Bases
import EntityCatalog.Entity.Ancestry
import EntityCatalog.Property.OfOptions

/-!
# Entities from schemas

An entity's properties are those of its bases, farthest first, and then its
own; an own property takes the place of an inherited one of its name.  A
property whose options do not fit together is dropped and does not hide an
inherited one.
-/

namespace EntityCatalog

namespace Schema

/-- The schema's properties, or what is wrong with each. -/
def declared (schema : Schema) : List (String × Except Misuse Property) :=
  schema.properties.items.map fun (name, options) =>
    (name, Property.ofOptions schema.name name options)

/-- The properties whose options fit together. -/
def ownProperties (schema : Schema) : List Property :=
  schema.declared.filterMap fun (_, outcome) => outcome.toOption

/-- The properties whose options do not fit together, and what is wrong. -/
def misuses (schema : Schema) : List (Place × Misuse) :=
  schema.declared.filterMap fun (name, outcome) =>
    match outcome with
    | .ok _ => none
    | .error misuse => some (⟨schema.name, name⟩, misuse)

end Schema

/-- The properties of an entity with given ancestry, nearest first: those of
the farthest base first, and later ones in place of earlier ones. -/
def effectiveProperties (own : String → List Property)
    (ancestry : List String) : Properties :=
  ancestry.foldr (fun ancestor inherited => inherited.insertAll (own ancestor))
    .empty

namespace Entity

/-- The properties that the schema of an entity declares. -/
def declared (schemas : Table Schema.name) (entity : String) :
    List Property :=
  ((schemas.find? entity).map Schema.ownProperties).getD []

/-- The entity of a schema, with its inherited properties. -/
def ofSchema (schemas : Table Schema.name) (bases : Bases) (schema : Schema) :
    Entity where
  name := schema.name
  base := bases.base? schema.name
  isAbstract := schema.isAbstract
  embeddable := schema.embeddable
  keyless := schema.keyless
  properties := effectiveProperties (declared schemas)
    (lineage bases.base? schemas.size schema.name)

end Entity

/-- The entities of all schemas. -/
def Entities.ofSchemas (schemas : Table Schema.name) (bases : Bases) :
    Entities where
  items := schemas.items.map (Entity.ofSchema schemas bases)
  distinct := by
    have same : Entity.name ∘ Entity.ofSchema schemas bases = Schema.name := rfl
    rw [List.map_map, same]
    exact schemas.distinct

end EntityCatalog
