import EntityCatalog.Proofs.Entity.Ordered
import EntityCatalog.Proofs.Entity.Retouched

/-!
# What indexing looks at

Indexing tells each entity its primary key and its back-references, whatever it
held of them before.  So entities that hold the same properties in the same
order are indexed alike (`Entities.index_unindexed`), and whether they do can be
seen from lookups (`Entities.unindexed_eq`).
-/

namespace EntityCatalog

/-- The entity without what indexing tells it. -/
def Entity.unindexed (entity : Entity) : Entity :=
  { entity with primaryKeys := [], referencedBy := [] }

theorem Entity.name_unindexed (entity : Entity) :
    entity.unindexed.name = entity.name :=
  rfl

theorem Entity.name_mapProperties (entity : Entity)
    (change : Property → Property)
    (name : ∀ property, (change property).name = property.name) :
    (entity.mapProperties change name).name = entity.name :=
  rfl

namespace Entities

/-- The entities without what indexing tells them. -/
def unindexed (entities : Entities) : Entities :=
  entities.map Entity.unindexed Entity.name_unindexed

/-- The entities with every property changed by a function that keeps names. -/
def mapProperties (entities : Entities) (change : Property → Property)
    (name : ∀ property, (change property).name = property.name) : Entities :=
  entities.map (·.mapProperties change name)
    (·.name_mapProperties change name)

variable (entities : Entities)

/-- Indexing replaces what was told before. -/
theorem index_unindexed : entities.unindexed.index = entities.index := by
  refine Table.ext ?_
  change (entities.items.map _).map _ = entities.items.map _
  have references : entities.unindexed.references = entities.references := by
    rw [Entities.references, unindexed, Table.items_map, List.flatMap_map]
    rfl
  rw [List.map_map]
  refine List.map_congr_left fun entity _ => ?_
  simp only [Function.comp_apply, referencesTo, references]
  rfl

theorem ownProperties_unindexed :
    entities.unindexed.items.flatMap Entity.ownProperties =
      entities.items.flatMap Entity.ownProperties := by
  rw [unindexed, Table.items_map, List.flatMap_map]
  rfl

theorem ownProperties_mapProperties {change : Property → Property}
    (name : ∀ property, (change property).name = property.name)
    (declaredBy : ∀ property,
      (change property).declaredBy = property.declaredBy) :
    (entities.mapProperties change name).items.flatMap Entity.ownProperties =
      (entities.items.flatMap Entity.ownProperties).map change := by
  rw [mapProperties, Table.items_map, List.flatMap_map, List.map_flatMap]
  exact List.flatMap_congr fun entity _ =>
    entity.ownProperties_mapProperties name declaredBy

/-- Entities with the same names and marks are the same up to indexing, if they
hold the same names in the same order and, under each name, the same
property. -/
theorem unindexed_eq {left right : Entities} (alike : left.Alike right)
    (names : ∀ entity,
      left.propertyNames entity = right.propertyNames entity)
    {change : Property → Property}
    (name : ∀ property, (change property).name = property.name)
    (held : ∀ place,
      left.property? place = (right.property? place).map change) :
    left.unindexed = (right.mapProperties change name).unindexed := by
  refine Table.ext_find? ?_ fun asked => ?_
  · rw [unindexed, unindexed, mapProperties, Table.keys_map, Table.keys_map,
      Table.keys_map, alike.keys]
  rw [unindexed, unindexed, mapProperties, Table.find?_map, Table.find?_map,
    Table.find?_map, Option.map_map]
  have bare := alike.find? asked
  cases found : left.find? asked with
  | none =>
      rw [found] at bare
      rw [Option.map_eq_none_iff.mp bare.symm]
      rfl
  | some entity =>
      rw [found] at bare
      rcases Option.map_eq_some_iff.mp bare.symm with ⟨other, there, same⟩
      have properties : entity.properties =
          other.properties.map change name := by
        refine Table.ext_find? ?_ fun inner => ?_
        · rw [Table.keys_map, ← propertyNames_of_find? found,
            ← propertyNames_of_find? there, names]
        · have here := held ⟨asked, inner⟩
          rw [property?, property?, found, there] at here
          rw [Table.find?_map]
          exact here
      rw [there, Option.map_some, Option.map_some, Function.comp_apply]
      have marks : { entity.unindexed with properties := .empty } =
          { other.unindexed with properties := .empty } :=
        same.symm
      rw [Entity.unindexed, properties]
      exact congrArg (fun entity : Entity => some { entity with
        properties := other.properties.map change name }) marks

end Entities

end EntityCatalog
