import EntityCatalog.Proofs.Entity.Ordered
import EntityCatalog.Proofs.Relation.Facing
import EntityCatalog.Proofs.Resolution.Sound

/-!
# Resolutions without bases

Where no schema has a base (`Setting.Baseless`), linking has nothing to do and
an entity holds what its schema declares, in order.
-/

namespace EntityCatalog

/-- Without bases an entity holds what its schema declares, in order. -/
theorem Entities.propertyNames_ofSchemas {schemas : Table Schema.name}
    {bases : Bases} (baseless : ∀ entity, bases.base? entity = none)
    {name : String} {schema : Schema}
    (found : schemas.find? name = some schema) :
    (ofSchemas schemas bases).propertyNames name =
      schema.ownProperties.map Property.name := by
  have named := (Table.find?_eq_some found).2
  have lineage : lineage bases.base? schemas.size schema.name =
      [schema.name] := by
    have size : schemas.size ≠ 0 :=
      Nat.ne_of_gt (List.length_pos_of_mem (Table.find?_eq_some found).1)
    rcases Nat.exists_eq_succ_of_ne_zero size with ⟨steps, size⟩
    rw [size, lineage, baseless]
  have held : (ofSchemas schemas bases).find? name =
      some (Entity.ofSchema schemas bases schema) := by
    rw [find?_ofSchemas, found]
    rfl
  have declared : Entity.declared schemas schema.name =
      schema.ownProperties := by
    rw [Entity.declared, named, found]
    rfl
  rw [propertyNames_of_find? held, Entity.ofSchema, lineage,
    effectiveProperties, List.foldr_cons, List.foldr_nil, declared, Table.keys,
    Table.items_insertAll_of_fresh schema.nodup_ownProperties
      fun _ _ present => List.not_mem_nil present]
  rfl

namespace Resolution.Setting

/-- No schema has a base. -/
def Baseless (setting : Setting) : Prop :=
  ∀ schema ∈ setting.schemas.items, schema.base = none

namespace Baseless

variable {setting : Setting} (baseless : setting.Baseless)

include baseless

theorem base?_eq_none (entity : String) :
    (Bases.ofSchemas setting.directory setting.schemas.items).base? entity =
      none := by
  refine Option.eq_none_iff_forall_ne_some.mpr fun next link => ?_
  rcases Bases.base?_ofSchemas_eq_some_iff.mp link with
    ⟨schema, reference, found, base, -⟩
  rw [baseless schema (Table.find?_eq_some found).1] at base
  cases base

theorem linkable :
    Bases.Linkable setting.directory setting.schemas.items where
  found := by
    intro schema member reference base
    rw [baseless schema member] at base
    cases base
  acyclic := by
    intro schema _
    rw [Bases.cycle?, Bases.climb, baseless.base?_eq_none]

theorem flat : setting.merged.Flat := by
  intro entity
  rw [merged, (baseless.linkable.forest rfl).base?_ofSchemas]
  exact baseless.base?_eq_none entity

/-- An entity holds what it declares. -/
theorem property?_merged (place : Place) :
    setting.merged.property? place = setting.own place := by
  have merges : setting.merged.Merges setting.own :=
    (baseless.linkable.forest rfl).merges_ofSchemas
  rw [merges.held, baseless.flat place.entity]
  exact Option.or_none

/-- All names that a schema declares are held, in order. -/
theorem propertyNames_merged
    (fits : setting.schemas.items.flatMap Schema.misuses = [])
    {name : String} {schema : Schema}
    (found : setting.schemas.find? name = some schema) :
    setting.merged.propertyNames name = schema.properties.keys := by
  have member := (Table.find?_eq_some found).1
  rw [merged, Entities.propertyNames_ofSchemas baseless.base?_eq_none found,
    Schema.keys_ownProperties (List.flatMap_eq_nil_iff.mp fits schema member)]

end Baseless

end Resolution.Setting

end EntityCatalog
