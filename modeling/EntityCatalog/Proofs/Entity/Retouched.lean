import EntityCatalog.Entity.Completion
import EntityCatalog.Entity.Embedding
import EntityCatalog.Proofs.Entity.Frame
import Mathlib.Data.List.Basic

/-!
# Retouched entities

A retouch changes properties but leaves alone what they are found by and what
entities are checked for: names, origins, kinds, known targets and the primary
key.  Retouched entities are looked up, dealt with and checked as before.  They
embed the same entities, are pointed at by the same relations and have the same
keys, and what is wrong with them is the same.
-/

namespace EntityCatalog

/-- A change of properties that leaves alone what they are found by and checked
for. -/
structure Retouch where
  apply : Property → Property
  name : ∀ property, (apply property).name = property.name
  declaredBy : ∀ property, (apply property).declaredBy = property.declaredBy
  kind : ∀ property, (apply property).kind = property.kind
  primary : ∀ property, (apply property).primary = property.primary
  targetName : ∀ property, (apply property).targetName? = property.targetName?

namespace Retouch

variable (retouch : Retouch) (property : Property)

theorem isEmbedded :
    (retouch.apply property).isEmbedded = property.isEmbedded := by
  rw [Property.isEmbedded, Property.isEmbedded, retouch.kind]

end Retouch

/-! ## Single entities -/

namespace Entity

/-- The entity with its properties retouched. -/
def retouch (entity : Entity) (retouch : Retouch) : Entity :=
  entity.mapProperties retouch.apply retouch.name

section

variable (entity : Entity) (retouch : Retouch)

@[simp]
theorem name_retouch : (entity.retouch retouch).name = entity.name :=
  rfl

theorem property?_retouch (name : String) :
    (entity.retouch retouch).property? name =
      (entity.property? name).map retouch.apply :=
  Table.find?_map entity.properties _ retouch.name name

theorem place_retouch (property : Property) :
    (entity.retouch retouch).place (retouch.apply property) =
      entity.place property := by
  rw [place, place, retouch.name]
  rfl

theorem ownProperties_retouch :
    (entity.retouch retouch).ownProperties =
      entity.ownProperties.map retouch.apply :=
  entity.ownProperties_mapProperties retouch.name retouch.declaredBy

theorem withPrimaryKeys_retouch :
    (entity.retouch retouch).withPrimaryKeys =
      entity.withPrimaryKeys.retouch retouch := by
  have same : Property.primary ∘ retouch.apply = Property.primary :=
    funext retouch.primary
  have named : Property.name ∘ retouch.apply = Property.name :=
    funext retouch.name
  have keys : ((entity.retouch retouch).select (·.primary)).map Property.name =
      (entity.select (·.primary)).map Property.name := by
    change ((entity.properties.items.map retouch.apply).filter _).map _ = _
    rw [List.filter_map, List.map_map, named]
    exact congrArg (fun condition => List.map Property.name
      (entity.properties.items.filter condition)) same
  unfold withPrimaryKeys
  rw [keys]
  rfl

end

end Entity

/-! ## All entities -/

namespace Entities

/-- The entities with their properties retouched. -/
def retouch (entities : Entities) (retouch : Retouch) : Entities :=
  entities.map (·.retouch retouch) fun entity => entity.name_retouch retouch

variable (entities : Entities) (retouch : Retouch)

theorem items_retouch :
    (entities.retouch retouch).items =
      entities.items.map (·.retouch retouch) :=
  rfl

theorem alike_retouch : (entities.retouch retouch).Alike entities :=
  alike_of_change _ rfl fun _ => rfl

@[simp]
theorem find?_retouch (name : String) :
    (entities.retouch retouch).find? name =
      (entities.find? name).map (·.retouch retouch) :=
  Table.find?_map entities _ _ name

@[simp]
theorem property?_retouch (place : Place) :
    (entities.retouch retouch).property? place =
      (entities.property? place).map retouch.apply := by
  rw [property?, property?, find?_retouch]
  cases entities.find? place.entity with
  | none => rfl
  | some entity => exact entity.property?_retouch retouch place.property

theorem basesFirst_retouch :
    (entities.retouch retouch).basesFirst =
      entities.basesFirst.map (·.retouch retouch) := by
  have ranked : (entities.retouch retouch).items.map
      (fun entity => ((entities.retouch retouch).depth entity, entity)) =
        (entities.items.map fun entity => (entities.depth entity, entity)).map
          fun rank => (rank.1, rank.2.retouch retouch) := by
    rw [items_retouch, List.map_map, List.map_map]
    refine List.map_congr_left fun entity _ => ?_
    simp only [Function.comp_apply, depth,
      (entities.alike_retouch retouch).ancestry]
    rfl
  unfold basesFirst
  dsimp only
  rw [ranked, (entities.alike_retouch retouch).size, List.map_flatMap]
  refine List.flatMap_congr fun depth _ => ?_
  rw [List.filter_map, List.map_map, List.map_map]
  rfl

theorem ownProperties_retouch :
    (entities.retouch retouch).items.flatMap Entity.ownProperties =
      (entities.items.flatMap Entity.ownProperties).map retouch.apply := by
  rw [items_retouch, List.flatMap_map, List.map_flatMap]
  exact List.flatMap_congr fun entity _ => entity.ownProperties_retouch retouch

/-! ## Embedding -/

theorem ownTargets_retouch :
    (entities.retouch retouch).ownTargets =
      entities.ownTargets.map fun (entity, property, target) =>
        (entity.retouch retouch, retouch.apply property,
          target.retouch retouch) := by
  unfold ownTargets
  rw [items_retouch, List.flatMap_map, List.map_flatMap]
  refine List.flatMap_congr fun entity _ => ?_
  rw [Entity.ownProperties_retouch, List.filterMap_map, List.map_filterMap]
  refine List.filterMap_congr fun property _ => ?_
  simp only [Function.comp_apply, retouch.targetName]
  cases property.targetName? with
  | none => rfl
  | some name =>
      rw [Option.bind_some, Option.bind_some, find?_retouch]
      cases entities.find? name <;> rfl

theorem targetMisuse_retouch (property : Property) (target : Entity) :
    targetMisuse (retouch.apply property) (target.retouch retouch) =
      targetMisuse property target := by
  rw [targetMisuse, targetMisuse, retouch.isEmbedded]
  rfl

/-- The same is wrong with embedding. -/
theorem embeddingDefects_retouch :
    (entities.retouch retouch).embeddingDefects =
      entities.embeddingDefects := by
  have edges : (entities.retouch retouch).embeddingEdges =
      entities.embeddingEdges := by
    unfold embeddingEdges
    rw [ownTargets_retouch, List.filterMap_map]
    refine List.filterMap_congr fun ⟨entity, property, target⟩ _ => ?_
    simp only [Function.comp_apply, retouch.isEmbedded]
    rfl
  have targets : (entities.retouch retouch).targetDefects =
      entities.targetDefects := by
    unfold targetDefects
    rw [ownTargets_retouch, List.filterMap_map]
    refine List.filterMap_congr fun ⟨entity, property, target⟩ _ => ?_
    simp only [Function.comp_apply, targetMisuse_retouch,
      Entity.place_retouch]
  have cycles : (entities.retouch retouch).embeddingCycles =
      entities.embeddingCycles := by
    unfold embeddingCycles
    dsimp only
    rw [ownTargets_retouch, List.filterMap_map, edges]
    refine List.filterMap_congr fun ⟨entity, property, target⟩ _ => ?_
    simp only [Function.comp_apply, retouch.isEmbedded, Entity.place_retouch,
      Entity.name_retouch]
  rw [embeddingDefects, embeddingDefects, targets, cycles]

/-! ## Back-references and primary keys -/

/-- How the target of a relation knows it depends on the kind and the target. -/
theorem reference_eq (place : Place) (property : Property) :
    (do
      let relation ← property.relation?
      let target ← relation.target.entity
      return (target, (⟨place, relation.kind⟩ : BackReference))) =
      match property.kind with
      | .relation kind => property.targetName?.map (·, ⟨place, kind⟩)
      | _ => none := by
  rcases property with ⟨name, nature⟩
  cases nature with
  | relation part =>
      rcases part with ⟨kind, ⟨declared, target⟩⟩
      cases target <;> rfl
  | scalar | enumeration | embedded => rfl

theorem references_retouch :
    (entities.retouch retouch).references = entities.references := by
  unfold references
  rw [items_retouch, List.flatMap_map]
  refine List.flatMap_congr fun entity _ => ?_
  change (entity.properties.items.map retouch.apply).filterMap _ = _
  rw [List.filterMap_map]
  refine List.filterMap_congr fun property _ => ?_
  rw [Function.comp_apply, reference_eq, reference_eq, retouch.kind,
    retouch.targetName, Entity.place_retouch]

theorem index_retouch :
    (entities.retouch retouch).index = entities.index.retouch retouch := by
  refine Table.ext ?_
  change ((entities.items.map _).map _) = (entities.items.map _).map _
  rw [List.map_map, List.map_map]
  refine List.map_congr_left fun entity _ => ?_
  simp only [Function.comp_apply, Entity.withPrimaryKeys_retouch,
    referencesTo, references_retouch]
  rfl

/-- The same entities lack a primary key. -/
theorem keyDefects_retouch (schemas : Table Schema.name)
    (invalid : List Place) :
    (entities.retouch retouch).keyDefects schemas invalid =
      entities.keyDefects schemas invalid := by
  have alike := entities.alike_retouch retouch
  have invalidKey : (entities.retouch retouch).hasInvalidKey schemas invalid =
      entities.hasInvalidKey schemas invalid := by
    funext name
    simp only [hasInvalidKey, anyWithin, alike.ancestry]
  unfold keyDefects
  rw [invalidKey, items_retouch, List.filter_map, List.map_map]
  rfl

end Entities

end EntityCatalog
