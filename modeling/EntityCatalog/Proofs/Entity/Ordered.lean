import EntityCatalog.Entity.Completion
import EntityCatalog.Proofs.Entity.Frame

/-!
# The order of properties

Settling a side leaves the properties of an entity in order, and an added
inverse comes after all of them.  So what decisions add to an entity comes last
(`Settlement.prefix_carryOut`).  Completion leaves the order as it is.
-/

namespace EntityCatalog

/-- A property that is offered comes last. -/
theorem Entity.prefix_offer (entity : Entity) (property : Property) :
    entity.properties.keys <+: (entity.offer property).properties.keys := by
  unfold offer
  split
  · exact List.prefix_rfl
  · rw [Table.keys_insert]
    split
    · exact List.prefix_rfl
    · exact List.prefix_append ..

namespace Entities

/-- The names of the properties of an entity, in order. -/
def propertyNames (entities : Entities) (entity : String) : List String :=
  ((entities.find? entity).map (·.properties.keys)).getD []

theorem propertyNames_of_find? {entities : Entities} {name : String}
    {entity : Entity} (found : entities.find? name = some entity) :
    entities.propertyNames name = entity.properties.keys := by
  rw [propertyNames, found]
  rfl

theorem propertyNames_eq_nil {entities : Entities} {entity : String}
    (missing : entity ∉ entities.keys) :
    entities.propertyNames entity = [] := by
  rw [propertyNames, Table.find?_eq_none_iff.mpr missing]
  rfl

/-- The name of what is held is among them. -/
theorem mem_propertyNames_iff {entities : Entities} {entity name : String} :
    name ∈ entities.propertyNames entity ↔
      ∃ property, entities.property? ⟨entity, name⟩ = some property := by
  rw [propertyNames, property?]
  cases entities.find? entity with
  | none => simp
  | some found => exact Table.mem_keys_iff

theorem nodup_propertyNames (entities : Entities) (entity : String) :
    (entities.propertyNames entity).Nodup := by
  rw [propertyNames]
  cases entities.find? entity with
  | none => exact List.nodup_nil
  | some found => exact found.properties.distinct

theorem propertyNames_withSides (entities : Entities) (place : Place)
    (sides : Sides) (entity : String) :
    (entities.withSides place sides).propertyNames entity =
      entities.propertyNames entity := by
  rw [propertyNames, find?_withSides, propertyNames]
  split
  · cases entities.find? entity with
    | none => rfl
    | some found => exact Table.keys_map _ _ fun _ => by split <;> simp
  · rfl

theorem prefix_addWithin (entities : Entities) (holder : String)
    (property : Property) (entity : String) :
    entities.propertyNames entity <+:
      (entities.addWithin holder property).propertyNames entity := by
  rw [propertyNames, propertyNames, find?_addWithin]
  cases entities.find? entity with
  | none => exact List.prefix_rfl
  | some found =>
      rw [Option.map_some, Option.map_some, Option.map_some, Option.getD_some,
        Option.getD_some]
      split
      · exact found.prefix_offer property
      · exact List.prefix_rfl

theorem propertyNames_complete (entities : Entities)
    (progress : Completion.Progress) (entity : String) :
    (entities.complete progress).propertyNames entity =
      entities.propertyNames entity := by
  have found : (entities.complete progress).find? entity =
      (entities.find? entity).map fun found =>
        found.mapProperties progress.complete progress.name_complete :=
    Table.find?_map _ _ _ entity
  rw [propertyNames, found, propertyNames]
  cases entities.find? entity with
  | none => rfl
  | some found => exact Table.keys_map _ _ progress.name_complete

theorem propertyNames_index (entities : Entities) (entity : String) :
    entities.index.propertyNames entity = entities.propertyNames entity := by
  rw [propertyNames, show entities.index.find? entity = _ from
    Table.find?_map _ _ _ entity, propertyNames]
  cases entities.find? entity <;> rfl

end Entities

namespace Settlement

theorem propertyNames_settleCopy (progress : Progress) (sides : Sides)
    (source place : Place) (entity : String) :
    (progress.settleCopy sides source place).entities.propertyNames entity =
      progress.entities.propertyNames entity := by
  unfold Progress.settleCopy
  split
  · rfl
  · dsimp only
    split <;> exact Entities.propertyNames_withSides ..

theorem prefix_carryOutOne (progress : Progress) (decision : Decision)
    (entity : String) :
    progress.entities.propertyNames entity <+:
      (progress.carryOut decision).entities.propertyNames entity := by
  cases decision with
  | settle settlement =>
      rw [Progress.carryOut, Progress.settle]
      generalize List.map _ (progress.entities.copies settlement.place) = places
      induction places generalizing progress with
      | nil => exact List.prefix_rfl
      | cons place rest induction =>
          rw [List.foldl_cons,
            ← propertyNames_settleCopy progress _ settlement.source place]
          exact induction _
  | synthesize synthesis =>
      rw [Progress.carryOut, Progress.synthesize]
      split
      · exact List.prefix_rfl
      · exact Entities.prefix_addWithin ..

/-- Properties stay in order, and what is added comes last. -/
theorem prefix_carryOut (entities : Entities) (decisions : List Decision)
    (entity : String) :
    entities.propertyNames entity <+:
      (carryOut entities decisions).entities.propertyNames entity := by
  rw [carryOut]
  suffices run : ∀ progress : Progress,
      progress.entities.propertyNames entity <+:
        (decisions.foldl Progress.carryOut
          progress).entities.propertyNames entity
    from run { entities := entities }
  induction decisions with
  | nil => exact fun _ => List.prefix_rfl
  | cons decision rest induction =>
      intro progress
      exact (prefix_carryOutOne progress decision entity).trans (induction _)

/-- Where nothing is added, entities hold the same names in order. -/
theorem propertyNames_carryOut {entities : Entities}
    {decisions : List Decision}
    (added : ∀ place,
      entities.property? place = none →
        (carryOut entities decisions).entities.property? place = none)
    (entity : String) :
    (carryOut entities decisions).entities.propertyNames entity =
      entities.propertyNames entity := by
  have distinct :=
    (carryOut entities decisions).entities.nodup_propertyNames entity
  rcases prefix_carryOut entities decisions entity with ⟨rest, split⟩
  cases rest with
  | nil => rw [← split, List.append_nil]
  | cons name rest =>
      -- What comes first after what was held would have been added.
      rw [← split] at distinct
      have present : name ∈ entities.propertyNames entity := by
        refine Decidable.byContradiction fun absent => ?_
        have later : name ∈
            (carryOut entities decisions).entities.propertyNames entity := by
          rw [← split]
          exact List.mem_append_right _ (List.mem_cons_self ..)
        rcases Entities.mem_propertyNames_iff.mp later with ⟨property, held⟩
        rw [added ⟨entity, name⟩ (Option.eq_none_iff_forall_ne_some.mpr
          fun before first => absent (Entities.mem_propertyNames_iff.mpr
            ⟨before, first⟩))] at held
        cases held
      exact absurd rfl ((List.nodup_append.mp distinct).2.2 name present name
        (List.mem_cons_self ..))

end Settlement

end EntityCatalog
