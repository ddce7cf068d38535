import EntityCatalog.Proofs.Entity.Linked

/-!
# Defaults of enums

Whether the defaults of enums hold depends on the enums as they were declared,
in the order of their evaluation (`defaultsHold_filterMap`).  Pairing and
completion keep the enums that every entity declares, in their order
(`enums_carryOut`, `enums_complete`).
-/

namespace EntityCatalog

/-- An enum without its items. -/
def Property.enum? (property : Property) : Option Property :=
  property.enumeration?.map fun _ => property.outline

namespace Property

theorem enum?_withSides (property : Property) (sides : Sides) :
    (property.withSides sides).enum? = property.enum? := by
  unfold withSides enum? enumeration?
  cases nature : property.nature <;> simp [nature]

theorem enum?_withTarget (property : Property) (target : Option String) :
    (property.withTarget target).enum? = property.enum? := by
  unfold withTarget enum? enumeration?
  cases nature : property.nature <;> simp [nature]

theorem enum?_withItems (property : Property)
    (items : Option (List EnumItem)) :
    (property.withItems items).enum? = property.enum? := by
  rw [enum?, outline_withItems]
  unfold withItems enum? enumeration?
  cases nature : property.nature <;> simp [nature]

end Property

/-- Defaults are judged by the enums alone. -/
theorem defaultsHold_filterMap (sources : Sources) (properties : List Property)
    (tally : Tally) :
    DefaultsHold sources (properties.filterMap Property.enum?) tally ↔
      DefaultsHold sources properties tally := by
  induction properties generalizing tally with
  | nil => exact Iff.rfl
  | cons property rest induction =>
      cases enumerated : property.enumeration? with
      | none =>
          have plain : property.enum? = none := by
            rw [Property.enum?, enumerated, Option.map_none]
          rw [List.filterMap_cons_none plain, DefaultsHold, enumerated]
          exact induction tally
      | some part =>
          have enum : property.enum? = some property.outline := by
            rw [Property.enum?, enumerated, Option.map_some]
          rw [List.filterMap_cons_some enum, DefaultsHold, DefaultsHold,
            Property.enumeration?_outline, enumerated, Option.map_some]
          dsimp only
          rw [Property.defaultMisuse, Property.default_outline,
            Property.array_outline, ← Property.defaultMisuse]
          exact and_congr_right fun _ => induction _

/-! ## The enums of an entity -/

/-- The enums that an entity declares, without their items. -/
def Entity.enums (entity : Entity) : List Property :=
  entity.ownProperties.filterMap Property.enum?

/-- Changes of properties that are no enums leave the enums alone. -/
theorem Entity.enums_of_change {left right : Entity}
    (change : Property → Property)
    (changed : left.properties.items = right.properties.items.map change)
    (named : left.name = right.name)
    (declaredBy : ∀ property, (change property).declaredBy =
      property.declaredBy)
    (same : ∀ property, (change property).enum? = property.enum?) :
    left.enums = right.enums := by
  rw [enums, ownProperties, select, changed, named, List.filter_map,
    List.filterMap_map, enums, ownProperties, select]
  have own : ((fun property : Property =>
      decide (property.declaredBy = right.name)) ∘ change) =
        fun property => decide (property.declaredBy = right.name) := by
    funext property
    rw [Function.comp_apply, declaredBy]
  have kept : Property.enum? ∘ change = Property.enum? := funext same
  rw [own, kept]

theorem Entity.enums_withSides (entity : Entity) (name : String)
    (sides : Sides) : (entity.withSides name sides).enums = entity.enums := by
  refine enums_of_change
    (fun property => if property.name = name then property.withSides sides
      else property) rfl rfl ?_ ?_
  · intro property
    split
    · rw [Property.declaredBy_withSides]
    · rfl
  · intro property
    split
    · rw [Property.enum?_withSides]
    · rfl

theorem Entity.enums_offer (entity : Entity) {property : Property}
    (plain : property.enum? = none) :
    (entity.offer property).enums = entity.enums := by
  unfold offer
  split
  · rfl
  · rename_i absent
    have fresh : property.name ∉ entity.properties.keys := fun member =>
      absent ((Table.contains_iff_mem_keys _ _).mpr member)
    simp only [enums, ownProperties, select, Table.items_insert_of_fresh fresh,
      List.filter_append, List.filterMap_append, List.append_right_eq_self]
    refine List.filterMap_eq_nil_iff.mpr fun other member => ?_
    rw [List.mem_singleton.mp (List.mem_filter.mp member).1]
    exact plain

namespace Completion.Progress

theorem declaredBy_complete (progress : Progress) (property : Property) :
    (progress.complete property).declaredBy = property.declaredBy := by
  unfold complete
  split
  · rfl
  · unfold Property.withItems
    split <;> rfl
  all_goals
    split
    · rw [Property.declaredBy_withTarget]
    · rfl

theorem enum?_complete (progress : Progress) (property : Property) :
    (progress.complete property).enum? = property.enum? := by
  unfold complete
  split
  · rfl
  · rw [Property.enum?_withItems]
  all_goals
    split
    · rw [Property.enum?_withTarget]
    · rfl

end Completion.Progress

namespace Entities

/-- The enums that the entities declare, with the names of the entities. -/
def enums (entities : Entities) : List (String × List Property) :=
  entities.items.map fun entity => (entity.name, entity.enums)

/-- Changes that leave the enums of every entity leave them together. -/
theorem enums_of_change {left right : Entities} (change : Entity → Entity)
    (changed : left.items = right.items.map change)
    (named : ∀ entity, (change entity).name = entity.name)
    (same : ∀ entity, (change entity).enums = entity.enums) :
    left.enums = right.enums := by
  rw [enums, changed, List.map_map, enums]
  refine List.map_congr_left fun entity _ => ?_
  rw [Function.comp_apply, named, same]

theorem keys_of_enums {left right : Entities}
    (same : left.enums = right.enums) : left.keys = right.keys := by
  have names (entities : Entities) :
      entities.keys = entities.enums.map Prod.fst := by
    rw [Table.keys, enums, List.map_map]
    rfl
  rw [names left, names right, same]

theorem enums_find? {left right : Entities} (same : left.enums = right.enums)
    (name : String) :
    (left.find? name).map Entity.enums = (right.find? name).map Entity.enums := by
  have searched (entities : Entities) :
      (entities.find? name).map Entity.enums =
        (entities.enums.find? fun entry => decide (entry.1 = name)).map
          Prod.snd := by
    rw [enums, List.find?_map, Option.map_map]
    rfl
  rw [searched left, searched right, same]

/-- The enums that are declared, read off by name. -/
theorem filterMap_enum? (entities : Entities) (order : List String) :
    (order.flatMap fun name =>
        ((entities.find? name).map Entity.ownProperties).getD []).filterMap
          Property.enum? =
      order.flatMap fun name =>
        ((entities.find? name).map Entity.enums).getD [] := by
  rw [List.filterMap_flatMap]
  refine List.flatMap_congr fun name _ => ?_
  cases entities.find? name with
  | none => rfl
  | some entity => rfl

theorem enums_withSides (entities : Entities) (place : Place) (sides : Sides) :
    (entities.withSides place sides).enums = entities.enums := by
  refine enums_of_change _ rfl ?_ ?_
  · intro entity
    split <;> rfl
  · intro entity
    split
    · exact entity.enums_withSides _ _
    · rfl

theorem enums_addWithin (entities : Entities) (holder : String)
    {property : Property} (plain : property.enum? = none) :
    (entities.addWithin holder property).enums = entities.enums := by
  refine enums_of_change _ rfl ?_ ?_
  · intro entity
    split <;> simp
  · intro entity
    split
    · exact entity.enums_offer plain
    · rfl

theorem enums_complete (entities : Entities)
    (progress : Completion.Progress) :
    (entities.complete progress).enums = entities.enums := by
  refine enums_of_change _ rfl (fun _ => rfl) ?_
  intro entity
  exact Entity.enums_of_change progress.complete rfl rfl
    progress.declaredBy_complete progress.enum?_complete

theorem enums_index (entities : Entities) :
    entities.index.enums = entities.enums :=
  enums_of_change _ rfl (fun _ => rfl) fun _ => rfl

end Entities

/-! ## Decisions about relations -/

namespace Settlement

theorem enums_settleCopy (progress : Progress) (sides : Sides)
    (source place : Place) :
    (progress.settleCopy sides source place).entities.enums =
      progress.entities.enums := by
  unfold Progress.settleCopy
  split
  · rfl
  · dsimp only
    split
    · exact Entities.enums_withSides _ _ _
    · exact Entities.enums_withSides _ _ _

theorem enums_carryOutOne (progress : Progress) (decision : Decision) :
    (progress.carryOut decision).entities.enums = progress.entities.enums := by
  cases decision with
  | settle settlement =>
      rw [Progress.carryOut, Progress.settle]
      generalize List.map _ (progress.entities.copies settlement.place) = places
      induction places generalizing progress with
      | nil => rfl
      | cons place rest induction =>
          exact (induction _).trans (enums_settleCopy progress _ _ place)
  | synthesize synthesis =>
      rw [Progress.carryOut, Progress.synthesize]
      split
      · rfl
      · exact Entities.enums_addWithin _ _ rfl

theorem enums_carryOut (entities : Entities) (decisions : List Decision) :
    (carryOut entities decisions).entities.enums = entities.enums := by
  rw [carryOut]
  suffices run : ∀ progress : Progress,
      (decisions.foldl Progress.carryOut progress).entities.enums =
        progress.entities.enums from run { entities := entities }
  induction decisions with
  | nil => exact fun _ => rfl
  | cons decision rest induction =>
      intro progress
      exact (induction _).trans (enums_carryOutOne progress decision)

end Settlement

end EntityCatalog
