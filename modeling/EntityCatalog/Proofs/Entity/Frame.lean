import EntityCatalog.Proofs.Entity.Inheritance
import EntityCatalog.Proofs.Property.Changes
import EntityCatalog.Relation.Settlement

/-!
# What changes of properties leave alone

Settling relations and adding inverses change the properties of entities and
nothing else about them: the entities stay `Alike`, with the same names, bases
and marks, and so with the same ancestries.  What an entity holds under a name
changes only where the change is addressed to.
-/

namespace EntityCatalog

/-- The entity without its properties and what is read off them. -/
def Entity.bare (entity : Entity) : Entity :=
  { entity with properties := .empty, primaryKeys := [], referencedBy := [] }

/-- Entities that differ in their properties only agree on name and marks. -/
theorem Entity.marks_of_bare {left right : Entity}
    (same : left.bare = right.bare) :
    left.name = right.name ∧ left.embeddable = right.embeddable ∧
      left.isTable = right.isTable ∧ left.keyless = right.keyless := by
  rcases left with ⟨_, _, isAbstract, embeddable⟩
  cases same
  exact ⟨rfl, rfl, rfl, rfl⟩

/-- A change that keeps names and declaring entities changes the own
properties. -/
theorem Entity.ownProperties_mapProperties (entity : Entity)
    {change : Property → Property}
    (name : ∀ property, (change property).name = property.name)
    (declaredBy : ∀ property,
      (change property).declaredBy = property.declaredBy) :
    (entity.mapProperties change name).ownProperties =
      entity.ownProperties.map change := by
  have same : ((fun property : Property =>
      decide (property.declaredBy =
        (entity.mapProperties change name).name)) ∘ change) =
          fun property : Property =>
            decide (property.declaredBy = entity.name) := by
    funext property
    rw [Function.comp_apply, declaredBy]
    rfl
  change (entity.properties.items.map change).filter _ = _
  rw [List.filter_map, same]
  rfl

namespace Entities

/-! ## Entities that differ in their properties only -/

/-- Two families of entities with the same names, bases and marks. -/
def Alike (left right : Entities) : Prop :=
  left.items.map Entity.bare = right.items.map Entity.bare

namespace Alike

variable {first second third left right : Entities}

theorem refl (entities : Entities) : entities.Alike entities :=
  rfl

theorem trans (before : first.Alike second) (after : second.Alike third) :
    first.Alike third :=
  Eq.trans before after

theorem keys (alike : left.Alike right) : left.keys = right.keys := by
  have named := congrArg (List.map Entity.name) alike
  simpa [Table.keys, Function.comp_def, Entity.bare] using named

theorem size (alike : left.Alike right) : left.size = right.size := by
  rw [← Table.length_keys, alike.keys, Table.length_keys]

theorem find? (alike : left.Alike right) (name : String) :
    (left.find? name).map Entity.bare = (right.find? name).map Entity.bare := by
  have searched (entities : Entities) :
      (entities.find? name).map Entity.bare =
        (entities.items.map Entity.bare).find? fun entity =>
          decide (entity.name = name) := by
    rw [List.find?_map]
    rfl
  rw [searched, searched, show left.items.map Entity.bare = _ from alike]

theorem base? (alike : left.Alike right) : left.base? = right.base? := by
  funext name
  have found := congrArg (Option.bind · Entity.base) (alike.find? name)
  simpa [Entities.base?, Option.bind_map, Function.comp_def, Entity.bare]
    using found

theorem ancestry (alike : left.Alike right) :
    left.ancestry = right.ancestry := by
  funext name
  rw [Entities.ancestry, Entities.ancestry, alike.base?, alike.size]

theorem isWithin (alike : left.Alike right) :
    left.isWithin = right.isWithin := by
  funext entity ancestor
  rw [Entities.isWithin, Entities.isWithin, alike.ancestry]

end Alike

/-- Changing entities apart from their names, bases and marks. -/
theorem alike_of_change {left right : Entities} (change : Entity → Entity)
    (changed : left.items = right.items.map change)
    (same : ∀ entity, (change entity).bare = entity.bare) :
    left.Alike right := by
  rw [Alike, changed, List.map_map]
  exact List.map_congr_left fun entity _ => same entity

theorem mem_keys_of_property? {entities : Entities} {place : Place}
    {property : Property} (held : entities.property? place = some property) :
    place.entity ∈ entities.keys := by
  rcases Option.bind_eq_some_iff.mp held with ⟨_, found, _⟩
  exact Table.mem_keys_of_find? found

theorem name_of_property? {entities : Entities} {place : Place}
    {property : Property} (held : entities.property? place = some property) :
    property.name = place.property := by
  rcases Option.bind_eq_some_iff.mp held with ⟨_, _, found⟩
  exact (Table.find?_eq_some found).2

/-- An own property is the one that is held at its origin. -/
theorem mem_ownProperties_iff {entities : Entities} {property : Property} :
    property ∈ entities.items.flatMap Entity.ownProperties ↔
      entities.property? property.origin = some property := by
  rw [List.mem_flatMap, property?, Option.bind_eq_some_iff]
  constructor
  · rintro ⟨entity, member, owned⟩
    rcases List.mem_filter.mp owned with ⟨holds, declared⟩
    refine ⟨entity, ?_, Table.find?_key holds⟩
    rw [Property.origin, of_decide_eq_true declared]
    exact Table.find?_key member
  · rintro ⟨entity, found, held⟩
    rcases Table.find?_eq_some found with ⟨member, named⟩
    refine ⟨entity, member, List.mem_filter.mpr ?_⟩
    exact ⟨(Table.find?_eq_some held).1, decide_eq_true named.symm⟩

/-! ## Settled sides -/

theorem alike_withSides (entities : Entities) (place : Place)
    (sides : Sides) :
    (entities.withSides place sides).Alike entities := by
  refine alike_of_change _ rfl ?_
  intro entity
  split <;> rfl

theorem find?_withSides (entities : Entities) (place : Place) (sides : Sides)
    (name : String) :
    (entities.withSides place sides).find? name =
      if name = place.entity then
        (entities.find? name).map (·.withSides place.property sides)
      else entities.find? name :=
  Table.find?_adjust _ _ _ _ name

theorem Entity.property?_withSides (entity : Entity) (name asked : String)
    (sides : Sides) :
    (entity.withSides name sides).property? asked =
      if asked = name then (entity.property? asked).map (·.withSides sides)
      else entity.property? asked :=
  Table.find?_adjust _ _ _ (fun property => property.name_withSides sides) asked

/-- Settling a side changes what is held at its place only. -/
theorem property?_withSides (entities : Entities) (place asked : Place)
    (sides : Sides) :
    (entities.withSides place sides).property? asked =
      if asked = place then (entities.property? asked).map (·.withSides sides)
      else entities.property? asked := by
  rw [property?, find?_withSides, property?]
  cases found : entities.find? asked.entity with
  | none => simp
  | some item =>
      by_cases here : asked.entity = place.entity
      · rw [if_pos here, Option.map_some, Option.bind_some, Option.bind_some,
          Entity.property?_withSides]
        by_cases named : asked.property = place.property
        · rw [if_pos named, if_pos (congrArg₂ Place.mk here named)]
        · rw [if_neg named, if_neg fun equal => named (by rw [equal])]
      · rw [if_neg here, if_neg fun equal => here (by rw [equal])]

/-! ## Added inverses -/

theorem alike_addWithin (entities : Entities) (holder : String)
    (property : Property) :
    (entities.addWithin holder property).Alike entities := by
  refine alike_of_change _ rfl ?_
  intro entity
  split
  · unfold Entity.offer
    split <;> rfl
  · rfl

theorem find?_addWithin (entities : Entities) (holder : String)
    (property : Property) (name : String) :
    (entities.addWithin holder property).find? name =
      (entities.find? name).map fun entity =>
        if entities.isWithin entity.name holder then entity.offer property
        else entity :=
  Table.find?_map _ _ _ name

theorem Entity.property?_offer (entity : Entity) (property : Property)
    (name : String) :
    (entity.offer property).property? name =
      (entity.property? name).or
        (if property.name = name then some property else none) := by
  unfold Entity.offer
  rw [Table.contains_eq]
  split
  · rename_i used
    by_cases here : property.name = name
    · subst here
      rcases Option.isSome_iff_exists.mp used with ⟨present, found⟩
      rw [Entity.property?, found]
      rfl
    · rw [if_neg here, Option.or_none]
  · rename_i unused
    rw [Entity.property?, Table.find?_insert]
    by_cases here : property.name = name
    · subst here
      rw [Bool.not_eq_true, Option.isSome_eq_false_iff,
        Option.isNone_iff_eq_none] at unused
      rw [if_pos rfl, if_pos rfl, Entity.property?, unused]
      rfl
    · rw [if_neg here, if_neg here, Option.or_none]
      rfl

/-- An added property is held by the entities within its holder that held
nothing under its name. -/
theorem property?_addWithin (entities : Entities) (holder : String)
    (property : Property) {asked : Place}
    (registered : asked.entity ∈ entities.keys) :
    (entities.addWithin holder property).property? asked =
      (entities.property? asked).or
        (if property.name = asked.property ∧
            entities.isWithin asked.entity holder = true then some property
          else none) := by
  rcases Table.mem_keys_iff.mp registered with ⟨entity, found⟩
  have named := (Table.find?_eq_some found).2
  rw [property?, find?_addWithin, property?, found,
    Option.map_some, Option.bind_some, Option.bind_some, named]
  by_cases within : entities.isWithin asked.entity holder = true
  · rw [if_pos within, Entity.property?_offer]
    simp only [within, and_true]
  · rw [if_neg within, if_neg fun both => within both.2, Option.or_none]

end Entities

end EntityCatalog
