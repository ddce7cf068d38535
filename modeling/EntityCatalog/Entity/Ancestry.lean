import EntityCatalog.Entity.Basic

/-!
# Ancestry

The ancestry of an entity is the entity itself, its base, the base of that,
and so on to an entity without base.  `lineage` describes it for any function
from entities to bases.  The number of steps is bounded, and for bases without
cycles a bound by the number of entities cuts nothing off.
-/

namespace EntityCatalog

/-- An entity and its bases, nearest first, at most `steps` of them. -/
def lineage (base : String → Option String) : Nat → String → List String
  | 0, _ => []
  | steps + 1, entity =>
    entity ::
      match base entity with
      | some next => lineage base steps next
      | none => []

theorem length_lineage_le (base : String → Option String) (steps : Nat)
    (entity : String) :
    (lineage base steps entity).length ≤ steps := by
  induction steps generalizing entity with
  | zero => exact Nat.le_refl 0
  | succ steps step =>
    rw [lineage]
    cases base entity with
    | none => simp
    | some next => simpa using step next

namespace Entities

/-- An entity and its bases, nearest first. -/
def ancestry (entities : Entities) (entity : String) : List String :=
  lineage entities.base? entities.size entity

/-- Whether `ancestor` is the entity itself or one of its bases. -/
def isWithin (entities : Entities) (entity ancestor : String) : Bool :=
  decide (ancestor ∈ entities.ancestry entity)

/-- Whether one of two entities is within the other. -/
def isRelated (entities : Entities) (left right : String) : Bool :=
  entities.isWithin left right || entities.isWithin right left

/-- The number of entities in the ancestry of an entity. -/
def depth (entities : Entities) (entity : Entity) : Nat :=
  (entities.ancestry entity.name).length

/-- The entities with every base before what extends it: by depth, and in
registration order where the depth is the same. -/
def basesFirst (entities : Entities) : List Entity :=
  let ranked := entities.items.map fun entity => (entities.depth entity, entity)
  (List.range (entities.size + 1)).flatMap fun depth =>
    (ranked.filter fun rank => rank.1 = depth).map Prod.snd

/-- Putting bases first loses no entity and adds none. -/
theorem mem_basesFirst {entities : Entities} {entity : Entity} :
    entity ∈ entities.basesFirst ↔ entity ∈ entities.items := by
  simp only [basesFirst, List.mem_flatMap, List.mem_range, List.mem_map,
    List.mem_filter]
  constructor
  · rintro ⟨_, _, rank, ⟨⟨other, member, rfl⟩, _⟩, rfl⟩
    exact member
  · intro member
    have bounded : entities.depth entity < entities.size + 1 :=
      Nat.lt_succ_of_le (length_lineage_le _ _ _)
    exact ⟨entities.depth entity, bounded, (entities.depth entity, entity),
      ⟨⟨entity, member, rfl⟩, by simp⟩, rfl⟩

/-- Whether one of some places is a property of that name on the entity or on
one of its bases. -/
def anyWithin (entities : Entities) (places : List Place) (place : Place) :
    Bool :=
  (entities.ancestry place.entity).any fun ancestor =>
    decide (⟨ancestor, place.property⟩ ∈ places)

end Entities

end EntityCatalog
