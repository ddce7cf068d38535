import EntityCatalog.Proofs.Entity.Indexed
import EntityCatalog.Proofs.Graph.Linked
import EntityCatalog.Proofs.Graph.Resolved
import Mathlib.Data.List.Flatten

/-!
# Back-references

What an entity knows of the relations that point at it is read off all
relations once, and what the graph answers about them is looked up from there.
Neither loses a relation or repeats one (`knows_of_frozen`): an entity knows
exactly the relations that have it for their target, each once, in the order in
which their holders were registered and hold them.
-/

namespace EntityCatalog

/-! ## The order of places -/

namespace Entities

variable (entities : Entities)

/-- A place comes before another if its entity was registered earlier, or if
both are of one entity that holds the first earlier. -/
def Before (earlier later : Place) : Prop :=
  entities.keys.idxOf earlier.entity < entities.keys.idxOf later.entity ∨
    earlier.entity = later.entity ∧
      (entities.propertyNames earlier.entity).idxOf earlier.property <
        (entities.propertyNames later.entity).idxOf later.property

theorem not_before_self (place : Place) :
    ¬ entities.Before place place := by
  rintro (before | ⟨-, before⟩) <;> exact absurd before (Nat.lt_irrefl _)

/-- The places of all properties, entity by entity. -/
def places : List Place :=
  entities.items.flatMap fun entity =>
    entity.properties.items.map entity.place

theorem pairwise_places : entities.places.Pairwise entities.Before := by
  refine List.pairwise_flatMap.mpr ⟨fun entity member => ?_, ?_⟩
  · refine List.pairwise_map.mpr ?_
    have names := propertyNames_of_find? (Table.find?_key member)
    refine entity.properties.pairwise_idxOf_keys.imp fun before => ?_
    refine Or.inr ⟨rfl, ?_⟩
    rw [Entity.place, Entity.place, names]
    exact before
  · refine entities.pairwise_idxOf_keys.imp fun before => ?_
    rintro earlier inFirst later inSecond
    rcases List.mem_map.mp inFirst with ⟨property, -, rfl⟩
    rcases List.mem_map.mp inSecond with ⟨other, -, rfl⟩
    exact Or.inl before

/-! ## What points at an entity -/

/-- A property of an entity as the entity called `name` knows it, if that is
what it relates to. -/
def referenceFrom (name : String) (holder : Entity) (property : Property) :
    Option BackReference :=
  property.relation?.bind fun relation =>
    if relation.target.entity = some name then
      some ⟨holder.place property, relation.kind⟩
    else none

theorem referenceFrom_eq_some_iff {name : String} {holder : Entity}
    {property : Property} {reference : BackReference} :
    referenceFrom name holder property = some reference ↔
      ∃ relation, property.relation? = some relation ∧
        relation.target.entity = some name ∧
        ⟨holder.place property, relation.kind⟩ = reference := by
  simp only [referenceFrom, Option.bind_eq_some_iff,
    Option.ite_none_right_eq_some, Option.some.injEq]

theorem referencesTo_eq (name : String) :
    entities.referencesTo name = entities.items.flatMap fun holder =>
      holder.properties.items.filterMap (referenceFrom name holder) := by
  rw [referencesTo, references, List.filter_flatMap, List.map_flatMap]
  refine List.flatMap_congr fun holder _ => ?_
  rw [List.filter_filterMap, List.map_filterMap]
  refine List.filterMap_congr fun property _ => ?_
  rw [referenceFrom]
  cases property.relation? with
  | none => rfl
  | some relation =>
      cases aims : relation.target.entity with
      | none => simp [aims]
      | some target => by_cases same : target = name <;> simp [aims, same]

theorem mem_referencesTo_iff {name : String} {reference : BackReference} :
    reference ∈ entities.referencesTo name ↔
      ∃ holder ∈ entities.items, ∃ property ∈ holder.properties.items,
        ∃ relation, property.relation? = some relation ∧
          relation.target.entity = some name ∧
          ⟨holder.place property, relation.kind⟩ = reference := by
  simp only [referencesTo_eq, List.mem_flatMap, List.mem_filterMap,
    referenceFrom_eq_some_iff]

/-- Back-references keep the order of the places that they come from. -/
theorem sublist_places (name : String) :
    ((entities.referencesTo name).map BackReference.place).Sublist
      entities.places := by
  rw [referencesTo_eq, List.map_flatMap, places]
  refine List.Sublist.flatMap_right _ fun holder _ => ?_
  rw [List.map_filterMap]
  refine Table.sublist_filterMap fun property place placed => ?_
  rcases Option.map_eq_some_iff.mp placed with ⟨reference, known, rfl⟩
  rcases referenceFrom_eq_some_iff.mp known with ⟨relation, -, -, rfl⟩
  rfl

/-- What indexing tells an entity does not depend on what it was told before. -/
theorem index_index : entities.index.index = entities.index := by
  have told : entities.index.unindexed = entities.unindexed := by
    refine Table.ext ?_
    change (entities.items.map _).map _ = entities.items.map _
    rw [List.map_map]
    rfl
  rw [← entities.index.index_unindexed, told, index_unindexed]

theorem referencedBy_of_index {target : Entity}
    (member : target ∈ entities.index.items) :
    target.referencedBy = entities.index.referencesTo target.name := by
  rw [← index_index] at member
  rcases List.mem_map.mp member with ⟨before, -, rfl⟩
  rfl

end Entities

/-! ## What a graph knows of its relations -/

/-- What an entity of a graph and the graph itself know of the relations that
point at the entity. -/
structure Graph.Knows (graph : Graph) (target : Entity) : Prop where
  exact : ∀ reference,
    reference ∈ target.referencedBy ↔
      ∃ holder ∈ graph.entities.items, ∃ property ∈ holder.properties.items,
        property.kind = .relation reference.kind ∧
          graph.target? property = some target ∧
          holder.place property = reference.place
  once : (target.referencedBy.map BackReference.place).Nodup
  /-- They stand in the order in which their holders were registered, and then
  in the order in which these hold them. -/
  ordered : (target.referencedBy.map BackReference.place).Pairwise
    graph.entities.Before
  listed : ((graph.relationsTo target.name).map fun (holder, property) =>
    holder.place property) = target.referencedBy.map BackReference.place
  mirrored : ∀ holder property,
    (holder, property) ∈ graph.relationsTo target.name ↔
      holder ∈ graph.entities.items ∧
        property ∈ graph.relationsFrom holder.name ∧
        graph.target? property = some target

namespace Graph

variable {graph : Graph} {target : Entity}

theorem mem_relationsFrom_iff {holder : Entity} {property : Property}
    (member : holder ∈ graph.entities.items) :
    property ∈ graph.relationsFrom holder.name ↔
      property ∈ holder.properties.items ∧ property.isRelation = true := by
  rw [relationsFrom, entity?, Table.find?_key member, Option.map_some,
    Option.getD_some, Entity.relations, Entity.select, List.mem_filter]

/-- What is held at a place, with its holder. -/
def held? (graph : Graph) (place : Place) : Option (Entity × Property) := do
  let holder ← graph.entity? place.entity
  let property ← holder.property? place.property
  return (holder, property)

theorem held?_eq_some_iff {place : Place} {holder : Entity}
    {property : Property} :
    graph.held? place = some (holder, property) ↔
      holder ∈ graph.entities.items ∧ property ∈ holder.properties.items ∧
        holder.place property = place := by
  unfold held?
  constructor
  · intro found
    rcases Option.bind_eq_some_iff.mp found with ⟨entity, here, rest⟩
    rcases Option.bind_eq_some_iff.mp rest with ⟨other, holds, same⟩
    cases same
    rcases Table.find?_eq_some here with ⟨member, name⟩
    rcases Table.find?_eq_some holds with ⟨inside, called⟩
    exact ⟨member, inside, congrArg₂ Place.mk name called⟩
  · rintro ⟨member, inside, rfl⟩
    refine Option.bind_eq_some_iff.mpr ⟨holder, Table.find?_key member, ?_⟩
    exact Option.bind_eq_some_iff.mpr ⟨property, Table.find?_key inside, rfl⟩

theorem relationsTo_eq (member : target ∈ graph.entities.items) :
    graph.relationsTo target.name =
      (target.referencedBy.map BackReference.place).filterMap graph.held? := by
  rw [relationsTo, entity?, Table.find?_key member, List.filterMap_map]
  rfl

section

variable (indexed : graph.entities.index = graph.entities)
  (member : target ∈ graph.entities.items)

include indexed member

theorem referencedBy_eq :
    target.referencedBy = graph.entities.referencesTo target.name := by
  have before := member
  rw [← indexed] at before
  rw [graph.entities.referencedBy_of_index before, indexed]

/-- An entity that knows what indexing told it knows what points at it. -/
theorem mem_referencedBy_iff (reference : BackReference) :
    reference ∈ target.referencedBy ↔
      ∃ holder ∈ graph.entities.items, ∃ property ∈ holder.properties.items,
        property.kind = .relation reference.kind ∧
          graph.target? property = some target ∧
          holder.place property = reference.place := by
  rw [referencedBy_eq indexed member, Entities.mem_referencesTo_iff]
  refine exists_congr fun holder => and_congr_right fun _ =>
    exists_congr fun property => and_congr_right fun _ => ?_
  constructor
  · rintro ⟨relation, related, aims, rfl⟩
    exact ⟨Property.kind_of_relation? related,
      (target?_eq_some_iff related).mpr ⟨aims, Table.find?_key member⟩, rfl⟩
  · rintro ⟨kind, aims, placed⟩
    rcases Property.exists_relation_of_kind kind with ⟨relation, related, same⟩
    refine ⟨relation, related, ((target?_eq_some_iff related).mp aims).1, ?_⟩
    rw [placed, same]

theorem pairwise_referencedBy :
    (target.referencedBy.map BackReference.place).Pairwise
      graph.entities.Before := by
  rw [referencedBy_eq indexed member]
  exact graph.entities.pairwise_places.sublist
    (graph.entities.sublist_places target.name)

/-- No lookup of a known relation fails. -/
theorem map_relationsTo :
    ((graph.relationsTo target.name).map fun (holder, property) =>
      holder.place property) = target.referencedBy.map BackReference.place := by
  rw [relationsTo_eq member, List.map_filterMap]
  refine Eq.trans (List.filterMap_congr fun place listed => ?_)
    List.filterMap_some
  rcases List.mem_map.mp listed with ⟨reference, inside, rfl⟩
  rcases (mem_referencedBy_iff indexed member reference).mp inside with
    ⟨holder, holds, property, holding, -, -, placed⟩
  rw [held?_eq_some_iff.mpr ⟨holds, holding, placed⟩, Option.map_some]
  exact congrArg some placed

theorem mem_relationsTo_iff {holder : Entity} {property : Property} :
    (holder, property) ∈ graph.relationsTo target.name ↔
      holder ∈ graph.entities.items ∧
        property ∈ graph.relationsFrom holder.name ∧
        graph.target? property = some target := by
  rw [relationsTo_eq member, List.mem_filterMap]
  constructor
  · rintro ⟨place, listed, found⟩
    rcases List.mem_map.mp listed with ⟨reference, inside, rfl⟩
    rcases (mem_referencedBy_iff indexed member reference).mp inside with
      ⟨other, holds, same, holding, kind, aims, placed⟩
    rw [held?_eq_some_iff.mpr ⟨holds, holding, placed⟩] at found
    cases found
    refine ⟨holds, (mem_relationsFrom_iff holds).mpr ⟨holding, ?_⟩, aims⟩
    rw [Property.isRelation, kind]
    rfl
  · rintro ⟨holds, answered, aims⟩
    rcases (mem_relationsFrom_iff holds).mp answered with ⟨holding, related⟩
    rcases Property.exists_relation_of_isRelation related with ⟨relation, here⟩
    have inside := (mem_referencedBy_iff indexed member
      ⟨holder.place property, relation.kind⟩).mpr
        ⟨holder, holds, property, holding, Property.kind_of_relation? here,
          aims, rfl⟩
    exact ⟨holder.place property, List.mem_map_of_mem inside,
      held?_eq_some_iff.mpr ⟨holds, holding, rfl⟩⟩

theorem knows_of_index : graph.Knows target where
  exact := mem_referencedBy_iff indexed member
  once := (pairwise_referencedBy indexed member).imp fun before same => by
    rw [same] at before
    exact graph.entities.not_before_self _ before
  ordered := pairwise_referencedBy indexed member
  listed := map_relationsTo indexed member
  mirrored := fun _ _ => mem_relationsTo_iff indexed member

end

end Graph

/-! ## Frozen registries -/

/-- In the graph of a frozen registry, whose entities stand in the order of
their registration, every entity and the graph know the relations that point at
it, and every relation points at an entity. -/
theorem knows_of_frozen {sources : Sources} {registry : Registry}
    {tally : Tally} {graph : Graph}
    (reachable : registry.Reachable sources)
    (frozen : (registry.finalize sources tally).outcome = .ok graph) :
    graph.names = registry.schemas.keys ∧
      (∀ target ∈ graph.entities.items, graph.Knows target) ∧
      ∀ holder ∈ graph.entities.items,
        ∀ property ∈ graph.relationsFrom holder.name,
          ∃ target ∈ graph.entities.items,
            graph.target? property = some target := by
  rcases reachable.run_of_finalize frozen with ⟨tally, none, entities⟩
  have silent := Resolution.Setting.silent_of_run none
  rw [Resolution.Setting.run_eq] at entities
  dsimp only at entities
  have indexed : graph.entities.index = graph.entities := by
    rw [entities, Resolution.Setting.entitiesAt, Entities.index_index]
  refine ⟨?_, fun target member => Graph.knows_of_index indexed member,
    fun holder member property answered => ?_⟩
  · rw [Graph.names, entities]
    exact Resolution.Setting.keys_entitiesAt
  · rcases (Graph.mem_relationsFrom_iff member).mp answered with
      ⟨holding, related⟩
    rcases (silent.links entities member).relations property holding related with
      ⟨target, aims, -⟩
    rcases Option.bind_eq_some_iff.mp aims with ⟨name, -, found⟩
    exact ⟨target, (Table.find?_eq_some found).1, aims⟩

/-- The library, whose topics know a relation of the items and the books that
inherit it, and whose books know the inverse that topics were given. -/
theorem knows_of_frozen_library :
    Registry.Reachable librarySources library ∧
      (library.finalize librarySources .empty).outcome = .ok libraryGraph ∧
      libraryGraph.names = ["Item", "Shelf", "Book", "Topic"] ∧
      (∀ target ∈ libraryGraph.entities.items, libraryGraph.Knows target) ∧
      (libraryGraph.entity? "Topic").map (·.referencedBy) = some
        [⟨⟨"Item", "topics"⟩, .manyToMany⟩,
          ⟨⟨"Book", "topics"⟩, .manyToMany⟩] ∧
      (libraryGraph.entity? "Book").map (·.referencedBy) = some
        [⟨⟨"Topic", "book_topics"⟩, .manyToMany⟩] := by
  rcases knows_of_frozen reachable_library finalize_library with
    ⟨names, knows, -⟩
  refine ⟨reachable_library, finalize_library, names.trans ?_, knows, ?_, ?_⟩
  · decide +kernel
  · decide +kernel
  · decide +kernel

end EntityCatalog
