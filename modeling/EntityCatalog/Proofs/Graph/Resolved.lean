import EntityCatalog.Proofs.Registry.Reachable
import EntityCatalog.Proofs.Resolution.Relations

/-!
# Graphs of frozen registries

With steady sources the graph of a reachable registry is the result of a
resolution in which nothing is wrong (`Reachable.resolved`).  Its relations are
known from there, and a property of the entity that a relation points at is
what the graph holds at its place.
-/

namespace EntityCatalog

open Pairing Resolution

/-- What a property points at, the graph has. -/
theorem Graph.target?_eq_some_iff {graph : Graph} {property : Property}
    {target : Entity} {relation : Relation}
    (related : property.relation? = some relation) :
    graph.target? property = some target ↔
      relation.target.entity = some target.name ∧
        graph.entity? target.name = some target := by
  rw [Graph.target?, Property.targetName?, Property.target?_of_relation? related,
    Option.bind_some, Option.bind_eq_some_iff]
  constructor
  · rintro ⟨text, aims, found⟩
    have named : target.name = text := (Table.find?_eq_some found).2
    rw [named]
    exact ⟨aims, found⟩
  · rintro ⟨aims, found⟩
    exact ⟨_, aims, found⟩

/-- A relation that entities held before pairing, as the graph has it. -/
structure Graph.Shows (graph : Graph) (setting : Setting) (side : Side)
    (property : Property) (sides : Sides) (target : Entity) : Prop where
  found : graph.property? side.place = some property
  related : property.relation? =
    some (settledRelation side.relation sides target.name)
  origin : property.origin = side.property.origin
  agreed : side.relation.sides.Agreed (setting.scope.Proposed side.place) sides
  means : setting.directory.meaning side.relation.target.declared =
    .ok target.name
  aims : graph.target? property = some target
  holds : ∀ asked,
    target.property? asked = graph.property? ⟨target.name, asked⟩

namespace Graph.Shows

variable {graph : Graph} {setting : Setting} {side : Side}
  {property : Property} {sides : Sides} {target : Entity}

theorem name (shows : graph.Shows setting side property sides target) :
    property.name = side.property.name :=
  congrArg Place.property shows.origin

theorem declaredBy (shows : graph.Shows setting side property sides target) :
    property.declaredBy = side.property.declaredBy :=
  congrArg Place.entity shows.origin

theorem kind (shows : graph.Shows setting side property sides target) :
    property.kind = .relation side.relation.kind := by
  rw [Property.kind_of_relation? shows.related]
  rfl

theorem owner (shows : graph.Shows setting side property sides target) :
    property.owner = sides.owner :=
  Property.owner_of_relation? shows.related

theorem mappedBy? (shows : graph.Shows setting side property sides target) :
    property.mappedBy? = sides.mappedBy :=
  Property.mappedBy?_of_relation? shows.related

theorem inversedBy? (shows : graph.Shows setting side property sides target) :
    property.inversedBy? = sides.inversedBy :=
  Property.inversedBy?_of_relation? shows.related

end Graph.Shows

/-- A graph that a resolution without defects gave. -/
structure Graph.Resolved (graph : Graph) (setting : Setting) : Prop where
  sound : setting.Sound
  entities : ∃ findings start,
    findings.Faithful setting.directory (references setting.own) start ∧
      graph.entities = setting.result findings

theorem Resolution.resolved_of_silent {setting : Setting}
    (steady : setting.sources.Steady) {tally : Tally} {graph : Graph}
    (silent : (setting.run tally).defects = [])
    (entities : graph.entities = (setting.run tally).entities) :
    graph.Resolved setting := by
  have sound := ((silent_run_iff steady tally).mp silent).1
  refine ⟨sound, setting.findings tally, tally,
    sound.faithful_findings tally, ?_⟩
  rw [entities, (sound.run_eq tally).1]

/-- What freezing a reachable registry gives is resolved. -/
theorem Registry.Reachable.resolved {sources : Sources}
    (steady : sources.Steady) {registry : Registry}
    (reachable : Reachable sources registry) {tally : Tally} {graph : Graph}
    (frozen : (registry.finalize sources tally).outcome = .ok graph) :
    graph.Resolved (registry.setting sources) := by
  rcases reachable.run_of_finalize frozen with ⟨tally, silent, entities⟩
  exact resolved_of_silent steady silent entities

namespace Graph.Resolved

variable {graph : Graph} {setting : Setting}

theorem alike (resolved : graph.Resolved setting) :
    graph.entities.Alike setting.merged := by
  rcases resolved.entities with ⟨findings, _, _, entities⟩
  rw [entities]
  exact resolved.sound.alike_result findings

/-- What the graph holds is what was settled, with its target filled in. -/
theorem outline (resolved : graph.Resolved setting) (place : Place) :
    (graph.property? place).map Property.outline =
      (setting.settled.property? place).map fun property =>
        (setting.directory.link property).outline := by
  rcases resolved.entities with ⟨findings, _, faithful, entities⟩
  rw [Graph.property?, entities]
  exact resolved.sound.outline_result faithful place

theorem resolves (resolved : graph.Resolved setting) {place : Place}
    {property : Property} {relation : Relation}
    (found : graph.property? place = some property)
    (related : property.relation? = some relation) :
    setting.Resolves place property relation := by
  rcases resolved.entities with ⟨findings, _, faithful, entities⟩
  rw [Graph.property?, entities] at found
  exact resolved.sound.resolves faithful found related

/-- Every relation that entities held before pairing is in the graph. -/
theorem exists_of_held (resolved : graph.Resolved setting) {side : Side}
    (held : side.Held setting.merged) :
    ∃ property relation,
      graph.property? side.place = some property ∧
        property.relation? = some relation ∧
        property.name = side.property.name ∧
        property.declaredBy = side.property.declaredBy ∧
        property.synthesized = side.property.synthesized ∧
        relation.kind = side.relation.kind ∧
        side.relation.sides.Agreed (setting.scope.Proposed side.place)
          relation.sides := by
  rcases resolved.entities with ⟨findings, _, faithful, entities⟩
  rw [Graph.property?, entities]
  exact resolved.sound.exists_of_held faithful held

/-- Every entity is in the graph, where it holds what the graph holds at its
places. -/
theorem exists_entity (resolved : graph.Resolved setting) {name : String}
    (registered : name ∈ setting.merged.keys) :
    ∃ entity, graph.entity? name = some entity ∧ entity.name = name ∧
      ∀ asked, entity.property? asked = graph.property? ⟨name, asked⟩ := by
  rw [← resolved.alike.keys] at registered
  rcases Table.mem_keys_iff.mp registered with ⟨entity, found⟩
  refine ⟨entity, found, (Table.find?_eq_some found).2, fun asked => ?_⟩
  rw [Graph.property?, Entities.property?, found, Option.bind_some]

/-- A relation that entities held before pairing is in the graph with the sides
that were agreed on and with its target. -/
theorem exists_shown (resolved : graph.Resolved setting) {side : Side}
    (held : side.Held setting.merged) :
    ∃ property sides target,
      graph.Shows setting side property sides target := by
  rcases resolved.entities with ⟨findings, _, faithful, entities⟩
  rcases resolved.sound.exists_settled faithful held with
    ⟨property, sides, target, found, related, origin, -, agreed, means,
      registered⟩
  rcases resolved.exists_entity (Table.mem_keys_of_find? registered) with
    ⟨entity, known, name, holds⟩
  rw [← entities] at found
  rw [← name] at related means holds
  exact ⟨property, sides, entity, found, related, origin, agreed, means,
    (Graph.target?_eq_some_iff related).mpr ⟨rfl, name ▸ known⟩, holds⟩

/-- An inverse that was added is in the graph. -/
theorem exists_added (resolved : graph.Resolved setting) {synthesis : Synthesis}
    (member : synthesis ∈ syntheses setting.scope.decisions) :
    ∃ added, graph.property? synthesis.place = some added ∧
      added.outline = synthesis.property := by
  rcases resolved.entities with ⟨findings, _, faithful, entities⟩
  rw [Graph.property?, entities]
  exact resolved.sound.exists_added faithful member

/-- What entities held before pairing is in the graph. -/
theorem exists_copy (resolved : graph.Resolved setting) {place : Place}
    {before : Property} (held : setting.merged.property? place = some before) :
    ∃ property, graph.property? place = some property ∧
      property.origin = before.origin := by
  rcases resolved.sound.carried.held place before held with ⟨sides, kept, -⟩
  have outline := resolved.outline place
  rw [Setting.settled, kept, Option.map_some] at outline
  rcases Option.map_eq_some_iff.mp outline with ⟨property, found, same⟩
  refine ⟨property, found, ?_⟩
  rw [← Property.origin_outline, same, Property.origin_outline,
    Directory.origin_link, Property.origin_withSides]

section

variable (resolved : graph.Resolved setting) {place : Place}
  {property declared : Property} {relation : Relation}
  (found : graph.property? place = some property)
  (declares : setting.own property.origin = some declared)
  (related : declared.relation? = some relation)

include resolved found declares related

/-- What the graph holds of a declared relation, entities held in the same place
before pairing. -/
theorem exists_shown_at :
    ∃ side sides target, side.Held setting.merged ∧ side.place = place ∧
      side.property = declared ∧ side.relation = relation ∧
      graph.Shows setting side property sides target := by
  have outline := resolved.outline place
  rw [found, Option.map_some] at outline
  rcases Option.map_eq_some_iff.mp outline.symm with ⟨settled, kept, same⟩
  have origin : settled.origin = property.origin := by
    rw [← Property.origin_outline property, ← same, Property.origin_outline,
      Directory.origin_link]
  rcases resolved.sound.settled_cases kept with
    ⟨before, sides, held, rfl, -⟩ | ⟨-, synthesis, member, -, rfl⟩
  · have owned := (resolved.sound.merges.declared_of_held held).1
    rw [Property.origin_withSides] at origin
    rw [origin, show setting.own _ = _ from declares] at owned
    cases owned
    rcases exists_side_of_property? held related with
      ⟨entity, -, heldSide, here⟩
    rcases resolved.exists_shown heldSide with ⟨copy, sides, target, shows⟩
    have same := shows.found
    rw [here, found] at same
    cases same
    exact ⟨_, sides, target, heldSide, here, rfl, rfl, shows⟩
  · have undeclared := resolved.sound.own_of_added member
    rw [show synthesis.place = synthesis.property.origin from rfl, origin,
      declares] at undeclared
    cases undeclared

/-- What the graph holds of a declared relation entities held before pairing. -/
theorem exists_shown_of_declared :
    ∃ side sides target, side.Held setting.merged ∧
      side.property = declared ∧ side.relation = relation ∧
      graph.Shows setting side property sides target := by
  rcases resolved.exists_shown_at found declares related with
    ⟨side, sides, target, held, -, here⟩
  exact ⟨side, sides, target, held, here⟩

end

end Graph.Resolved

end EntityCatalog
