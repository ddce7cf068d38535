import EntityCatalog.Proofs.Graph.Inverses
import EntityCatalog.Proofs.Relation.Grounded

/-!
# Supplied inverses

Where inverses are added, no many-to-many relation of a concrete entity is left
without another side: whichever way it is paired, a name is entered, and if it
would be left alone an inverse is added.  Every added inverse can be traced to
the relation that it was added for, which the graph still holds as its owner,
and where inverses are not added there is none (`supplies_of_frozen`).
-/

namespace EntityCatalog

open Pairing Resolution

/-! ## What pairing supplies -/

namespace Pairing.Scope.Cleared

variable {scope : Scope} {own : Place → Option Property} {side first : Side}
  {final : Sides}

/-- A side that is settled with a name bears it. -/
theorem named_of_settle
    (agreed : side.relation.sides.Agreed (scope.Proposed side.place) final)
    (copy : scope.entities.CopyOf side.place first.place) {owner : Bool}
    {name : String} {source : Place}
    (member : settle first owner (some name) source ∈ scope.decisions) :
    ∃ name, final.mappedBy = some name ∨ final.inversedBy = some name := by
  cases owner with
  | false => exact ⟨name, Or.inl (mappedBy_of_settle agreed copy member)⟩
  | true => exact ⟨name, Or.inr (inversedBy_of_settle agreed copy member)⟩

/-- A side with a hint bears the name that the hint gives. -/
theorem named_of_hint
    (agreed : side.relation.sides.Agreed (scope.Proposed side.place) final)
    {hint : Hint} {name : String}
    (hints : hint.slot side.relation.sides = some name) :
    ∃ name, final.mappedBy = some name ∨ final.inversedBy = some name := by
  cases hint with
  | mappedBy => exact ⟨name, Or.inl ((agreed.mappedBy name).mpr (Or.inl hints))⟩
  | inversedBy =>
      exact ⟨name, Or.inr ((agreed.inversedBy name).mpr (Or.inl hints))⟩

/-- Where inverses are added, a many-to-many relation of a concrete entity ends
up with a name. -/
theorem exists_name (cleared : scope.Cleared own)
    (held : side.Held scope.entities)
    (agreed : side.relation.sides.Agreed (scope.Proposed side.place) final)
    (many : side.relation.kind = .manyToMany)
    (concrete : side.entity.isAbstract = false)
    (adding : scope.config.synthesizeInverse = true) :
    ∃ name, final.mappedBy = some name ∨ final.inversedBy = some name := by
  rcases cleared.exists_concrete_representative cleared.dropped held with
    ⟨first, heldFirst, concerned, still, property, relation, copy⟩
  rcases cleared.pairs_of_clears (cleared.clears first heldFirst) concerned
    with ⟨target, pairs⟩
  have decided := mem_decisions_of_decided heldFirst
  have registered := pairs.registered
  have paired := pairs.paired
  generalize scope.decided first = decisions at decided paired
  cases paired with
  | unheard hint name hints silence =>
      exact absurd silence (cleared.reply_ne_silent registered first hint name)
  | silent unhinted single =>
      rw [relation, many] at single
      rcases single with single | single <;> cases single
  | hinted hint name other found hints answers =>
      rw [relation] at hints
      exact named_of_hint agreed hints
  | answered other found owner unhinted kind rival answer =>
      exact named_of_settle agreed copy (decided _ (List.mem_cons_self ..))
  | alone unhinted kind lonely content =>
      -- The base that stands for the entity is concrete, so one is added.
      have adds : scope.adds first = true := by
        rw [Scope.adds, relation, many, adding, still concrete]
        rfl
      rw [content] at adds
      cases adds
  | added name unhinted kind lonely concrete naming fresh =>
      exact named_of_settle agreed copy
        (decided _ (List.mem_cons_of_mem _ (List.mem_cons_self ..)))
  | between other found owner unhinted kind rival otherUnhinted only claim =>
      exact named_of_settle agreed copy (decided _ (List.mem_cons_self ..))

end Pairing.Scope.Cleared

/-- What is decided where nothing is wrong has a ground. -/
theorem Resolution.Setting.Related.grounded {setting : Setting}
    (related : setting.Related) {decision : Decision}
    (member : decision ∈ setting.scope.decisions) :
    setting.scope.Grounded decision := by
  have clean := related.clean_run .empty
  rw [← clean.decisions] at member
  exact (setting.scope.accounts_run _).decisions decision member

/-- Inverses are only added where the configuration says so. -/
theorem Resolution.Setting.Related.adds_of_added {setting : Setting}
    (related : setting.Related) {synthesis : Synthesis}
    (member : synthesis ∈ syntheses setting.scope.decisions) :
    setting.config.synthesizeInverse = true := by
  cases related.grounded (Scope.Cleared.mem_syntheses_iff.mp member) with
  | synthesize inverts registered => exact inverts.adds

/-! ## Supplied graphs -/

/-- An added inverse that a holder has, traced to the relation that it was added
for. -/
structure Graph.Traces (graph : Graph) (naming : InverseNaming)
    (holder : Entity) (added : Property) (source : Entity)
    (property : Property) : Prop where
  kind : added.kind = .relation .manyToMany
  owner : added.owner = false
  target : graph.target? added = some source
  concrete : source.isAbstract = false
  mappedBy : added.mappedBy? = some property.name
  held : property ∈ source.properties.items
  sourceKind : property.kind = .relation .manyToMany
  sourceOwner : property.owner = true
  inversedBy : property.inversedBy? = some added.name
  named : added.name = naming.inverseName source.name property.name
  /-- It points at the holder or an ancestor of the holder. -/
  within : ∃ target, graph.target? property = some target ∧
    graph.entities.isWithin holder.name target.name = true

/-- What a graph has of inverses, under a configuration. -/
structure Graph.Supplies (graph : Graph) (config : Config) : Prop where
  paired : config.synthesizeInverse = true →
    ∀ entity ∈ graph.entities.items, entity.isAbstract = false →
      ∀ property ∈ entity.properties.items,
        property.kind = .relation .manyToMany →
          ∃ name, property.mappedBy? = some name ∨
            property.inversedBy? = some name
  traced : ∀ holder ∈ graph.entities.items,
    ∀ added ∈ holder.properties.items, added.synthesized = true →
      ∃ source ∈ graph.entities.items, ∃ property,
        graph.Traces config.inverseNaming holder added source property
  unsupplied : config.synthesizeInverse = false →
    ∀ entity ∈ graph.entities.items, ∀ property ∈ entity.properties.items,
      property.synthesized = false

/-- The relation that an added inverse is. -/
theorem Synthesis.relation?_of_outline {synthesis : Synthesis}
    {added : Property} (outline : added.outline = synthesis.property) :
    added.relation? = some {
      kind := .manyToMany
      target := ⟨.name synthesis.source.entity, some synthesis.source.entity⟩
      sides := ⟨false, some synthesis.source.property, none⟩ } := by
  rw [← Property.relation?_outline, outline]
  rfl

namespace Graph.Resolved

variable {graph : Graph} {setting : Setting}

/-- An entity of the graph is abstract if it was before. -/
theorem isAbstract_eq (resolved : graph.Resolved setting) {name : String}
    {entity before : Entity} (found : graph.entity? name = some entity)
    (held : setting.merged.find? name = some before) :
    entity.isAbstract = before.isAbstract := by
  have bare := resolved.alike.find? name
  rw [show graph.entities.find? name = _ from found, held, Option.map_some,
    Option.map_some] at bare
  change entity.bare.isAbstract = before.bare.isAbstract
  rw [Option.some.inj bare]

theorem exists_name (resolved : graph.Resolved setting)
    (adding : setting.config.synthesizeInverse = true) {entity : Entity}
    (member : entity ∈ graph.entities.items)
    (concrete : entity.isAbstract = false) {property : Property}
    (held : property ∈ entity.properties.items)
    (many : property.kind = .relation .manyToMany) :
    ∃ name, property.mappedBy? = some name ∨
      property.inversedBy? = some name := by
  rcases Property.exists_relation_of_kind many with ⟨relation, related, kind⟩
  rw [Property.mappedBy?_of_relation? related,
    Property.inversedBy?_of_relation? related]
  cases resolved.resolves (Entities.property?_of_mem member held) related with
  | added synthesis absent made covers outline settled =>
      cases settled
      exact ⟨_, Or.inl rfl⟩
  | held side sides target heldSide here outline settled agreed means
      registered =>
      subst settled
      have place : side.entity.name = entity.name :=
        congrArg Place.entity here
      have still := resolved.isAbstract_eq (Table.find?_key member)
        (place ▸ heldSide.entity)
      rw [← here] at agreed
      exact resolved.sound.cleared.exists_name heldSide agreed kind
        (still.symm.trans concrete) adding

/-- An added inverse can be traced to the relation that it was added for. -/
theorem exists_traces (resolved : graph.Resolved setting) {holder : Entity}
    (member : holder ∈ graph.entities.items) {added : Property}
    (held : added ∈ holder.properties.items)
    (synthesized : added.synthesized = true) :
    ∃ source ∈ graph.entities.items, ∃ property,
      graph.Traces setting.config.inverseNaming holder added source property := by
  rcases resolved.exists_synthesis (Entities.property?_of_mem member held)
    synthesized with ⟨synthesis, made, covers, outline⟩
  rcases resolved.sound.cleared.source_of_added made with
    ⟨side, target, heldSide, means, registered, kind, concrete, same, given⟩
  have holder_eq : synthesis.holder = target.name := by rw [same]
  have source_eq : synthesis.source = side.place := by rw [same]
  have name_eq : synthesis.name = setting.config.inverseNaming.inverseName
      side.entity.name side.property.name := by
    rw [same]
    rfl
  rcases resolved.exists_shown heldSide with ⟨property, sides, aim, shows⟩
  have aim_eq : aim.name = target.name :=
    Except.ok.inj (shows.means.symm.trans means)
  rcases resolved.exists_entity (Table.mem_keys_of_find? heldSide.entity) with
    ⟨source, found, sourceName, holds⟩
  have sourceHolds : source.property? side.property.name = some property :=
    (holds _).trans shows.found
  rcases Synthesis.reads_of_outline outline with ⟨named, aims, -⟩
  have related := synthesis.relation?_of_outline outline
  have inverted := (shows.agreed.inversedBy _).mpr (Or.inr ⟨_, given, rfl⟩)
  refine ⟨source, (Table.find?_eq_some found).1, property, ?_⟩
  constructor
  case kind => exact Property.kind_of_relation? related
  case owner => exact Property.owner_of_relation? related
  case target =>
    rw [Graph.target?, aims, source_eq]
    exact found
  case concrete =>
    exact (resolved.isAbstract_eq found heldSide.entity).trans concrete
  case mappedBy =>
    rw [Property.mappedBy?_of_relation? related, source_eq, shows.name]
    rfl
  case held => exact (Table.find?_eq_some sourceHolds).1
  case sourceKind => rw [shows.kind, kind]
  case sourceOwner => exact shows.owner.trans (shows.agreed.owner _ given)
  case inversedBy => rw [shows.inversedBy?, inverted, named]
  case named => rw [named, name_eq, sourceName, shows.name]
  case within =>
    refine ⟨aim, shows.aims, ?_⟩
    rw [resolved.alike.isWithin, aim_eq, ← holder_eq]
    exact (Synthesis.covers_iff.mp covers).2

end Graph.Resolved

/-! ## Frozen registries -/

/-- The graph of a frozen registry has all inverses that its configuration asks
for, and no others. -/
theorem supplies_of_frozen {sources : Sources} (steady : sources.Steady)
    {registry : Registry} (reachable : registry.Reachable sources)
    {tally : Tally} {graph : Graph}
    (frozen : (registry.finalize sources tally).outcome = .ok graph) :
    graph.Supplies registry.config := by
  have resolved := reachable.resolved steady frozen
  refine ⟨fun adding entity member concrete property held many =>
      resolved.exists_name adding member concrete held many,
    fun holder member added held synthesized =>
      resolved.exists_traces member held synthesized,
    fun declined entity member property held => ?_⟩
  refine Bool.eq_false_iff.mpr fun synthesized => ?_
  rcases resolved.exists_synthesis (Entities.property?_of_mem member held)
    synthesized with ⟨synthesis, made, -, -⟩
  have adds := resolved.sound.adds_of_added made
  rw [show (registry.setting sources).config = registry.config from rfl,
    declined] at adds
  cases adds

/-- The articles of the shop gain the orders that they are in. -/
theorem supplies_of_frozen_shop :
    shopSources.Steady ∧ Registry.Reachable shopSources shop ∧
      (shop.finalize shopSources .empty).outcome = .ok shopGraph ∧
      shopGraph.Supplies shop.config ∧
      ∃ holder ∈ shopGraph.entities.items, holder.name = "Article" ∧
      ∃ added ∈ holder.properties.items, added.name = "order_articles" ∧
        added.synthesized = true ∧
        ∃ source ∈ shopGraph.entities.items, ∃ property,
          shopGraph.Traces shop.config.inverseNaming holder added source
            property := by
  have present : ∃ holder added,
      shopGraph.entity? "Article" = some holder ∧
      holder.property? "order_articles" = some added ∧
      added.synthesized = true :=
    ⟨_, _, rfl, rfl, rfl⟩
  rcases present with ⟨holder, added, known, found, synthesized⟩
  rcases Table.find?_eq_some known with ⟨member, named⟩
  rcases Table.find?_eq_some found with ⟨held, called⟩
  have supplies := supplies_of_frozen steady_shopSources reachable_shop
    finalize_shop
  exact ⟨steady_shopSources, reachable_shop, finalize_shop, supplies, holder,
    member, named, added, held, called, synthesized,
    supplies.traced holder member added held synthesized⟩

end EntityCatalog
