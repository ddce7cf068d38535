import EntityCatalog.Proofs.Graph.Ownership
import EntityCatalog.Proofs.Registry.Requests
import EntityCatalog.Proofs.Resolution.Reordered
import Mathlib.Data.List.Rotate

/-!
# Registration order

Schemas that freeze in one order need not do so in another one: an inverse that
was added to an entity is held by its descendants too, so an inverse of the same
name cannot be added to one of those any more.  Given that schemas freeze in one
order, the main result says exactly in which other orders they do, and that the
graphs do not differ in anything but orders.  The condition can be read off the
graph (`Graph.Timely`).
-/

namespace EntityCatalog

open Pairing Resolution

/-- An inverse was added to an entity for a relation of another one. -/
def Graph.Adds (graph : Graph) (place : Place) (source : String) : Prop :=
  ∃ property, graph.property? place = some property ∧
    property.synthesized = true ∧ property.declaredBy = place.entity ∧
    property.targetName? = some source

/-- Where two inverses of one name were added, one below the other, the entity
that the lower one was added for is dealt with first. -/
def Graph.Timely (graph : Graph) (order : List String) : Prop :=
  ∀ lower upper name below above,
    graph.Adds ⟨lower, name⟩ below → graph.Adds ⟨upper, name⟩ above →
      lower ≠ upper → graph.entities.isWithin lower upper = true →
        graph.entities.Precedes order below above

/-- What entities declare, for the entities in some order. -/
def Graph.declarations (graph : Graph) (order : List String) : List Property :=
  order.flatMap fun name =>
    ((graph.entity? name).map Entity.ownProperties).getD []

/-! ## Added inverses -/

namespace Graph.Resolved

variable {graph : Graph} {setting : Setting}

/-- The graph shows which inverses were added. -/
theorem adds_iff (resolved : graph.Resolved setting) {place : Place}
    {source : String} :
    graph.Adds place source ↔
      ∃ synthesis ∈ syntheses setting.scope.decisions,
        synthesis.place = place ∧ synthesis.source.entity = source := by
  have sound := resolved.sound
  have outline := resolved.outline place
  constructor
  · rintro ⟨property, found, synthesized, declaredBy, aims⟩
    rw [found, Option.map_some] at outline
    rcases Option.map_eq_some_iff.mp outline.symm with ⟨settled, kept, same⟩
    rcases sound.settled_cases kept with
      ⟨before, sides, first, rfl, -⟩ | ⟨-, synthesis, member, covers, rfl⟩
    · -- What was held before was declared.
      have declared := (sound.merges.declared_of_held first).1
      have original := (Entities.lawful_of_declaredAt declared).2.declared
      have still := congrArg Property.synthesized same
      rw [Property.synthesized_outline, Property.synthesized_outline,
        Directory.synthesized_link, Property.synthesized_withSides, original,
        synthesized] at still
      cases still
    · rw [Directory.link_of_known rfl rfl] at same
      refine ⟨synthesis, member, ?_, ?_⟩
      · have holder := congrArg Property.declaredBy same
        rw [Property.declaredBy_outline, Property.declaredBy_outline,
          declaredBy] at holder
        exact congrArg₂ Place.mk holder (Synthesis.covers_iff.mp covers).1
      · have target := congrArg Property.target? same
        rw [Property.target?_outline, Property.target?_outline] at target
        rw [Property.targetName?, ← target] at aims
        exact Option.some.inj aims
  · rintro ⟨synthesis, member, rfl, rfl⟩
    rw [sound.settled_of_added member, Option.map_some,
      Directory.link_of_known rfl rfl] at outline
    rcases Option.map_eq_some_iff.mp outline with ⟨property, found, same⟩
    refine ⟨property, found, ?_, ?_, ?_⟩
    · exact (Property.synthesized_outline _).symm.trans
        (congrArg Property.synthesized same)
    · exact (Property.declaredBy_outline _).symm.trans
        (congrArg Property.declaredBy same)
    · rw [Property.targetName?, ← Property.target?_outline, same]
      rfl

/-- The graph shows in which orders inverses are added in time. -/
theorem timely_iff (resolved : graph.Resolved setting) {order : List String} :
    graph.Timely order ↔ setting.scope.Timely order := by
  have within : graph.entities.isWithin = setting.scope.entities.isWithin :=
    resolved.alike.isWithin
  have precedes : graph.entities.Precedes = setting.scope.entities.Precedes := by
    funext order earlier later
    rw [Entities.Precedes, Entities.Precedes, resolved.alike.ancestry]
    rfl
  rw [Graph.Timely, Scope.Timely, within, precedes]
  constructor
  · intro timely lower lowerMember upper upperMember name
    exact timely lower.holder upper.holder lower.name _ _
      (resolved.adds_iff.mpr ⟨lower, lowerMember, rfl, rfl⟩)
      (resolved.adds_iff.mpr ⟨upper, upperMember, name ▸ rfl, rfl⟩)
  · intro timely lower upper name below above addsBelow addsAbove
    rcases resolved.adds_iff.mp addsBelow with ⟨_, lowerMember, here, rfl⟩
    rcases resolved.adds_iff.mp addsAbove with ⟨_, upperMember, there, rfl⟩
    rcases Place.mk.inj here with ⟨rfl, rfl⟩
    rcases Place.mk.inj there with ⟨rfl, same⟩
    exact timely _ lowerMember _ upperMember same.symm

/-- Whether defaults hold in another order can be told from the graph. -/
theorem defaultsHold_iff (resolved : graph.Resolved setting) {other : Setting}
    (reordered : setting.Reordered other) (tally : Tally) :
    DefaultsHold other.sources (graph.declarations other.schemas.keys) tally ↔
      DefaultsHold other.sources
        (other.settled.items.flatMap Entity.ownProperties) tally := by
  have enums : graph.entities.enums = setting.merged.enums := by
    rcases resolved.entities with ⟨findings, _, _, entities⟩
    rw [entities, Setting.result, Entities.enums_index, Entities.enums_complete,
      Setting.settled, Settlement.enums_carryOut]
  have settled : other.settled.enums = other.merged.enums :=
    Settlement.enums_carryOut _ _
  have found : ∀ name, (graph.entities.find? name).map Entity.enums =
      (other.settled.find? name).map Entity.enums := by
    intro name
    rw [Entities.enums_find? enums, Entities.enums_find? settled,
      reordered.merged.find?]
  have keys : other.schemas.keys = other.settled.keys := by
    rw [Entities.keys_of_enums settled]
    exact (Entities.keys_ofSchemas _ _).symm
  have same : (graph.declarations other.schemas.keys).filterMap Property.enum? =
      (other.settled.items.flatMap Entity.ownProperties).filterMap
        Property.enum? := by
    rw [← Table.flatMap_keys, ← keys, Entities.filterMap_enum?,
      Graph.declarations]
    simp only [Graph.entity?, Entities.filterMap_enum?, found]
  rw [← defaultsHold_filterMap, same, defaultsHold_filterMap]

/-- Whether a resolution in another order finds nothing wrong can be told from
the graph. -/
theorem silent_run_iff (resolved : graph.Resolved setting) {other : Setting}
    (reordered : setting.Reordered other) (steady : setting.sources.Steady)
    {tally : Tally} (silent : (setting.run tally).defects = [])
    (later : Tally) :
    (other.run later).defects = [] ↔
      graph.Timely other.schemas.keys ∧
        DefaultsHold other.sources (graph.declarations other.schemas.keys)
          later := by
  rw [resolved.timely_iff, resolved.defaultsHold_iff reordered]
  exact reordered.silent_run_iff_timely steady silent later

/-- Resolutions in different orders come to the same entities with the same
properties. -/
theorem agree (resolved : graph.Resolved setting) {second : Graph}
    {other : Setting} (resolvedOther : second.Resolved other)
    (reordered : setting.Reordered other) :
    second.names.Perm graph.names ∧
      ∀ place, (second.property? place).map Property.outline =
        (graph.property? place).map Property.outline := by
  constructor
  · rw [Graph.names, Graph.names, resolved.alike.keys, resolvedOther.alike.keys]
    exact (Table.keys_perm reordered.merged).symm
  · intro place
    rw [resolved.outline, resolvedOther.outline, reordered.link,
      reordered.settled resolved.sound.toRelated resolvedOther.sound.toRelated]

end Graph.Resolved

/-! ## Registering in another order -/

namespace Registry

variable {schemas others : List Schema}

theorem reordered_ofSchemas (config : Config) (sources : Sources)
    (distinct : (schemas.map Schema.name).Nodup)
    (perm : schemas.Perm others) :
    ((ofSchemas config schemas).setting sources).Reordered
      ((ofSchemas config others).setting sources) := by
  rcases ofSchemas_of_nodup config distinct with ⟨same, -, items⟩
  rcases ofSchemas_of_nodup config ((perm.map Schema.name).nodup distinct) with
    ⟨sameOthers, -, itemsOthers⟩
  refine ⟨same.trans sameOthers.symm, rfl, ?_⟩
  change (ofSchemas config schemas).schemas.items.Perm
    (ofSchemas config others).schemas.items
  rw [items, itemsOthers]
  exact perm

end Registry

/-! ## Tags and labels -/

/-- Entities that have an integer for their primary key. -/
def keyedSchema (name : String) (properties : List (String × Options)) :
    Schema :=
  { name := name
    properties := .ofList
      (("id", { Options.typed "integer" with primary := true }) ::
        properties) }

/-- Posts have tags, and articles, which are posts, have labels. -/
def tagging : List Schema :=
  [keyedSchema "Post" [], { name := "Article", base := some (.name "Post") },
    keyedSchema "Label" [("posts", .manyToMany (.name "Article"))],
    keyedSchema "Tag" [("posts", .manyToMany (.name "Post"))]]

/-- An inverse is named after its relation alone. -/
def suffixed : Config :=
  { inverseNaming := .suffix "Inverse" }

/-- The graph of posts and articles with their tags and labels. -/
def taggingGraph : Graph :=
  match ((Registry.ofSchemas suffixed tagging).finalize shopSources
    .empty).outcome with
  | .ok graph => graph
  | .error _ => default

theorem finalize_tagging :
    ((Registry.ofSchemas suffixed tagging).finalize shopSources
      .empty).outcome = .ok taggingGraph :=
  rfl

/-! ## Freezing in another order -/

variable {sources : Sources} {config : Config} {schemas others : List Schema}
  {tally : Tally} {graph : Graph}

/-- Where schemas freeze in one order they do so in another one exactly if
inverses of one name are added from below and the defaults of enums hold.  The
graphs then have the same entities with the same properties, but for the order
of entities and properties and the items of enums. -/
theorem freezes_iff_of_perm (steady : sources.Steady)
    (distinct : (schemas.map Schema.name).Nodup) (perm : schemas.Perm others)
    (frozen : ((Registry.ofSchemas config schemas).finalize sources
      tally).outcome = .ok graph) (later : Tally) :
    ((∃ other, ((Registry.ofSchemas config others).finalize sources
          later).outcome = .ok other) ↔
        graph.Timely (others.map Schema.name) ∧
          DefaultsHold sources
            (graph.declarations (others.map Schema.name)) later) ∧
      ∀ other, ((Registry.ofSchemas config others).finalize sources
          later).outcome = .ok other →
        other.names.Perm graph.names ∧
          ∀ place, (other.property? place).map Property.outline =
            (graph.property? place).map Property.outline := by
  have reordered := Registry.reordered_ofSchemas config sources distinct perm
  rcases Registry.ofSchemas_of_nodup config distinct with ⟨-, unfrozen, -⟩
  rcases Registry.ofSchemas_of_nodup config
    ((perm.map Schema.name).nodup distinct) with ⟨-, unfrozenOthers, items⟩
  have keys : others.map Schema.name = ((Registry.ofSchemas config
      others).setting sources).schemas.keys :=
    (congrArg (List.map Schema.name) items).symm
  have freezes : ∀ other, ((Registry.ofSchemas config others).finalize sources
      later).outcome = .ok other ↔ _ :=
    Registry.finalize_eq_ok_iff unfrozenOthers later
  rcases (Registry.finalize_eq_ok_iff unfrozen tally graph).mp frozen with
    ⟨silent, entities⟩
  have resolved := resolved_of_silent steady silent entities
  rw [keys]
  constructor
  · refine Iff.trans ?_
      (resolved.silent_run_iff reordered steady silent later)
    constructor
    · rintro ⟨other, frozenOther⟩
      exact ((freezes other).mp frozenOther).1
    · intro silentOther
      exact ⟨⟨_⟩, (freezes _).mpr ⟨silentOther, rfl⟩⟩
  · intro other frozenOther
    rcases (freezes other).mp frozenOther with ⟨silentOther, same⟩
    exact resolved.agree (resolved_of_silent steady silentOther same) reordered

/-- Labels may come anywhere before tags, but not after them. -/
theorem freezes_iff_of_perm_tagging :
    shopSources.Steady ∧ (tagging.map Schema.name).Nodup ∧
      ((Registry.ofSchemas suffixed tagging).finalize shopSources
        .empty).outcome = .ok taggingGraph ∧
      tagging.Perm (tagging.rotate 1) ∧ tagging.Perm tagging.reverse ∧
      (∃ other,
        ((Registry.ofSchemas suffixed (tagging.rotate 1)).finalize shopSources
            .empty).outcome = .ok other ∧
          other.names.Perm taggingGraph.names ∧
          ∀ place, (other.property? place).map Property.outline =
            (taggingGraph.property? place).map Property.outline) ∧
      ¬ ∃ other,
        ((Registry.ofSchemas suffixed tagging.reverse).finalize shopSources
          .empty).outcome = .ok other := by
  have distinct : (tagging.map Schema.name).Nodup := by decide
  have rotated : tagging.Perm (tagging.rotate 1) :=
    (List.rotate_perm tagging 1).symm
  have reversed : tagging.Perm tagging.reverse :=
    (List.reverse_perm tagging).symm
  refine ⟨steady_shopSources, distinct, finalize_tagging, rotated, reversed, ?_,
    ?_⟩
  · have frozen : ((Registry.ofSchemas suffixed (tagging.rotate 1)).finalize
        shopSources .empty).outcome.toOption.isSome = true :=
      rfl
    rcases Option.isSome_iff_exists.mp frozen with ⟨other, present⟩
    have frozenOther : ((Registry.ofSchemas suffixed
        (tagging.rotate 1)).finalize shopSources .empty).outcome = .ok other :=
      toOption_eq_some_iff.mp present
    exact ⟨other, frozenOther, (freezes_iff_of_perm steady_shopSources distinct
      rotated finalize_tagging .empty).2 other frozenOther⟩
  · rw [(freezes_iff_of_perm steady_shopSources distinct reversed
      finalize_tagging .empty).1]
    rintro ⟨timely, -⟩
    have labels : taggingGraph.Adds ⟨"Article", "postsInverse"⟩ "Label" :=
      ⟨_, rfl, rfl, rfl, rfl⟩
    have tags : taggingGraph.Adds ⟨"Post", "postsInverse"⟩ "Tag" :=
      ⟨_, rfl, rfl, rfl, rfl⟩
    have precedes := timely _ _ _ _ _ labels tags (by decide) rfl
    have later : ¬ taggingGraph.entities.Precedes
        (tagging.reverse.map Schema.name) "Label" "Tag" := by
      unfold Entities.Precedes
      decide
    exact later precedes

end EntityCatalog
