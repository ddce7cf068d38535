import EntityCatalog.Proofs.Entity.Indexed
import EntityCatalog.Proofs.Graph.Recovered
import EntityCatalog.Proofs.Resolution.Itemized
import EntityCatalog.Snapshot.Basic

/-!
# Resolved schemas are resolved

Declared as a graph resolved them, schemas without bases are resolved to the
same entities (`Resolution.run_redeclared`).  Pairing takes other ways, since
all relations are declared from both sides now, but it settles every side as it
was (`Graph.Resolved.property?_settled_redeclared`).  Completion then looks up
the same targets and evaluates the same enums.  Gone are the marks of added
inverses and what was said of ownership, so that snapshots agree but for the
marks (`Registry.finalize_redeclared`).
-/

namespace EntityCatalog

open Pairing Resolution

/-- Settled sides are resolved as they are declared. -/
theorem Sides.Settled.resolved_declared {sides : Sides}
    (settled : sides.Settled) (kind : RelationKind) :
    (sides.declared kind).resolved = sides := by
  have owner : sides.mappedBy.isNone = sides.owner := by
    rw [Bool.eq_iff_iff, Option.isNone_iff_eq_none, settled.owner]
  rw [resolved, declared]
  dsimp only
  rw [owner]

/-- Targets that were looked up before are looked up again. -/
theorem Directory.link_reopened {directory : Directory} {property : Property}
    (settles : ∀ target, property.target? = some target →
      ∃ entity, directory.meaning target.declared = .ok entity ∧
        (target.entity = none ∨ target.entity = some entity)) :
    directory.link property.reopened = (directory.link property).unclaimed := by
  cases pointed : property.target? with
  | none =>
      rw [Property.reopened_of_target?_eq_none property pointed,
        link_of_target?_eq_none pointed,
        link_of_target?_eq_none (by rw [Property.target?_unclaimed, pointed])]
  | some target =>
      rcases settles target pointed with ⟨entity, means, known⟩
      have aims : property.reopened.target? =
          some { target with entity := none } := by
        rw [Property.target?_reopened, pointed, Option.map_some]
      rw [link_of_meaning aims rfl means, Property.withTarget_reopened]
      rcases known with unknown | known
      · rw [link_of_meaning pointed unknown means]
      · rw [link_of_known pointed known, Property.withTarget_targetName? (by
          rw [Property.targetName?, pointed, Option.bind_some, known])]

/-- Reopened, enums are the same. -/
theorem Property.enumsKept_reopened : EnumsKept reopened where
  enumeration := by
    rintro ⟨name, nature⟩
    cases nature <;> rfl
  origin := origin_reopened
  judged := by
    rintro ⟨name, nature⟩ items
    cases nature <;> rfl

/-- Taking away the marks of added inverses and what is said of ownership. -/
def Retouch.unclaiming : Retouch where
  apply := Property.unclaimed
  name := Property.name_unclaimed
  declaredBy := Property.declaredBy_unclaimed
  kind := Property.kind_unclaimed
  primary := Property.primary_unclaimed
  targetName := fun property => by
    rw [Property.targetName?, Property.target?_unclaimed]
    rfl

namespace Graph.Resolved

variable {graph : Graph} {setting : Setting} (resolved : graph.Resolved setting)
  (steady : setting.sources.Steady) (baseless : setting.Baseless)

include resolved

/-! ## Settled again -/

/-- A settled relation owns exactly if it names no owner. -/
theorem settled_of_settled {place : Place} {property : Property}
    {relation : Relation}
    (kept : setting.settled.property? place = some property)
    (related : property.relation? = some relation) :
    relation.sides.Settled := by
  have shown := resolved.sides_eq place
  rw [kept, Option.map_some, related, Option.map_some] at shown
  rcases Option.map_eq_some_iff.mp shown with ⟨other, found, sides⟩
  rcases Option.map_eq_some_iff.mp sides with ⟨back, relatedOther, same⟩
  rw [← same]
  exact resolved.settled_sides found relatedOther

/-- What a settled property points at, its reference means. -/
theorem meaning_of_settled {place : Place} {property : Property}
    (kept : setting.settled.property? place = some property) {target : Target}
    (pointed : property.target? = some target) :
    ∃ entity, setting.directory.meaning target.declared = .ok entity ∧
      (target.entity = none ∨ target.entity = some entity) := by
  rcases resolved.sound.settled_cases kept with
    ⟨before, sides, held, rfl, -⟩ | ⟨-, synthesis, member, -, rfl⟩
  · rw [Property.target?_withSides] at pointed
    have unknown := (resolved.sound.cleared.open_target held pointed).2
    rcases resolved.sound.finds _ _
      (resolved.sound.merges.declared_of_held held).1 target pointed unknown
      with ⟨entity, means⟩
    exact ⟨entity, means, Or.inl unknown⟩
  · cases pointed
    exact ⟨synthesis.source.entity, Directory.meaning_name
      (resolved.sound.registered_of_added member), Or.inr rfl⟩

include steady baseless

/-- The stages up to the settlement of relations find nothing wrong. -/
theorem related_redeclared : (setting.redeclared graph).Related where
  fits := resolved.fits_redeclared baseless
  linkable := (baseless.redeclared graph).linkable
  cleared := (resolved.matched_redeclared baseless steady).cleared
  accepts := (resolved.matched_redeclared baseless steady).accepts

/-- All targets are found. -/
theorem sound_redeclared : (setting.redeclared graph).Sound where
  toRelated := resolved.related_redeclared steady baseless
  finds := by
    intro place property declared target pointed unknown
    rw [resolved.own_redeclared baseless] at declared
    rcases Option.map_eq_some_iff.mp declared with ⟨before, kept, rfl⟩
    rw [Property.target?_redeclared, Property.target?_reopened] at pointed
    rcases Option.map_eq_some_iff.mp pointed with ⟨aimed, here, rfl⟩
    rcases resolved.meaning_of_settled kept here with ⟨entity, means, -⟩
    rw [setting.directory_redeclared graph]
    exact ⟨entity, means⟩

/-- Settled again is what was settled, with its target still open. -/
theorem property?_settled_redeclared (place : Place) :
    (setting.redeclared graph).settled.property? place =
      (setting.settled.property? place).map Property.reopened := by
  have matched := resolved.matched_redeclared baseless steady
  have related := resolved.related_redeclared steady baseless
  have held : (setting.redeclared graph).merged.property? place =
      (setting.settled.property? place).map Property.redeclared := by
    rw [(baseless.redeclared graph).property?_merged,
      resolved.own_redeclared baseless]
  cases kept : setting.settled.property? place with
  | none =>
      rw [kept] at held
      refine Option.eq_none_iff_forall_ne_some.mpr fun property found => ?_
      rcases related.settled_cases found with
        ⟨before, sides, first, -⟩ | ⟨-, synthesis, member, -⟩
      · rw [held] at first
        cases first
      · rw [matched.syntheses_eq_nil] at member
        cases member
  | some property =>
      rw [kept] at held
      rcases related.carried.held place _ held with ⟨sides, found, agreed⟩
      refine Eq.trans found (congrArg some ?_)
      cases isRelation : property.relation? with
      | none =>
          have unrelated : property.redeclared.relation? = none := by
            rw [Property.relation?_redeclared, isRelation]
            rfl
          rw [Property.withSides_of_relation?_eq_none unrelated,
            Property.redeclared_of_relation?_eq_none isRelation]
      | some relation =>
          have declared : property.redeclared.relation? =
              some relation.redeclared := by
            rw [Property.relation?_redeclared, isRelation]
            rfl
          rcases exists_side_of_property? held declared with
            ⟨entity, -, side, here⟩
          have sides_eq : sides = relation.sides := by
            refine ((agreed _ declared).unique
              (here ▸ matched.agreed side)).trans ?_
            exact (resolved.settled_of_settled kept
              isRelation).resolved_declared relation.kind
          rw [sides_eq, Property.withSides_redeclared isRelation]

/-- Entities hold what they held, in order. -/
theorem propertyNames_settled_redeclared (entity : String) :
    (setting.redeclared graph).settled.propertyNames entity =
      setting.settled.propertyNames entity := by
  rw [← resolved.propertyNames_redeclared baseless]
  refine Settlement.propertyNames_carryOut (fun place absent => ?_) entity
  have settled :=
    resolved.property?_settled_redeclared steady baseless place
  rw [(baseless.redeclared graph).property?_merged,
    resolved.own_redeclared baseless, Option.map_eq_none_iff] at absent
  rw [absent] at settled
  exact settled

/-- Up to the targets, entities are settled as they were. -/
theorem unindexed_settled_redeclared :
    (setting.redeclared graph).settled.unindexed =
      (setting.settled.mapProperties Property.reopened
        Property.name_reopened).unindexed := by
  refine Entities.unindexed_eq ?_
    (resolved.propertyNames_settled_redeclared steady baseless) _
    (resolved.property?_settled_redeclared steady baseless)
  have related := resolved.related_redeclared steady baseless
  exact related.carried.alike.trans ((baseless.alike_redeclared graph).trans
    (Eq.symm resolved.sound.carried.alike))

/-- What entities declare is settled as it was, in order. -/
theorem ownProperties_redeclared :
    (setting.redeclared graph).settled.items.flatMap Entity.ownProperties =
      (setting.settled.items.flatMap Entity.ownProperties).map
        Property.reopened := by
  rw [← Entities.ownProperties_unindexed,
    resolved.unindexed_settled_redeclared steady baseless,
    Entities.ownProperties_unindexed,
    Entities.ownProperties_mapProperties _ _ Property.declaredBy_reopened]

/-! ## Completed again -/

variable {first second : Findings} {earlier later : Tally}
  (faithful : first.Faithful setting.directory (references setting.own)
    earlier)
  (faithfulToo : second.Faithful (setting.redeclared graph).directory
    (references (setting.redeclared graph).own) later)
  (alike : setting.sources.AlikeFrom earlier later)

include faithful faithfulToo alike

/-- What completion enters into a settled property is the same. -/
theorem complete_redeclared {place : Place} {property : Property}
    (kept : setting.settled.property? place = some property) :
    ((setting.redeclared graph).visited second).complete property.reopened =
      ((setting.visited first).complete property).unclaimed := by
  have keptToo := resolved.property?_settled_redeclared steady baseless place
  rw [kept, Option.map_some] at keptToo
  have items := Completion.itemsAlike_run Property.enumsKept_reopened
    (show (setting.redeclared graph).directory.sources =
      setting.directory.sources from rfl)
    (alike.of_sameMappings faithful.mappings faithfulToo.mappings)
    (resolved.ownProperties_redeclared steady baseless)
  have same : (setting.visited first).items =
      ((setting.redeclared graph).visited second).items :=
    items.items
  rw [resolved.sound.complete_settled faithful kept,
    (resolved.sound_redeclared steady baseless).complete_settled faithfulToo
      keptToo,
    setting.directory_redeclared graph, Directory.link_reopened
      fun target pointed => resolved.meaning_of_settled kept pointed,
    Property.origin_reopened, Property.withItems_unclaimed, same]

/-- The entities in the end are those that they were, without the marks of added
inverses and without what was said of ownership. -/
theorem result_redeclared :
    (setting.redeclared graph).result second =
      (setting.result first).retouch .unclaiming := by
  have related := resolved.related_redeclared steady baseless
  have same : ((setting.redeclared graph).settled.complete
      ((setting.redeclared graph).visited second)).unindexed =
        ((setting.settled.complete (setting.visited first)).retouch
          .unclaiming).unindexed := by
    refine Entities.unindexed_eq ?_ (fun entity => ?_)
      Property.name_unclaimed (fun place => ?_)
    · refine (Entities.alike_complete _ _).trans (related.carried.alike.trans
        ((baseless.alike_redeclared graph).trans ?_))
      exact Eq.symm ((Entities.alike_complete _ _).trans
        resolved.sound.carried.alike)
    · rw [Entities.propertyNames_complete, Entities.propertyNames_complete,
        resolved.propertyNames_settled_redeclared steady baseless]
    · rw [Entities.property?_complete, Entities.property?_complete,
        resolved.property?_settled_redeclared steady baseless, Option.map_map,
        Option.map_map]
      cases kept : setting.settled.property? place with
      | none => rfl
      | some property =>
          exact congrArg some (resolved.complete_redeclared steady baseless
            faithful faithfulToo alike kept)
  rw [Setting.result, ← Entities.index_unindexed, same,
    Entities.index_unindexed, Entities.index_retouch]
  rfl

end Graph.Resolved

/-- Where nothing was dropped, schemas do not excuse a missing key. -/
theorem Entities.keyDefects_nil (entities : Entities)
    (left right : Table Schema.name) :
    entities.keyDefects left [] = entities.keyDefects right [] := by
  have excused : ∀ (schemas : Table Schema.name) (entity : String),
      entities.hasInvalidKey schemas [] entity = false := by
    intro schemas entity
    have nowhere : ∀ place, entities.anyWithin [] place = false := by
      intro place
      simp [anyWithin]
    refine List.any_eq_false.mpr fun ancestor _ => ?_
    cases schemas.find? ancestor <;> simp [nowhere]
  simp only [keyDefects, excused]

/-- Resolving the schemas as they were resolved finds nothing wrong and gives
the same entities, without the marks of added inverses and without what was said
of ownership. -/
theorem Resolution.run_redeclared {setting : Setting}
    (steady : setting.sources.Steady) (baseless : setting.Baseless)
    {graph : Graph} {earlier later : Tally}
    (silent : (setting.run earlier).defects = [])
    (entities : graph.entities = (setting.run earlier).entities)
    (alike : setting.sources.AlikeFrom earlier later) :
    ((setting.redeclared graph).run later).defects = [] ∧
      ((setting.redeclared graph).run later).entities =
        graph.entities.retouch .unclaiming := by
  have resolved := resolved_of_silent steady silent entities
  rcases (silent_run_iff steady earlier).mp silent with
    ⟨sound, defaults, embedding, keys⟩
  have soundToo := resolved.sound_redeclared steady baseless
  have result := resolved.result_redeclared steady baseless
    (sound.faithful_findings earlier) (soundToo.faithful_findings later) alike
  refine ⟨(@silent_run_iff (setting.redeclared graph) steady later).mpr
    ⟨soundToo, ?_, ?_, ?_⟩, ?_⟩
  · rw [resolved.ownProperties_redeclared steady baseless]
    exact (DefaultsHold.map_iff Property.enumsKept_reopened _ alike).mpr
      defaults
  · rw [result, Entities.embeddingDefects_retouch]
    exact embedding
  · rw [Setting.keyDefects] at keys ⊢
    rw [result, Entities.keyDefects_retouch,
      Entities.keyDefects_nil _ _ setting.schemas]
    exact keys
  · rw [(soundToo.run_eq later).1, result, entities, (sound.run_eq earlier).1]

/-! ## Snapshots -/

/-- The snapshot in which no property is marked as added. -/
def Snapshot.unmarked (snapshot : Snapshot) : Snapshot where
  entities := snapshot.entities.map fun entity =>
    { entity with
      properties := entity.properties.map ({ · with synthesized := false }) }

theorem PropertySnapshot.ofProperty_unclaimed (property : Property) :
    ofProperty property.unclaimed =
      { ofProperty property with synthesized := false } := by
  rcases property with ⟨name, nature⟩
  cases nature <;> rfl

/-- A snapshot shows nothing of what is said of ownership. -/
theorem Graph.snapshot_unclaiming (entities : Entities) :
    snapshot ⟨entities.retouch .unclaiming⟩ =
      (snapshot ⟨entities⟩).unmarked := by
  have properties : ∀ entity : Entity,
      EntitySnapshot.ofEntity (entity.retouch .unclaiming) =
        { EntitySnapshot.ofEntity entity with
          properties := (EntitySnapshot.ofEntity entity).properties.map
            ({ · with synthesized := false }) } := by
    intro entity
    have same : (entity.properties.items.map Property.unclaimed).map
        PropertySnapshot.ofProperty =
          (entity.properties.items.map PropertySnapshot.ofProperty).map
            ({ · with synthesized := false }) := by
      rw [List.map_map, List.map_map]
      exact List.map_congr_left fun property _ =>
        PropertySnapshot.ofProperty_unclaimed property
    exact congrArg (fun properties =>
      { EntitySnapshot.ofEntity entity with properties := properties }) same
  rw [snapshot, snapshot, Snapshot.unmarked, Entities.items_retouch,
    List.map_map, List.map_map]
  exact congrArg Snapshot.mk
    (List.map_congr_left fun entity _ => properties entity)

/-! ## Registries -/

/-- The registry in which the schemas are declared as a graph resolved them. -/
def Registry.redeclared (registry : Registry) (graph : Graph) : Registry :=
  ofSchemas registry.config (registry.schemas.items.map graph.redeclare)

/-- It is open and starts from the setting as it was resolved. -/
theorem Registry.setting_redeclared (registry : Registry) (graph : Graph)
    (sources : Sources) :
    (registry.redeclared graph).graph = none ∧
      (registry.redeclared graph).setting sources =
        (registry.setting sources).redeclared graph := by
  have distinct : ((registry.schemas.items.map graph.redeclare).map
      Schema.name).Nodup := by
    rw [List.map_map]
    exact registry.schemas.distinct
  rcases ofSchemas_of_nodup registry.config distinct with
    ⟨config, unfrozen, items⟩
  refine ⟨unfrozen, ?_⟩
  have schemas : (registry.redeclared graph).schemas =
      registry.schemas.map graph.redeclare graph.name_redeclare :=
    Table.ext items
  rw [setting, schemas, show (registry.redeclared graph).config = _ from config]
  rfl

/-- What a registry without bases was resolved to is resolved to itself: if each
relation declares the sides that it came to have, saying nothing of ownership,
and added inverses are declared after all else, the registry is frozen under the
same configuration, and its snapshot is as before but for the marks of added
inverses.  Enum mappings have to answer the second time as they did the first
time. -/
theorem Registry.finalize_redeclared {sources : Sources} {registry : Registry}
    {tally : Tally} {graph : Graph} (steady : sources.Steady)
    (reachable : registry.Reachable sources)
    (baseless : ∀ schema ∈ registry.schemas.items, schema.base = none)
    (frozen : (registry.finalize sources tally).outcome = .ok graph) :
    ∃ earlier, (registry.graph = none → earlier = tally) ∧
      ∀ later, sources.AlikeFrom earlier later →
        ∃ other, ((registry.redeclared graph).finalize sources later).outcome =
            .ok other ∧
          other.snapshot = graph.snapshot.unmarked := by
  have run : ∃ earlier, (registry.graph = none → earlier = tally) ∧
      ((registry.setting sources).run earlier).defects = [] ∧
        graph.entities =
          ((registry.setting sources).run earlier).entities := by
    cases state : registry.graph with
    | none =>
        exact ⟨tally, fun _ => rfl,
          (finalize_eq_ok_iff state tally graph).mp frozen⟩
    | some known =>
        rcases reachable.run_of_finalize frozen with ⟨earlier, resolves⟩
        exact ⟨earlier, nofun, resolves⟩
  rcases run with ⟨earlier, known, silent, entities⟩
  refine ⟨earlier, known, fun later alike => ?_⟩
  rcases registry.setting_redeclared graph sources with ⟨unfrozen, starts⟩
  have plain : (registry.setting sources).Baseless := baseless
  rcases Resolution.run_redeclared steady plain silent entities alike with
    ⟨silentToo, result⟩
  rw [← starts] at silentToo result
  refine ⟨⟨graph.entities.retouch .unclaiming⟩,
    (finalize_eq_ok_iff unfrozen later _).mpr ⟨silentToo, result.symm⟩, ?_⟩
  exact Graph.snapshot_unclaiming graph.entities

/-- Declared as it was resolved, the circle has its snapshot again, but for the
mark of the inverse that was added to it. -/
theorem finalize_redeclared_circle :
    circleSources.Steady ∧ Registry.Reachable circleSources circle ∧
      (∀ schema ∈ circle.schemas.items, schema.base = none) ∧
      (circle.finalize circleSources .empty).outcome = .ok circleGraph ∧
      (circleGraph.property? ⟨"Person", "person_friends"⟩).any
        (·.synthesized) = true ∧
      ∃ other, ((circle.redeclared circleGraph).finalize circleSources
          .empty).outcome = .ok other ∧
        other.snapshot = circleGraph.snapshot.unmarked := by
  have baseless : ∀ schema ∈ circle.schemas.items, schema.base = none := by
    decide
  rcases Registry.finalize_redeclared steady_circleSources reachable_circle
    baseless finalize_circle with ⟨earlier, same, again⟩
  cases same rfl
  exact ⟨steady_circleSources, reachable_circle, baseless, finalize_circle,
    rfl, again .empty (.refl circleSources .empty)⟩

/-- Each relation of the circle then declares one of the two sides. -/
example :
    ((circle.redeclared circleGraph).schemas.items.flatMap fun schema =>
      schema.properties.items.map fun entry =>
        (entry.1, entry.2.owner, entry.2.mappedBy, entry.2.inversedBy)) = [
      ("id", none, none, none),
      ("mentor", none, none, some "students"),
      ("students", none, some "mentor", none),
      ("friends", none, none, some "person_friends"),
      ("leader", none, none, some "follower"),
      ("follower", none, some "leader", none),
      ("person_friends", none, some "friends", none)] := by
  decide

end EntityCatalog
