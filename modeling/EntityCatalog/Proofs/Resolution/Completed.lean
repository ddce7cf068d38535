import EntityCatalog.Proofs.Entity.Completed
import EntityCatalog.Proofs.Entity.Embedding
import EntityCatalog.Proofs.Relation.Ownership
import EntityCatalog.Proofs.Relation.Traversal
import EntityCatalog.Proofs.Resolution.Stages

/-!
# Resolutions that find nothing wrong

Whatever the sources answer, a resolution that finds nothing wrong has merged
properties along a forest, has settled every relation wherever it is held, and
has looked at every declaration.  `Setting.Silent` says that no stage reported
anything.  A property of the result then points at a registered entity that may
be its target (`Silent.exists_target`), and an enum has items
(`Silent.exists_items`).
-/

namespace EntityCatalog

/-! ## Settled copies -/

namespace Settlement.Carried

open Pairing

variable {merged : Entities} {proposed : Place → Sides → Prop}
  {added : List Synthesis} {progress : Progress}
  {own : Place → Option Property} {place : Place} {property : Property}

/-- At its origin a property is held with other sides at most. -/
theorem exists_at_origin (carried : Carried merged proposed added progress)
    (merges : merged.Merges own)
    (registered : ∀ synthesis ∈ added, synthesis.holder ∈ merged.keys)
    (held : progress.entities.property? place = some property) :
    ∃ sides, progress.entities.property? property.origin =
      some (property.withSides sides) := by
  rcases carried.property_cases held with
    ⟨before, sides, first, rfl, -⟩ | ⟨-, synthesis, member, -, rfl⟩
  · rcases carried.held _ before (merges.held_at_origin first) with
      ⟨others, kept, -⟩
    refine ⟨others, ?_⟩
    rw [Property.origin_withSides, Property.withSides_withSides]
    exact kept
  · refine ⟨⟨false, some synthesis.source.property, none⟩, ?_⟩
    exact carried.property?_of_added merges member (registered _ member)

/-- A target that is known before completion is that of an added inverse. -/
theorem source_of_known (carried : Carried merged proposed added progress)
    (closed : ∀ asked before target, merged.property? asked = some before →
      before.target? = some target → target.entity = none)
    (held : progress.entities.property? place = some property)
    {target : Target} {entity : String} (pointed : property.target? = some target)
    (known : target.entity = some entity) :
    ∃ synthesis ∈ added, synthesis.source.entity = entity := by
  rcases carried.property_cases held with
    ⟨before, sides, first, rfl, -⟩ | ⟨-, synthesis, member, -, rfl⟩
  · rw [Property.target?_withSides] at pointed
    rw [closed place before target first pointed] at known
    cases known
  · cases pointed
    cases known
    exact ⟨synthesis, member, rfl⟩

end Settlement.Carried

namespace Resolution

/-! ## Stages that find nothing wrong -/

namespace Setting

variable {setting : Setting} {tally : Tally}

theorem registered_of_added {synthesis : Synthesis}
    (member : synthesis ∈ syntheses (setting.pairedAt tally).decisions) :
    synthesis.holder ∈ setting.schemas.keys ∧
      synthesis.source.entity ∈ setting.schemas.keys := by
  rw [← Entities.keys_ofSchemas setting.schemas (setting.linkedAt tally).bases]
  cases accounted_pairedAt.decisions _
    (Pairing.Scope.Cleared.mem_syntheses_iff.mp member) with
  | synthesize inverts registered =>
      exact ⟨registered, Table.mem_keys_of_find? inverts.held.entity⟩

/-- No stage of a resolution finds anything wrong. -/
structure Silent (setting : Setting) (tally : Tally) : Prop where
  fits : setting.misuses = []
  linked : (setting.linkedAt tally).defects = []
  missed : (setting.pairedAt tally).missed = []
  settled : (setting.settledAt tally).defects = []
  visited : (setting.visitedAt tally).defects = []
  embedding : (setting.entitiesAt tally).embeddingDefects = []
  keys : setting.config.requirePrimaryKey = true →
    (setting.entitiesAt tally).keyDefects setting.schemas [] = []

/-- A property in the end is a settled one, completed. -/
theorem exists_settled {place : Place} {property : Property}
    (held : (setting.entitiesAt tally).property? place = some property) :
    ∃ before, (setting.settledAt tally).entities.property? place =
        some before ∧
      property = (setting.visitedAt tally).complete before := by
  rw [entitiesAt, Entities.property?_index, Entities.property?_complete]
    at held
  rcases Option.map_eq_some_iff.mp held with ⟨before, kept, rfl⟩
  exact ⟨before, kept, rfl⟩

/-- If a resolution finds nothing wrong, no stage does. -/
theorem silent_of_run (silent : (setting.run tally).defects = []) :
    setting.Silent tally := by
  rw [run_eq, withoutRepeats_eq_nil_iff, collected] at silent
  simp only [List.append_eq_nil_iff, List.map_eq_nil_iff] at silent
  rcases silent with
    ⟨⟨⟨⟨⟨⟨fits, linked⟩, paired⟩, settled⟩, visited⟩, embedding⟩, keys⟩
  have missed := accounted_pairedAt.missed paired
  refine ⟨fits, linked, missed, settled, visited, embedding, fun required => ?_⟩
  rw [keyDefectsAt, if_pos required, invalidAt, dropped, fits, missed] at keys
  exact keys

/-! ## What the stages come to -/

namespace Silent

variable (silent : setting.Silent tally)

include silent

theorem invalidAt_eq_nil : setting.invalidAt tally = [] := by
  rw [invalidAt, dropped, silent.fits, silent.missed]
  rfl

theorem carried :
    Settlement.Carried (setting.scopeAt tally).entities
      ((setting.scopeAt tally).entities.Proposes
        (setting.pairedAt tally).decisions)
      (syntheses (setting.pairedAt tally).decisions)
      (setting.settledAt tally) :=
  Settlement.carried_carryOut merges_scopeAt
    (fun decision member =>
      (accounted_pairedAt.decisions decision member).addresses)
    silent.settled

/-- The targets that were kept are registered. -/
theorem registered_visitedAt :
    (setting.visitedAt tally).findings.Registered setting.directory := by
  have paired := (setting.scopeAt tally).kept_run
    (fun _ _ findings registered =>
      Findings.registered_force _ findings registered _ _)
    (Findings.registered_of_tally (setting.scopeAt tally).directory
      (setting.linkedAt tally).tally)
  rw [visitedAt, silent.invalidAt_eq_nil]
  exact Completion.registered_run paired _

/-- What a settled property lacks was found for its declaration, which is held
at its origin with other sides at most. -/
theorem exists_provided {place : Place} {property : Property}
    (held : (setting.settledAt tally).entities.property? place =
      some property) :
    ∃ sides, (setting.settledAt tally).entities.property? property.origin =
        some (property.withSides sides) ∧
      (setting.visitedAt tally).Provides (property.withSides sides) := by
  rcases silent.carried.exists_at_origin merges_scopeAt
    (fun synthesis member => by
      rw [show (setting.scopeAt tally).entities.keys = _ from
        Entities.keys_ofSchemas _ _]
      exact (registered_of_added member).1) held with ⟨sides, kept⟩
  refine ⟨sides, kept, ?_⟩
  have visited := silent.visited
  rw [visitedAt, silent.invalidAt_eq_nil] at visited ⊢
  refine Completion.provides_all ?_ visited _ ?_
  · intro first inside second within same
    have left := Entities.mem_ownProperties_iff.mp inside
    rw [same, Entities.mem_ownProperties_iff.mp within] at left
    exact (Option.some.inj left).symm
  · rw [Entities.mem_ownProperties_iff, Property.origin_withSides]
    exact kept

/-- A target that is known before completion is registered. -/
theorem registered_of_known {place : Place} {property : Property}
    (held : (setting.settledAt tally).entities.property? place =
      some property) {target : Target} {entity : String}
    (pointed : property.target? = some target)
    (known : target.entity = some entity) :
    entity ∈ setting.schemas.keys := by
  rcases silent.carried.source_of_known
    (fun asked before target first here =>
      (Entities.lawful_of_declaredAt
        (merges_scopeAt.declared_of_held first).1).2.open_target _ here)
    held pointed known with ⟨synthesis, member, rfl⟩
  exact (registered_of_added member).2

/-- The target that all copies of a settled property are given is
registered. -/
theorem exists_registered_target {place : Place} {before : Property}
    (kept : (setting.settledAt tally).entities.property? place = some before)
    {target : Target} (pointed : before.target? = some target) :
    ∃ name ∈ setting.schemas.keys,
      ((setting.visitedAt tally).findings.target? before.origin <|>
        target.entity) = some name := by
  cases found : (setting.visitedAt tally).findings.target? before.origin with
  | some name => exact ⟨name, silent.registered_visitedAt _ _ found, rfl⟩
  | none =>
      -- Nothing was looked up, so the target was known before.
      rcases silent.exists_provided kept with ⟨sides, -, provides⟩
      have still : (before.withSides sides).target? = some target := by
        rw [Property.target?_withSides, pointed]
      rcases provides.target target still with ⟨name, known⟩
      rw [Property.origin_withSides, Findings.known?, found] at known
      have given : target.entity = some name := by simpa using known
      exact ⟨name, silent.registered_of_known kept pointed given, given⟩

/-! ## Properties in the end -/

/-- What points at an entity points at a registered one, as its declaration
does. -/
theorem exists_targetName {place : Place} {property : Property}
    (held : (setting.entitiesAt tally).property? place = some property)
    (pointing : property.kind.hasTarget = true) :
    ∃ name ∈ setting.schemas.keys, property.targetName? = some name ∧
      ∃ first, (setting.entitiesAt tally).property? first.origin =
          some first ∧
        first.targetName? = some name ∧ first.kind = property.kind := by
  rcases exists_settled held with ⟨before, kept, rfl⟩
  rw [Completion.kind_complete] at pointing
  rcases Property.exists_target_of_hasTarget pointing with ⟨target, pointed⟩
  rcases silent.exists_provided kept with ⟨sides, atOrigin, -⟩
  have still : (before.withSides sides).target? = some target := by
    rw [Property.target?_withSides, pointed]
  rcases silent.exists_registered_target kept pointed with
    ⟨name, registered, aims⟩
  refine ⟨name, registered, ?_, ?_⟩
  · rw [Completion.targetName?_complete _ pointed, aims]
  · refine ⟨(setting.visitedAt tally).complete (before.withSides sides),
      ?_, ?_, ?_⟩
    · rw [entitiesAt, Entities.property?_index, Entities.property?_complete,
        Completion.origin_complete, Property.origin_withSides, atOrigin,
        Option.map_some]
    · rw [Completion.targetName?_complete _ still, Property.origin_withSides,
        aims]
    · simp

/-- What points at an entity points at one that it may point at. -/
theorem exists_target {place : Place} {property : Property}
    (held : (setting.entitiesAt tally).property? place = some property)
    (pointing : property.kind.hasTarget = true) :
    ∃ target, property.targetName?.bind (setting.entitiesAt tally).find? =
        some target ∧
      target.embeddable = property.isEmbedded := by
  rcases silent.exists_targetName held pointing with
    ⟨name, registered, aims, first, atOrigin, firstAims, kind⟩
  rw [← keys_entitiesAt] at registered
  rcases Table.mem_keys_iff.mp registered with ⟨target, found⟩
  refine ⟨target, by rw [aims, Option.bind_some, found], ?_⟩
  have targets : (setting.entitiesAt tally).Targets first target :=
    ⟨atOrigin, by rw [firstAims, Option.bind_some, found]⟩
  have fits :=
    (Entities.embeddingDefects_eq_nil_iff.mp silent.embedding _ _ targets).1
  rw [Entities.targetMisuse_eq_none_iff] at fits
  rw [fits, Property.isEmbedded, Property.isEmbedded, kind]

/-- An enum has items, and its default is one of them. -/
theorem exists_items {place : Place} {property : Property} {part : Enumeration}
    (held : (setting.entitiesAt tally).property? place = some property)
    (enumerated : property.enumeration? = some part) :
    ∃ items, part.items = some items ∧ property.defaultMisuse items = none := by
  rcases exists_settled held with ⟨before, kept, rfl⟩
  have kind : before.kind = .enumeration := by
    rw [← Completion.kind_complete (setting.visitedAt tally) before]
    exact Property.kind_of_enumeration? enumerated
  rcases Property.exists_enumeration_of_kind kind with ⟨first, declared⟩
  rcases silent.exists_provided kept with ⟨sides, -, provides⟩
  rw [Property.withSides_of_relation?_eq_none
    (Property.relation?_of_enumeration? declared)] at provides
  rcases provides.items first declared with ⟨items, found, fits⟩
  rcases Completion.enumeration?_complete (setting.visitedAt tally) declared
    with ⟨completed, default, array⟩
  rw [completed, found] at enumerated
  cases enumerated
  refine ⟨items, rfl, ?_⟩
  rw [Property.defaultMisuse, default, array]
  exact fits

end Silent

end Setting

end Resolution

end EntityCatalog
