import EntityCatalog.Proofs.Entity.Embedding
import EntityCatalog.Proofs.Entity.Lacking
import EntityCatalog.Proofs.Relation.Reports
import EntityCatalog.Proofs.Resolution.Stages

/-!
# Broken declarations are found

A declared property is broken if its options do not fit together or if what it
points at is missed (`Setting.Breaks`).  Each stage leaves properties alone that
an earlier one found broken, copies of a relation that was rejected and
relations that a base pairs.  None of this hides a broken declaration: whatever
else is wrong, its defect is collected (`Setting.mem_collected_of_breaks`).

Only pairing and carrying out its decisions find that two properties do not go
together; what the other stages find is wrong with a single one
(`Setting.mem_collected_cases`).
-/

namespace EntityCatalog

/-- A defect of a single property or of a single entity: it does not say that two
properties do not go together. -/
inductive Defect.Single : Defect → Prop
  | configuration (place : Place) (misuse : Misuse) :
      Single (.configuration place misuse)
  | target (place : Place) (miss : Miss) : Single (miss.targetDefect place)
  | base (entity : String) (miss : Miss) : Single (miss.baseDefect entity)
  | cycle (entity : String) (chain : List String) :
      Single (.inheritanceCycle entity chain)
  | key (entity : String) : Single (.missingPrimaryKey entity)

namespace Resolution

open Pairing

namespace Setting

variable {setting : Setting} {tally : Tally} {place : Place}
  {property : Property} {defect : Defect}

/-- Something is wrong with a declared property on its own account. -/
inductive Breaks (setting : Setting) (place : Place) : Defect → Prop
  | options {schema : Schema} {options : Options} {misuse : Misuse}
      (registered : setting.schemas.find? place.entity = some schema)
      (declared : schema.properties.find? place.property =
        some (place.property, options))
      (fails : Property.ofOptions place.entity place.property options =
        .error misuse) :
      setting.Breaks place (.configuration place misuse)
  /-- Its options fit together, but it points at what is missed, with deferred
  references that answer the same on every evaluation. -/
  | target {property : Property} {target : Target} {miss : Miss}
      (steady : setting.sources.Steady)
      (declared : setting.own place = some property)
      (pointed : property.target? = some target)
      (missed : setting.directory.meaning target.declared = .error miss) :
      setting.Breaks place (miss.targetDefect place)

/-! ## Defects of one property -/

/-- Only pairing, and carrying out what it decides, finds that two properties do not
go together. -/
theorem mem_collected_cases (member : defect ∈ setting.collected tally) :
    defect ∈ (setting.pairedAt tally).defects ∨
      defect ∈ (setting.settledAt tally).defects ∨ defect.Single := by
  rcases mem_collected_iff.mp member with
    ⟨_, misuse, -, rfl⟩ | linked | paired | settled | visited | embedding | keys
  · exact Or.inr (Or.inr (.configuration _ misuse))
  · rcases Bases.exists_schema_of_mem_defects rfl linked with
      ⟨schema, -, ⟨reference, earlier, miss, -, -, rfl⟩ | ⟨chain, rfl⟩⟩
    · exact Or.inr (Or.inr (.base _ miss))
    · exact Or.inr (Or.inr (.cycle _ chain))
  · exact Or.inl paired
  · exact Or.inr (Or.inl settled)
  · rcases Completion.lacks_of_run visited with ⟨property, -, lacks⟩
    cases lacks with
    | items enumerated misuse => exact Or.inr (Or.inr (.configuration _ misuse))
    | target pointed unknown miss => exact Or.inr (Or.inr (.target _ miss))
  · rcases Entities.exists_ownTarget_of_mem_embeddingDefects embedding with
      ⟨entity, property, target, misuse, -, rfl, -⟩
    exact Or.inr (Or.inr (.configuration _ misuse))
  · unfold keyDefectsAt at keys
    split at keys
    · rcases List.mem_map.mp keys with ⟨entity, -, rfl⟩
      exact Or.inr (Or.inr (.key _))
    · cases keys

/-! ## Dropped properties -/

/-- A property whose options fit together is not dropped. -/
theorem not_mem_dropped (declared : setting.own place = some property) :
    place ∉ setting.dropped := by
  intro member
  rcases List.mem_map.mp member with ⟨⟨_, misuse⟩, inside, rfl⟩
  rcases mem_misuses_iff.mp inside with
    ⟨schema, registered, options, listed, same, fails⟩
  rcases Option.bind_eq_some_iff.mp declared with ⟨other, found, own⟩
  rw [← same, Table.find?_key registered] at found
  cases found
  rcases Option.bind_eq_some_iff.mp own with ⟨entry, here, read⟩
  rw [Table.find?_key listed] at here
  cases here
  rw [fails] at read
  cases read

/-! ## Relations -/

/-- A relation is not left to a base of the entity that declares it. -/
theorem concerns_of_own (declared : setting.own place = some property)
    {entity : Entity} {relation : Relation}
    (held : Side.Held ⟨entity, property, relation⟩
      (setting.scopeAt tally).entities)
    (here : entity.name = place.entity) (steady : setting.sources.Steady) :
    (setting.scopeAt tally).concerns ⟨entity, property, relation⟩ = true := by
  have origin := (Entities.lawful_of_declaredAt declared).1
  have kept : property.origin ∉ (setting.scopeAt tally).invalid := by
    rw [origin]
    exact not_mem_dropped declared
  have lone : (setting.scopeAt tally).pairedByBase
      ⟨entity, property, relation⟩ = false := by
    rw [Bool.eq_false_iff]
    intro paired
    -- The base would inherit the property from its own descendant.
    rcases (coherent_scopeAt steady).held_of_pairedByBase held paired with
      ⟨base, above, -, heldBase⟩
    have climb := (merges_scopeAt.declared_of_held heldBase.property).2.2
    rw [show property.declaredBy = entity.name from
      (congrArg Place.entity origin).trans here.symm] at climb
    exact (merges_scopeAt.rooted entity.name).not_descends_of_base
      (held.base?.trans above) climb
  rw [Scope.concerns, lone, Bool.not_false, Bool.and_true, Bool.not_eq_true',
    decide_eq_false_iff_not]
  exact kept

theorem mem_defects_pairedAt (steady : setting.sources.Steady)
    (declared : setting.own place = some property) {relation : Relation}
    (related : property.relation? = some relation) {miss : Miss}
    (missed : setting.directory.meaning relation.target.declared =
      .error miss) :
    miss.targetDefect place ∈ (setting.pairedAt tally).defects := by
  have coherent : (setting.scopeAt tally).Coherent setting.own :=
    coherent_scopeAt steady
  rcases exists_side_of_property?
    (coherent.merges.held_of_declared declared) related with
    ⟨entity, here, held, -⟩
  rw [← (Entities.lawful_of_declaredAt declared).1]
  exact (coherent.reports_run _).mem_defects_of_missed coherent
    (Scope.mem_sides_iff.mpr held) (concerns_of_own declared held here steady)
    missed

/-! ## Embedded properties -/

/-- The target of a settled property is open and declared, or known. -/
theorem linkable_settledAt
    (held : (setting.settledAt tally).entities.property? property.origin =
      some property) :
    Linkable (references setting.own) property := by
  intro target pointed
  rcases settledAt_cases held with
    ⟨before, sides, earlier, rfl⟩ | ⟨absent, synthesis, sides, -, rfl⟩
  · rw [Property.target?_withSides] at pointed
    have declared := (merges_scopeAt.declared_of_held earlier).1
    refine Or.inl ⟨?_, ?_⟩
    · exact (Entities.lawful_of_declaredAt declared).2.open_target _ pointed
    · rw [Property.origin_withSides, references, declared, Option.bind_some,
        pointed, Option.map_some]
  · rw [Property.target?_withSides] at pointed
    cases pointed
    refine Or.inr ⟨by simp, ?_⟩
    cases declared : setting.own
        (synthesis.property.withSides sides).origin with
    | none => rw [references, declared, Option.bind_none]
    | some other =>
        rw [merges_scopeAt.held_of_declared declared] at absent
        cases absent

theorem mem_defects_visitedAt (steady : setting.sources.Steady)
    (declared : setting.own place = some property)
    (plain : property.relation? = none) {target : Target}
    (pointed : property.target? = some target) {miss : Miss}
    (missed : setting.directory.meaning target.declared = .error miss) :
    miss.targetDefect place ∈ (setting.visitedAt tally).defects := by
  rcases Entities.lawful_of_declaredAt declared with ⟨origin, lawful⟩
  have coherent : (setting.scopeAt tally).Coherent setting.own :=
    coherent_scopeAt steady
  have inherited := coherent.merges.held_of_declared declared
  have reports := coherent.reports_run (setting.linkedAt tally).tally
  have held : (setting.settledAt tally).entities.property? property.origin =
      some property := by
    rcases preserves_settledAt.held _ property inherited with ⟨sides, kept⟩
    rw [Property.withSides_of_relation?_eq_none plain] at kept
    rw [origin]
    exact kept
  have kept : property.origin ∉ setting.invalidAt tally := by
    rw [invalidAt, List.mem_append, not_or]
    refine ⟨?_, fun member => ?_⟩
    · rw [origin]
      exact not_mem_dropped declared
    · rcases reports.missed _ member with ⟨side, inside, same⟩
      have heldSide := reports.held side inside
      have equal : side.property = property :=
        coherent.merges.eq_of_origin_eq heldSide.property inherited same
      have related := heldSide.relation
      rw [equal, plain] at related
      cases related
  have unknown := lawful.open_target _ pointed
  rw [← origin]
  exact Completion.mem_defects_run steady reports.faithful
    (fun _ => linkable_settledAt) held kept pointed unknown missed

/-- The defect of a broken declaration is collected. -/
theorem mem_collected_of_breaks (breaks : setting.Breaks place defect)
    (tally : Tally) : defect ∈ setting.collected tally := by
  rw [mem_collected_iff]
  cases breaks with
  | @options schema options misuse registered declared fails =>
      rcases Table.find?_eq_some registered with ⟨member, named⟩
      refine Or.inl ⟨place, misuse, ?_, rfl⟩
      exact mem_misuses_iff.mpr ⟨schema, member, options,
        (Table.find?_eq_some declared).1, named, named ▸ fails⟩
  | @target property target miss steady declared pointed missed =>
      cases related : property.relation? with
      | some relation =>
          rw [Property.target?_of_relation? related] at pointed
          cases pointed
          exact Or.inr (Or.inr (Or.inl
            (mem_defects_pairedAt steady declared related missed)))
      | none =>
          exact Or.inr (Or.inr (Or.inr (Or.inr (Or.inl
            (mem_defects_visitedAt steady declared related pointed missed)))))

end Setting

end Resolution

end EntityCatalog
