import EntityCatalog.Proofs.Relation.Disputes
import EntityCatalog.Proofs.Relation.Reasons
import EntityCatalog.Proofs.Resolution.Sound

/-!
# Stages of a resolution

A resolution goes through its stages whatever they find wrong.  What each of
them comes to has a name here, and a resolution is their composition
(`Setting.run_eq`): its defects are those of all stages in order, the
repetitions left out.  Whatever is wrong, bases form a forest, decisions are
grounded and what was held stays held.
-/

namespace EntityCatalog.Resolution.Setting

open Pairing

section

variable (setting : Setting) (tally : Tally)

/-- The properties whose options do not fit together, and what is wrong. -/
def misuses : List (Place × Misuse) :=
  setting.schemas.items.flatMap Schema.misuses

/-- The places of the properties that are dropped. -/
def dropped : List Place :=
  setting.misuses.map Prod.fst

/-- The linked bases. -/
def linkedAt : Bases.Linked :=
  Bases.link setting.directory setting.schemas.items tally

/-- What pairing looks at. -/
def scopeAt : Pairing.Scope :=
  ⟨setting.directory, setting.config,
    .ofSchemas setting.schemas (setting.linkedAt tally).bases,
    setting.dropped⟩

/-- What pairing comes to. -/
def pairedAt : Pairing.Progress :=
  (setting.scopeAt tally).run { tally := (setting.linkedAt tally).tally }

/-- What carrying out the decisions about relations comes to. -/
def settledAt : Settlement.Progress :=
  Settlement.carryOut (setting.scopeAt tally).entities
    (setting.pairedAt tally).decisions

/-- The places of the properties whose targets are not looked up any more. -/
def invalidAt : List Place :=
  setting.dropped ++ (setting.pairedAt tally).missed

/-- What completion finds out. -/
def visitedAt : Completion.Progress :=
  Completion.run setting.directory (setting.invalidAt tally)
    (setting.pairedAt tally).findings (setting.settledAt tally).entities

/-- The entities in the end. -/
def entitiesAt : Entities :=
  ((setting.settledAt tally).entities.complete
    (setting.visitedAt tally)).index

/-- The entities that lack a primary key, if one is demanded. -/
def keyDefectsAt : List Defect :=
  if setting.config.requirePrimaryKey then
    (setting.entitiesAt tally).keyDefects setting.schemas
      (setting.invalidAt tally)
  else []

/-- Everything that is found wrong, with repetitions. -/
def collected : List Defect :=
  setting.misuses.map (fun (place, misuse) => .configuration place misuse) ++
    (setting.linkedAt tally).defects ++ (setting.pairedAt tally).defects ++
    (setting.settledAt tally).defects ++ (setting.visitedAt tally).defects ++
    (setting.entitiesAt tally).embeddingDefects ++ setting.keyDefectsAt tally

/-- A resolution, stage by stage. -/
theorem run_eq :
    setting.run tally =
      { entities := setting.entitiesAt tally
        defects := Defect.withoutRepeats [] (setting.collected tally)
        tally := (setting.visitedAt tally).findings.tally } :=
  rfl

end

variable {setting : Setting} {tally : Tally} {place : Place}

theorem mem_misuses_iff {misuse : Misuse} :
    (place, misuse) ∈ setting.misuses ↔
      ∃ schema ∈ setting.schemas.items, ∃ options,
        (place.property, options) ∈ schema.properties.items ∧
          schema.name = place.entity ∧
          Property.ofOptions schema.name place.property options =
            .error misuse := by
  rw [misuses, List.mem_flatMap]
  refine exists_congr fun schema => and_congr_right fun _ => ?_
  rw [Schema.misuses, Schema.declared, List.filterMap_map, List.mem_filterMap]
  constructor
  · rintro ⟨⟨name, options⟩, member, read⟩
    dsimp only [Function.comp_apply] at read
    cases outcome : Property.ofOptions schema.name name options with
    | ok property =>
        rw [outcome] at read
        cases read
    | error other =>
        rw [outcome] at read
        cases read
        exact ⟨options, member, rfl, outcome⟩
  · rintro ⟨options, member, same, outcome⟩
    refine ⟨(place.property, options), member, ?_⟩
    dsimp only [Function.comp_apply]
    rw [outcome]
    dsimp only
    rw [same]

theorem mem_collected_iff {defect : Defect} :
    defect ∈ setting.collected tally ↔
      (∃ place misuse, (place, misuse) ∈ setting.misuses ∧
        .configuration place misuse = defect) ∨
      defect ∈ (setting.linkedAt tally).defects ∨
      defect ∈ (setting.pairedAt tally).defects ∨
      defect ∈ (setting.settledAt tally).defects ∨
      defect ∈ (setting.visitedAt tally).defects ∨
      defect ∈ (setting.entitiesAt tally).embeddingDefects ∨
      defect ∈ setting.keyDefectsAt tally := by
  simp only [collected, List.mem_append, List.mem_map, Prod.exists, or_assoc]

/-! ## What every stage comes to -/

theorem keys_scopeAt :
    (setting.scopeAt tally).entities.keys = setting.schemas.keys :=
  Entities.keys_ofSchemas _ _

/-- Linked bases form a forest, so that the entities merge what is declared. -/
theorem merges_scopeAt :
    (setting.scopeAt tally).entities.Merges setting.own :=
  (Bases.forest_link rfl tally).merges_ofSchemas

theorem coherent_scopeAt (steady : setting.sources.Steady) :
    (setting.scopeAt tally).Coherent setting.own where
  steady := steady
  merges := merges_scopeAt
  lawful := fun _ _ declared => (Entities.lawful_of_declaredAt declared).2
  names := by
    intro name registered
    rw [keys_scopeAt]
    exact registered

theorem accounted_pairedAt :
    (setting.pairedAt tally).Accounted (setting.scopeAt tally) :=
  (setting.scopeAt tally).accounts_run _

theorem explained_pairedAt :
    (setting.pairedAt tally).Explained (setting.scopeAt tally) :=
  (setting.scopeAt tally).explains_run _

theorem preserves_settledAt :
    (setting.settledAt tally).Preserves (setting.scopeAt tally).entities
      (setting.pairedAt tally).decisions :=
  Settlement.preserves_carryOut _ _

theorem recalls_settledAt :
    (setting.settledAt tally).Recalls (setting.scopeAt tally).entities
      (setting.pairedAt tally).decisions :=
  Settlement.recalls_carryOut merges_scopeAt fun decision member =>
    (accounted_pairedAt.decisions decision member).addresses

/-- Whatever is wrong, only properties have changed in the end. -/
theorem alike_entitiesAt :
    (setting.entitiesAt tally).Alike (setting.scopeAt tally).entities :=
  (Entities.alike_index _).trans
    ((Entities.alike_complete (setting.settledAt tally).entities
      (setting.visitedAt tally)).trans preserves_settledAt.alike)

theorem keys_entitiesAt :
    (setting.entitiesAt tally).keys = setting.schemas.keys :=
  alike_entitiesAt.keys.trans keys_scopeAt

/-- The bases of the entities form a forest. -/
theorem forest_entitiesAt : (setting.entitiesAt tally).Forest where
  closed := by
    rw [alike_entitiesAt.base?, alike_entitiesAt.keys]
    exact merges_scopeAt.closed
  rooted := by
    rw [alike_entitiesAt.base?]
    exact merges_scopeAt.rooted

/-- A settled property was held before, with other sides, or was added. -/
theorem settledAt_cases {property : Property}
    (held : (setting.settledAt tally).entities.property? place =
      some property) :
    (∃ before sides,
        (setting.scopeAt tally).entities.property? place = some before ∧
          property = before.withSides sides) ∨
      (setting.scopeAt tally).entities.property? place = none ∧
        ∃ synthesis sides,
          .synthesize synthesis ∈ (setting.pairedAt tally).decisions ∧
            property = Property.withSides synthesis.property sides := by
  cases earlier : (setting.scopeAt tally).entities.property? place with
  | some before =>
      rcases preserves_settledAt.held place before earlier with ⟨sides, kept⟩
      rw [held] at kept
      cases kept
      exact Or.inl ⟨before, sides, rfl, rfl⟩
  | none =>
      rcases preserves_settledAt.fresh place property earlier held with
        ⟨synthesis, sides, member, -, -, same⟩
      exact Or.inr ⟨rfl, synthesis, sides, member, same⟩

end EntityCatalog.Resolution.Setting
