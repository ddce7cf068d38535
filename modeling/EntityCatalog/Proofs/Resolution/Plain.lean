import EntityCatalog.Proofs.Entity.Resemblance
import EntityCatalog.Proofs.Registry.Reachable
import EntityCatalog.Proofs.Resolution.Relations

/-!
# Columns and relations only

Where every declared property is a plain column or a relation, little is left to
go wrong once relations are settled: a relation may point at an entity that is
only stored inside others, or a table may lack a primary key
(`silent_run_iff_of_plain`).  Neither depends on how often anything was
evaluated, so whether a registry freezes can be told from its schemas alone
(`Reachable.exists_finalize_iff`).
-/

namespace EntityCatalog

open Pairing

namespace Resolution

namespace Setting

/-- Every declared property is a plain column or a relation. -/
def Plain (setting : Setting) : Prop :=
  ∀ place property, setting.own place = some property →
    property.enumeration? = none ∧ property.isEmbedded = false

/-- A relation that was declared or added points at an entity. -/
inductive PointsAt (setting : Setting) (name : String) : Prop where
  | held (side : Side) (held : side.Held setting.merged)
      (means : setting.directory.meaning side.relation.target.declared =
        .ok name)
  | added (synthesis : Synthesis)
      (member : synthesis ∈ syntheses setting.scope.decisions)
      (source : synthesis.source.entity = name)

/-- No relation points at an entity that is only stored inside others. -/
def Targeted (setting : Setting) : Prop :=
  ∀ name entity, setting.PointsAt name →
    setting.merged.find? name = some entity → entity.embeddable = false

/-- Where primary keys are demanded, every entity that has a table and is not
keyless holds a property in its key. -/
def Keyed (setting : Setting) : Prop :=
  setting.config.requirePrimaryKey = true →
    ∀ name entity, setting.merged.find? name = some entity →
      entity.isTable = true → entity.keyless = false →
        ∃ asked property,
          setting.merged.property? ⟨name, asked⟩ = some property ∧
            property.primary = true

end Setting

variable {setting : Setting}

/-! ## Plain properties -/

/-- Pairing makes no enums and embeds nothing. -/
theorem Setting.Related.plain_of_settled (related : setting.Related)
    (plain : setting.Plain) {place : Place} {property : Property}
    (held : setting.settled.property? place = some property) :
    property.enumeration? = none ∧ property.isEmbedded = false := by
  rcases related.settled_cases held with
    ⟨before, sides, first, rfl, -⟩ | ⟨-, synthesis, -, -, rfl⟩
  · have declared := plain _ _ (related.merges.declared_of_held first).1
    rw [Property.enumeration?_withSides, Property.isEmbedded,
      Property.kind_withSides, ← Property.isEmbedded]
    exact declared
  · exact ⟨rfl, rfl⟩

namespace Setting.Sound

variable (sound : setting.Sound) (plain : setting.Plain)
  {findings : Findings} {start : Tally}

include sound

theorem exists_found {name : String} {entity : Entity}
    (found : setting.merged.find? name = some entity) :
    ∃ other, (setting.result findings).find? name = some other ∧
      other.bare = entity.bare := by
  have same := (sound.alike_result findings).find? name
  rw [found, Option.map_some] at same
  exact Option.map_eq_some_iff.mp same

theorem exists_merged {name : String} {other : Entity}
    (found : (setting.result findings).find? name = some other) :
    ∃ entity, setting.merged.find? name = some entity ∧
      other.bare = entity.bare := by
  have same := (sound.alike_result findings).find? name
  rw [found, Option.map_some] at same
  rcases Option.map_eq_some_iff.mp same.symm with ⟨entity, known, bare⟩
  exact ⟨entity, known, bare.symm⟩

/-! ## Targets -/

variable
  (faithful : findings.Faithful setting.directory (references setting.own)
    start)

include faithful

/-- What is pointed at is the target of a property of the result. -/
theorem exists_targets {name : String} (points : setting.PointsAt name)
    {entity : Entity} (found : setting.merged.find? name = some entity) :
    ∃ property target,
      (setting.result findings).Targets property target ∧
        property.isEmbedded = false ∧ target.bare = entity.bare := by
  rcases sound.exists_found found with ⟨target, known, bare⟩
  have embedded : ∀ {property : Property} {relation : Relation},
      property.relation? = some relation → property.isEmbedded = false := by
    intro property relation related
    rw [Property.isEmbedded, Property.kind_of_relation? related]
    rfl
  cases points with
  | held side held means =>
      rcases sound.cleared.exists_side_at_origin held with
        ⟨first, heldFirst, place, relation⟩
      have origin : first.property.origin = side.property.origin := by
        have same := sound.merges.held_at_origin held.property
        rw [← place, show setting.merged.property? first.place = _ from
          heldFirst.property] at same
        rw [Option.some.inj same]
      rcases sound.exists_settled faithful heldFirst with
        ⟨property, sides, aimed, here, related, same, -, -, meansAimed, -⟩
      have aimed_eq : aimed.name = name := by
        rw [relation, means] at meansAimed
        exact (Except.ok.inj meansAimed).symm
      refine ⟨property, target, ⟨?_, ?_⟩, embedded related, bare⟩
      · rw [same, origin, ← place]
        exact here
      · rw [Property.targetName?, Property.target?_of_relation? related,
          Option.bind_some, settledRelation, Option.bind_some, aimed_eq]
        exact known
  | added synthesis member source =>
      rcases sound.exists_added faithful member with ⟨property, here, outline⟩
      have related : property.relation? = synthesis.property.relation? := by
        rw [← Property.relation?_outline, outline]
      refine ⟨property, target, ⟨?_, ?_⟩, embedded related, bare⟩
      · rw [← Property.origin_outline, outline]
        exact here
      · rw [Property.targetName?, Property.target?_of_relation? related,
          Option.bind_some, Option.bind_some, source]
        exact known

include plain

/-- A target of the result is pointed at. -/
theorem pointsAt_of_targets {property : Property} {target : Entity}
    (targets : (setting.result findings).Targets property target) :
    property.isEmbedded = false ∧ setting.PointsAt target.name := by
  have outline := sound.outline_result faithful property.origin
  rw [targets.held, Option.map_some] at outline
  rcases Option.map_eq_some_iff.mp outline.symm with ⟨settled, kept, same⟩
  have embedded : property.isEmbedded = false := by
    have here := (sound.plain_of_settled plain kept).2
    rw [Property.isEmbedded, ← Directory.kind_link, ← Property.kind_outline,
      same, Property.kind_outline] at here
    exact here
  refine ⟨embedded, ?_⟩
  rcases Option.bind_eq_some_iff.mp targets.known with ⟨name, aims, found⟩
  rcases (Table.find?_eq_some found).2 with rfl
  rcases Option.bind_eq_some_iff.mp aims with ⟨pointed, points, known⟩
  have related : ∃ relation, property.relation? = some relation ∧
      relation.target = pointed := by
    rw [Property.isEmbedded, Property.kind] at embedded
    rw [Property.target?] at points
    rw [Property.relation?]
    cases nature : property.nature with
    | scalar | enumeration =>
        rw [nature] at points
        cases points
    | embedded part =>
        rw [nature] at embedded
        cases embedded
    | relation part =>
        rw [nature] at points
        exact ⟨part, rfl, Option.some.inj points⟩
  rcases related with ⟨relation, related, rfl⟩
  cases sound.resolves faithful targets.held related with
  | held side sides aimed held here outline settled agreed means registered =>
      subst settled
      rw [← Option.some.inj known]
      exact .held side held means
  | added synthesis absent member covers outline settled =>
      cases settled
      exact .added synthesis member (Option.some.inj known)

/-- Embedding is in order exactly if no relation points at what is only stored
inside other entities. -/
theorem embeddingDefects_eq_nil_iff_targeted :
    (setting.result findings).embeddingDefects = [] ↔ setting.Targeted := by
  rw [Entities.embeddingDefects_eq_nil_iff]
  constructor
  · intro silent name entity points found
    rcases sound.exists_targets faithful points found with
      ⟨property, target, targets, embedded, bare⟩
    have fits := (silent property target targets).1
    rw [Entities.targetMisuse, embedded,
      (Entity.marks_of_bare bare).2.1] at fits
    cases marked : entity.embeddable with
    | false => rfl
    | true =>
        rw [marked] at fits
        cases fits
  · intro targeted property target targets
    rcases sound.pointsAt_of_targets plain faithful targets with
      ⟨embedded, points⟩
    rcases Option.bind_eq_some_iff.mp targets.known with ⟨name, -, found⟩
    rcases (Table.find?_eq_some found).2 with rfl
    rcases sound.exists_merged found with ⟨entity, known, bare⟩
    have unmarked : target.embeddable = false := by
      rw [(Entity.marks_of_bare bare).2.1]
      exact targeted _ entity points known
    rw [Entities.targetMisuse, embedded, unmarked]
    exact ⟨rfl, fun marked => absurd marked Bool.false_ne_true⟩

omit plain

/-! ## Primary keys -/

/-- What entities held before pairing keeps its place in the key, and nothing
else gets one. -/
theorem exists_primary_iff (name : String) :
    (∃ asked property,
        (setting.result findings).property? ⟨name, asked⟩ = some property ∧
          property.primary = true) ↔
      ∃ asked property,
        setting.merged.property? ⟨name, asked⟩ = some property ∧
          property.primary = true := by
  constructor
  · rintro ⟨asked, property, held, primary⟩
    have outline := sound.outline_result faithful ⟨name, asked⟩
    rw [held, Option.map_some] at outline
    rcases Option.map_eq_some_iff.mp outline.symm with ⟨settled, kept, same⟩
    rw [← Property.primary_outline, ← same, Property.primary_outline,
      Directory.primary_link] at primary
    rcases sound.settled_cases kept with
      ⟨before, sides, first, rfl, -⟩ | ⟨-, synthesis, -, -, rfl⟩
    · rw [Property.primary_withSides] at primary
      exact ⟨asked, before, first, primary⟩
    · cases primary
  · rintro ⟨asked, before, first, primary⟩
    rcases sound.carried.held _ before first with ⟨sides, kept, -⟩
    have outline := sound.outline_result faithful ⟨name, asked⟩
    rw [Setting.settled, kept, Option.map_some] at outline
    rcases Option.map_eq_some_iff.mp outline with ⟨property, held, same⟩
    refine ⟨asked, property, held, ?_⟩
    rw [← Property.primary_outline, same, Property.primary_outline,
      Directory.primary_link, Property.primary_withSides]
    exact primary

theorem keyDefects_eq_nil_iff_keyed :
    setting.keyDefects findings = [] ↔ setting.Keyed := by
  unfold Setting.keyDefects Setting.Keyed
  split
  · rename_i demanded
    have keyed : (setting.result findings).Keyed := Entities.keyed_index _
    rw [Entities.keyDefects_eq_nil_iff keyed]
    simp only [demanded, forall_const]
    constructor
    · intro keyed name entity found table keyless
      rcases sound.exists_found found with ⟨other, known, bare⟩
      rcases Entity.marks_of_bare bare with ⟨-, -, sameTable, sameKeyless⟩
      exact (sound.exists_primary_iff faithful name).mp
        (keyed name other known (sameTable.trans table)
          (sameKeyless.trans keyless))
    · intro keyed name other known table keyless
      rcases sound.exists_merged known with ⟨entity, found, bare⟩
      rcases Entity.marks_of_bare bare with ⟨-, -, sameTable, sameKeyless⟩
      exact (sound.exists_primary_iff faithful name).mpr
        (keyed name entity found (sameTable.symm.trans table)
          (sameKeyless.symm.trans keyless))
  · rename_i lenient
    exact iff_of_true rfl fun demanded => absurd demanded lenient

end Setting.Sound

/-! ## Whole resolutions -/

/-- A resolution of plain columns and relations finds nothing wrong exactly if its
relations are in order, none points at what is only stored inside other entities
and no primary key is missing. -/
theorem silent_run_iff_of_plain (steady : setting.sources.Steady)
    (plain : setting.Plain) (tally : Tally) :
    (setting.run tally).defects = [] ↔
      setting.Sound ∧ setting.Targeted ∧ setting.Keyed := by
  rw [silent_run_iff steady tally]
  refine and_congr_right fun sound => ?_
  have faithful := sound.faithful_findings tally
  rw [sound.embeddingDefects_eq_nil_iff_targeted plain faithful,
    sound.keyDefects_eq_nil_iff_keyed faithful]
  refine and_iff_right (DefaultsHold.of_forall ?_ tally)
  intro property member
  exact (sound.plain_of_settled plain
    (Entities.mem_ownProperties_iff.mp member)).1

end Resolution

/-- Where nothing depends on what was evaluated before, a registry freezes exactly
if the resolution of its schemas finds nothing wrong. -/
theorem Registry.Reachable.exists_finalize_iff {sources : Sources}
    {registry : Registry} (reachable : Reachable sources registry)
    {sound : Prop}
    (silent : ∀ tally,
      ((registry.setting sources).run tally).defects = [] ↔ sound)
    (tally : Tally) :
    (∃ graph, (registry.finalize sources tally).outcome = .ok graph) ↔
      sound := by
  constructor
  · rintro ⟨graph, frozen⟩
    rcases reachable.run_of_finalize frozen with ⟨earlier, clean, -⟩
    exact (silent earlier).mp clean
  · intro holds
    cases earlier : registry.graph with
    | none =>
        exact ⟨⟨_⟩, (Registry.finalize_eq_ok_iff earlier tally _).mpr
          ⟨(silent tally).mpr holds, rfl⟩⟩
    | some graph =>
        refine ⟨graph, ?_⟩
        unfold Registry.finalize
        rw [earlier]

end EntityCatalog
