import EntityCatalog.Proofs.Relation.Reordered
import EntityCatalog.Proofs.Resolution.Sound

/-!
# Relations of the result

Every relation of a result was declared, and is held with the sides that were
agreed on, or it is an added inverse.  `Setting.Resolves` lists these two ways,
and every relation that entities held before pairing is there in the end
(`Sound.exists_of_held`).
-/

namespace EntityCatalog.Resolution

open Pairing

variable {setting : Setting}

/-- The relation with settled sides and known target. -/
def settledRelation (relation : Relation) (sides : Sides) (target : String) :
    Relation :=
  { relation with
    target := { relation.target with entity := some target }
    sides := sides }

/-- How a relation at a place of the result comes about. -/
inductive Setting.Resolves (setting : Setting) (place : Place)
    (property : Property) (relation : Relation) : Prop where
  | held (side : Side) (sides : Sides) (target : Entity)
      (held : side.Held setting.merged) (here : side.place = place)
      (outline : property.outline =
        ((side.property.withSides sides).withTarget
          (some target.name)).outline)
      (settled : relation = settledRelation side.relation sides target.name)
      (agreed : side.relation.sides.Agreed (setting.scope.Proposed place) sides)
      (means : setting.directory.meaning side.relation.target.declared =
        .ok target.name)
      (registered : setting.merged.find? target.name = some target)
  | added (synthesis : Synthesis)
      (absent : setting.merged.property? place = none)
      (member : synthesis ∈ syntheses setting.scope.decisions)
      (covers : synthesis.covers setting.merged place = true)
      (outline : property.outline = synthesis.property)
      (settled : some relation = synthesis.property.relation?)

namespace Setting.Sound

variable (sound : setting.Sound) {findings : Findings} {start : Tally}
  (faithful : findings.Faithful setting.directory (references setting.own)
    start)

include sound

/-- An added inverse is held where it was added. -/
theorem settled_of_added {synthesis : Synthesis}
    (member : synthesis ∈ syntheses setting.scope.decisions) :
    setting.settled.property? synthesis.place = some synthesis.property :=
  sound.carried.property?_of_added sound.merges member
    (sound.cleared.addresses (Scope.Cleared.mem_syntheses_iff.mp member))

/-- The target of a held relation is filled in. -/
theorem link_withSides {side : Side} (held : side.Held setting.merged)
    (sides : Sides) :
    ∃ target : Entity,
      setting.directory.meaning side.relation.target.declared =
          .ok target.name ∧
        setting.merged.find? target.name = some target ∧
        setting.directory.link (side.property.withSides sides) =
          (side.property.withSides sides).withTarget (some target.name) := by
  rcases sound.cleared.means held with ⟨target, means, registered⟩
  refine ⟨target, means, registered, ?_⟩
  have pointed := Property.target?_of_relation? held.relation
  have unknown := (sound.cleared.open_target held.property pointed).2
  have still : (side.property.withSides sides).target? =
      some side.relation.target := by
    rw [Property.target?_withSides, pointed]
  exact Directory.link_of_meaning still unknown means

include faithful

theorem resolves {place : Place} {property : Property} {relation : Relation}
    (found : (setting.result findings).property? place = some property)
    (related : property.relation? = some relation) :
    setting.Resolves place property relation := by
  have outline := sound.outline_result faithful place
  rw [found, Option.map_some] at outline
  rcases Option.map_eq_some_iff.mp outline.symm with ⟨settled, kept, same⟩
  have linked : (setting.directory.link settled).relation? = some relation := by
    rw [← Property.relation?_outline, same, Property.relation?_outline, related]
  rcases sound.settled_cases kept with
    ⟨before, sides, first, rfl, agrees⟩ |
      ⟨absent, synthesis, member, covers, rfl⟩
  · have kind := Property.kind_of_relation? linked
    rw [Directory.kind_link, Property.kind_withSides] at kind
    rcases Property.exists_relation_of_kind kind with ⟨declared, here, -⟩
    rcases exists_side_of_property? first here with ⟨entity, -, held, rfl⟩
    rcases sound.link_withSides held sides with
      ⟨target, means, registered, link⟩
    dsimp only at link means
    rw [link] at same linked
    refine .held _ sides target held rfl same.symm ?_ (agrees _ here) means
      registered
    rw [Property.relation?_withTarget, Property.relation?_withSides, here]
      at linked
    exact (Option.some.inj linked).symm
  · rw [Directory.link_of_known rfl rfl] at same linked
    exact .added synthesis absent member covers same.symm linked.symm

/-- A relation that entities held before pairing is in the result with the sides
that were agreed on and with its target. -/
theorem exists_settled {side : Side} (held : side.Held setting.merged) :
    ∃ (property : Property) (sides : Sides) (target : Entity),
      (setting.result findings).property? side.place = some property ∧
        property.relation? =
          some (settledRelation side.relation sides target.name) ∧
        property.origin = side.property.origin ∧
        property.synthesized = side.property.synthesized ∧
        side.relation.sides.Agreed (setting.scope.Proposed side.place) sides ∧
        setting.directory.meaning side.relation.target.declared =
          .ok target.name ∧
        setting.merged.find? target.name = some target := by
  rcases sound.carried.held side.place side.property held.property with
    ⟨sides, kept, agrees⟩
  rcases sound.link_withSides held sides with ⟨target, means, registered, link⟩
  have outline := sound.outline_result faithful side.place
  rw [Setting.settled, kept, Option.map_some, link] at outline
  rcases Option.map_eq_some_iff.mp outline with ⟨property, found, same⟩
  refine ⟨property, sides, target, found, ?_, ?_, ?_,
    agrees _ held.relation, means, registered⟩
  · rw [← Property.relation?_outline, same]
    simp [held.relation, settledRelation]
  · rw [← Property.origin_outline, same]
    simp [Property.origin]
  · simpa using congrArg Property.synthesized same

theorem exists_of_held {side : Side} (held : side.Held setting.merged) :
    ∃ property relation,
      (setting.result findings).property? side.place = some property ∧
        property.relation? = some relation ∧
        property.name = side.property.name ∧
        property.declaredBy = side.property.declaredBy ∧
        property.synthesized = side.property.synthesized ∧
        relation.kind = side.relation.kind ∧
        side.relation.sides.Agreed (setting.scope.Proposed side.place)
          relation.sides := by
  rcases sound.exists_settled faithful held with
    ⟨property, sides, target, found, related, origin, synthesized, agreed, -⟩
  exact ⟨property, _, found, related, congrArg Place.property origin,
    congrArg Place.entity origin, synthesized, rfl, agreed⟩

/-- An added inverse is in the result where it was added. -/
theorem exists_added {synthesis : Synthesis}
    (member : synthesis ∈ syntheses setting.scope.decisions) :
    ∃ property,
      (setting.result findings).property? synthesis.place = some property ∧
        property.outline = synthesis.property := by
  have outline := sound.outline_result faithful synthesis.place
  rw [sound.settled_of_added member, Option.map_some,
    Directory.link_of_known rfl rfl] at outline
  exact Option.map_eq_some_iff.mp outline

end Setting.Sound

end EntityCatalog.Resolution
