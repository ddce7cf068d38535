import EntityCatalog.Proofs.Property.Core
import EntityCatalog.Proofs.Resolution.Completed

/-!
# Where properties come from

In a resolution that finds nothing wrong, whatever its sources answer, a property
of an entity stems from a declaration that the entity holds, or it is an inverse
that was added (`Setting.Stems`).  The one has the core of the declaration and the
sides that all decisions agree on; the other has the core of the inverse.
-/

namespace EntityCatalog.Resolution.Setting

open Pairing

variable {setting : Setting} {tally : Tally} {place : Place}
  {property : Property}

/-- What a property that is held in the end comes from. -/
inductive Stems (setting : Setting) (tally : Tally) (place : Place)
    (property : Property) : Prop
  | declared (declaration : Property) (sides : Sides)
      (held : (setting.scopeAt tally).entities.property? place =
        some declaration)
      (settled : property =
        (setting.visitedAt tally).complete (declaration.withSides sides))
      (agreed : ∀ relation, declaration.relation? = some relation →
        relation.sides.Agreed
          ((setting.scopeAt tally).entities.Proposes
            (setting.pairedAt tally).decisions place) sides)
  | added (synthesis : Synthesis)
      (absent : (setting.scopeAt tally).entities.property? place = none)
      (member : synthesis ∈ syntheses (setting.pairedAt tally).decisions)
      (settled : property =
        (setting.visitedAt tally).complete synthesis.property)

theorem Silent.stems (silent : setting.Silent tally)
    (held : (setting.entitiesAt tally).property? place = some property) :
    setting.Stems tally place property := by
  rcases exists_settled held with ⟨before, kept, settled⟩
  rcases silent.carried.property_cases kept with
    ⟨declaration, sides, first, rfl, agreed⟩ |
      ⟨absent, synthesis, member, -, rfl⟩
  · exact .declared declaration sides first settled agreed
  · exact .added synthesis absent member settled

namespace Stems

/-- A property that was not added has the core of a declaration. -/
theorem core_cases (stems : setting.Stems tally place property) :
    (∃ declaration,
        (setting.scopeAt tally).entities.property? place = some declaration ∧
          property.core = declaration.core) ∨
      (setting.scopeAt tally).entities.property? place = none ∧
        ∃ synthesis : Synthesis,
          property.core = synthesis.property.core := by
  cases stems with
  | declared declaration sides held settled agreed =>
      refine Or.inl ⟨declaration, held, ?_⟩
      rw [settled, Completion.core_complete, Property.core_withSides]
  | added synthesis absent member settled =>
      refine Or.inr ⟨absent, synthesis, ?_⟩
      rw [settled, Completion.core_complete]

/-- What is marked as added is an inverse. -/
theorem synthesized_iff (stems : setting.Stems tally place property) :
    property.synthesized = true ↔
      (setting.scopeAt tally).entities.property? place = none := by
  rw [← property.synthesized_core]
  rcases stems.core_cases with
    ⟨declaration, held, same⟩ | ⟨absent, synthesis, same⟩
  · have plain := (Entities.lawful_of_declaredAt
      (merges_scopeAt.declared_of_held held).1).2.declared
    rw [same, Property.synthesized_core, plain, held]
    simp
  · rw [same, Property.synthesized_core, absent]
    simp [Synthesis.property]

end Stems

end EntityCatalog.Resolution.Setting
