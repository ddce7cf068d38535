import EntityCatalog.Proofs.Relation.Proposals

/-!
# Carrying out decisions that clash

Decisions are carried out to the last one, even where some of them clash.
Whatever clashes, what was held stays held, with other sides at most, and what
is held besides is an added inverse (`Progress.Preserves`).  A clash is put
down to one decision: to settling a side that the entity holds a copy of, or to
adding an inverse (`Clash`).
-/

namespace EntityCatalog.Settlement

variable {merged : Entities} {decisions : List Decision} {progress : Progress}

/-- What is reported when carrying out a decision meets with earlier ones. -/
inductive Clash (merged : Entities) : Decision → Defect → Prop
  | settle {settlement : Settlement} {holder : String}
      (registered : holder ∈ merged.keys)
      (below : Descends merged.base? holder settlement.place.entity)
      (ambiguity : Ambiguity) :
      Clash merged (.settle settlement)
        (.ambiguousOwnership ⟨holder, settlement.place.property⟩
          settlement.source ambiguity)
  | synthesize (synthesis : Synthesis) :
      Clash merged (.synthesize synthesis)
        (.configuration synthesis.source
          (.inverseExists synthesis.name synthesis.holder))

/-- What stays true while decisions are carried out. -/
structure Progress.Preserves (progress : Progress) (merged : Entities)
    (decisions : List Decision) : Prop where
  alike : progress.entities.Alike merged
  held : ∀ place property, merged.property? place = some property →
    ∃ sides, progress.entities.property? place =
      some (property.withSides sides)
  /-- What is held besides is an inverse that a base was given, with other
  sides at most. -/
  fresh : ∀ place property, merged.property? place = none →
    progress.entities.property? place = some property →
      ∃ synthesis sides, .synthesize synthesis ∈ decisions ∧
        synthesis.name = place.property ∧
        Descends merged.base? place.entity synthesis.holder ∧
        property = synthesis.property.withSides sides
  clashes : ∀ defect ∈ progress.defects,
    ∃ decision ∈ decisions, Clash merged decision defect

theorem preserves_nothing (merged : Entities) (decisions : List Decision) :
    Progress.Preserves { entities := merged } merged decisions where
  alike := .refl merged
  held := by
    intro place property held
    cases related : property.relation? with
    | none =>
        refine ⟨⟨false, none, none⟩, ?_⟩
        rw [Property.withSides_of_relation?_eq_none related]
        exact held
    | some relation =>
        refine ⟨relation.sides, ?_⟩
        rw [Property.withSides_sides related]
        exact held
  fresh := by
    intro place property absent held
    rw [absent] at held
    cases held
  clashes := fun _ absent => nomatch absent

namespace Progress.Preserves

/-- One more defect is noted. -/
theorem note (preserves : progress.Preserves merged decisions)
    {decision : Decision} (member : decision ∈ decisions) {defect : Defect}
    (clash : Clash merged decision defect) :
    (progress.note defect).Preserves merged decisions where
  alike := preserves.alike
  held := preserves.held
  fresh := preserves.fresh
  clashes := by
    intro other inside
    rcases List.mem_append.mp inside with earlier | here
    · exact preserves.clashes other earlier
    · rw [List.mem_singleton.mp here]
      exact ⟨decision, member, clash⟩

/-- The sides of what is held at a place are changed. -/
theorem withSides (preserves : progress.Preserves merged decisions)
    (place : Place) (sides : Sides) :
    Preserves { progress with entities := progress.entities.withSides place sides }
      merged decisions where
  alike := (Entities.alike_withSides _ _ _).trans preserves.alike
  held := by
    intro asked property held
    rcases preserves.held asked property held with ⟨others, kept⟩
    rw [Entities.property?_withSides, kept]
    split
    · exact ⟨sides, by rw [Option.map_some, Property.withSides_withSides]⟩
    · exact ⟨others, rfl⟩
  fresh := by
    intro asked property absent held
    rw [Entities.property?_withSides] at held
    split at held
    · rcases Option.map_eq_some_iff.mp held with ⟨before, kept, rfl⟩
      rcases preserves.fresh asked before absent kept with
        ⟨synthesis, others, member, named, below, rfl⟩
      exact ⟨synthesis, sides, member, named, below,
        Property.withSides_withSides ..⟩
    · exact preserves.fresh asked property absent held
  clashes := preserves.clashes

theorem settleCopy (preserves : progress.Preserves merged decisions)
    {settlement : Settlement} (member : .settle settlement ∈ decisions)
    {holder : String}
    (below : Descends merged.base? holder settlement.place.entity) :
    (progress.settleCopy settlement.sides settlement.source
      ⟨holder, settlement.place.property⟩).Preserves merged decisions := by
  unfold Progress.settleCopy
  cases present : (progress.entities.property?
      ⟨holder, settlement.place.property⟩).bind Property.relation? with
  | none => exact preserves
  | some relation =>
      have registered : holder ∈ merged.keys := by
        rcases Option.bind_eq_some_iff.mp present with ⟨property, held, -⟩
        rw [← preserves.alike.keys]
        exact Entities.mem_keys_of_property? held
      dsimp only
      split
      · exact (preserves.withSides _ _).note member
          (.settle registered below _)
      · exact { preserves.withSides _ _ with }

/-- Copies of what is at a place are held by descendants of its entity. -/
theorem descends_of_mem_copies
    (preserves : progress.Preserves merged decisions) {place : Place}
    {holder : String} (member : holder ∈ progress.entities.copies place) :
    Descends merged.base? holder place.entity := by
  unfold Entities.copies at member
  cases held : progress.entities.property? place with
  | none =>
      rw [held] at member
      rw [List.mem_singleton.mp member]
      exact .refl _
  | some property =>
      rw [held] at member
      rcases List.mem_map.mp member with ⟨entity, inside, rfl⟩
      have reached := (List.mem_filter.mp inside).2
      rw [Bool.or_eq_true, decide_eq_true_eq, Bool.and_eq_true] at reached
      rcases reached with here | ⟨within, -⟩
      · rw [here]
        exact .refl _
      · rw [← preserves.alike.base?]
        exact descends_of_mem_lineage (of_decide_eq_true within)

theorem settle (preserves : progress.Preserves merged decisions)
    {settlement : Settlement} (member : .settle settlement ∈ decisions) :
    (progress.settle settlement).Preserves merged decisions := by
  have reached : ∀ place ∈ (progress.entities.copies settlement.place).map
      fun holder => Place.mk holder settlement.place.property,
        ∃ holder, Descends merged.base? holder settlement.place.entity ∧
          place = ⟨holder, settlement.place.property⟩ := by
    intro place inside
    rcases List.mem_map.mp inside with ⟨holder, copy, rfl⟩
    exact ⟨holder, preserves.descends_of_mem_copies copy, rfl⟩
  unfold Progress.settle
  generalize (progress.entities.copies settlement.place).map
    (fun holder => Place.mk holder settlement.place.property) = places
    at reached ⊢
  induction places generalizing progress with
  | nil => exact preserves
  | cons place rest induction =>
      rcases reached place (List.mem_cons_self ..) with ⟨holder, below, rfl⟩
      exact induction (preserves.settleCopy member below)
        fun other later => reached other (List.mem_cons_of_mem _ later)

theorem synthesize (preserves : progress.Preserves merged decisions)
    {synthesis : Synthesis} (member : .synthesize synthesis ∈ decisions) :
    (progress.synthesize synthesis).Preserves merged decisions := by
  unfold Progress.synthesize
  split
  · exact preserves.note member (.synthesize synthesis)
  · have alike := (Entities.alike_addWithin progress.entities synthesis.holder
      synthesis.property).trans preserves.alike
    refine ⟨alike, ?_, ?_, preserves.clashes⟩
    · intro asked property held
      rcases preserves.held asked property held with ⟨sides, kept⟩
      refine ⟨sides, ?_⟩
      rw [Entities.property?_addWithin _ _ _
        (Entities.mem_keys_of_property? kept), kept, Option.some_or]
    · intro asked property absent held
      have registered : asked.entity ∈ progress.entities.keys := by
        rw [preserves.alike.keys, ← alike.keys]
        exact Entities.mem_keys_of_property? held
      dsimp only at held
      rw [Entities.property?_addWithin _ _ _ registered] at held
      cases kept : progress.entities.property? asked with
      | some before =>
          rw [kept, Option.some_or] at held
          exact preserves.fresh asked property absent (kept.trans held)
      | none =>
          rw [kept, Option.none_or] at held
          split at held
          · rename_i here
            cases held
            refine ⟨synthesis, ⟨false, some synthesis.source.property, none⟩,
              member, here.1, ?_, rfl⟩
            rw [← preserves.alike.base?]
            exact descends_of_mem_lineage (of_decide_eq_true here.2)
          · cases held

theorem carryOut (preserves : progress.Preserves merged decisions)
    {decision : Decision} (member : decision ∈ decisions) :
    (progress.carryOut decision).Preserves merged decisions := by
  cases decision with
  | settle settlement => exact preserves.settle member
  | synthesize synthesis => exact preserves.synthesize member

end Progress.Preserves

/-- Whatever the decisions are, carrying them out preserves what was held. -/
theorem preserves_carryOut (merged : Entities) (decisions : List Decision) :
    (carryOut merged decisions).Preserves merged decisions := by
  have all : ∀ (rest : List Decision) (progress : Progress),
      (∀ decision ∈ rest, decision ∈ decisions) →
      progress.Preserves merged decisions →
      (rest.foldl Progress.carryOut progress).Preserves merged decisions := by
    intro rest
    induction rest with
    | nil => exact fun _ _ preserves => preserves
    | cons decision rest induction =>
        intro progress inside preserves
        exact induction _
          (fun other later => inside other (List.mem_cons_of_mem _ later))
          (preserves.carryOut (inside decision (List.mem_cons_self ..)))
  exact all decisions _ (fun _ member => member)
    (preserves_nothing merged decisions)

end EntityCatalog.Settlement
