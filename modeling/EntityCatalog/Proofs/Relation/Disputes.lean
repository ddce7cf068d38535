import EntityCatalog.Proofs.Relation.Preserved

/-!
# What clashing decisions clash with

A copy of a side that cannot be settled as decided is in dispute: it was settled
before by a decision of another mind about ownership, or it has a name already
other than the one to be entered (`Disputed`).  The decision that it clashes with
was made about a place of which it is a copy, just as the one that fails
(`Progress.Recalls`).
-/

namespace EntityCatalog

/-- Settling a side again fails where it was settled with another owner, or where
a slot to be filled has another name. -/
theorem Sides.settle_eq_some {current proposed : Sides} {decided : Option Bool}
    {ambiguity : Ambiguity}
    (failed : (current.settle decided proposed).2 = some ambiguity) :
    (∃ owner, decided = some owner ∧ owner ≠ proposed.owner ∧
        ambiguity = .decisionsDisagree) ∨
      (proposed.mappedBy ≠ none ∨ proposed.inversedBy ≠ none) ∧
        ∃ other, ambiguity = .alreadyPaired other := by
  have entered : ∀ {slot name : Option String} {other : String},
      fill slot name = .error other → name ≠ none := by
    rintro (_ | present) _ other full rfl <;> cases full
  unfold settle at failed
  split at failed
  · rename_i disagrees
    rcases (Option.any_eq_true _ _).mp disagrees with ⟨owner, known, differs⟩
    cases failed
    exact Or.inl ⟨owner, known, of_decide_eq_true differs, rfl⟩
  · split at failed
    · rename_i other full
      cases failed
      exact Or.inr ⟨Or.inl (entered full), other, rfl⟩
    · split at failed
      · rename_i other full
        cases failed
        exact Or.inr ⟨Or.inr (entered full), other, rfl⟩
      · cases failed

namespace Settlement

variable {merged : Entities} {own : Place → Option Property}
  {decisions : List Decision} {progress : Progress}

/-- A copy of a side that is to be settled otherwise than it is. -/
inductive Disputed (merged : Entities) (decisions : List Decision) :
    Defect → Prop
  | owner {settlement : Settlement} {place : Place} {sides : Sides}
      (member : .settle settlement ∈ decisions)
      (copy : merged.CopyOf place settlement.place)
      (proposed : merged.Proposes decisions place sides)
      (differs : sides.owner ≠ settlement.sides.owner) :
      Disputed merged decisions
        (.ambiguousOwnership place settlement.source .decisionsDisagree)
  | name {settlement : Settlement} {place : Place}
      (member : .settle settlement ∈ decisions)
      (copy : merged.CopyOf place settlement.place)
      (names : settlement.sides.mappedBy ≠ none ∨
        settlement.sides.inversedBy ≠ none)
      (other : String) :
      Disputed merged decisions
        (.ambiguousOwnership place settlement.source (.alreadyPaired other))

/-- Decisions that are carried out so that it is known who had a say in what. -/
structure Progress.Recalls (progress : Progress) (merged : Entities)
    (decisions : List Decision) : Prop
    extends progress.Preserves merged decisions where
  decided : ∀ place owner, progress.decided.find? place = some (place, owner) →
    ∃ sides, merged.Proposes decisions place sides ∧ sides.owner = owner
  disputes : ∀ place source ambiguity,
    .ambiguousOwnership place source ambiguity ∈ progress.defects →
      Disputed merged decisions (.ambiguousOwnership place source ambiguity)

theorem recalls_nothing (merged : Entities) (decisions : List Decision) :
    Progress.Recalls { entities := merged } merged decisions where
  toPreserves := preserves_nothing merged decisions
  decided := fun _ _ absent => nomatch absent
  disputes := fun _ _ _ absent => nomatch absent

/-- A decision about what is held reaches copies of it, and these only. -/
theorem Progress.Preserves.copyOf_of_mem_copies
    (preserves : progress.Preserves merged decisions)
    (merges : merged.Merges own) {place : Place} {property : Property}
    (held : merged.property? place = some property) {holder : String}
    (member : holder ∈ progress.entities.copies place) :
    merged.CopyOf ⟨holder, place.property⟩ place := by
  have below := preserves.descends_of_mem_copies member
  rcases preserves.held place property held with ⟨sides, kept⟩
  rw [Entities.copies_eq kept, List.mem_filter, Bool.or_eq_true,
    decide_eq_true_eq, Bool.and_eq_true] at member
  rcases member.2 with rfl | ⟨-, alike⟩
  · exact .refl merged place
  · rcases (Option.any_eq_true _ _).mp alike with ⟨copy, found, declared⟩
    rcases merges.held_below below held with ⟨before, first⟩
    rcases preserves.held _ before first with ⟨others, now⟩
    rw [now] at found
    cases found
    rw [decide_eq_true_eq, Property.declaredBy_withSides,
      Property.declaredBy_withSides] at declared
    have origin : before.origin = property.origin := by
      rw [Property.origin, Property.origin,
        (merges.declared_of_held first).2.1, (merges.declared_of_held held).2.1]
      exact congrArg (Place.mk · place.property) declared
    refine ⟨rfl, below, ?_⟩
    rw [first, held, merges.eq_of_origin_eq first held origin]

namespace Progress.Recalls

theorem settleCopy (recalls : progress.Recalls merged decisions)
    {settlement : Settlement} (member : .settle settlement ∈ decisions)
    {holder : String}
    (copy : merged.CopyOf ⟨holder, settlement.place.property⟩
      settlement.place) :
    (progress.settleCopy settlement.sides settlement.source
      ⟨holder, settlement.place.property⟩).Recalls merged decisions := by
  have preserves := recalls.toPreserves.settleCopy member copy.below
  unfold Progress.settleCopy at preserves ⊢
  cases present : (progress.entities.property?
      ⟨holder, settlement.place.property⟩).bind Property.relation? with
  | none => exact recalls
  | some relation =>
      rw [present] at preserves
      dsimp only at preserves ⊢
      have failed := @Sides.settle_eq_some relation.sides settlement.sides
        ((progress.decided.find?
          ⟨holder, settlement.place.property⟩).map Prod.snd)
      generalize relation.sides.settle _ settlement.sides = settled
        at failed preserves ⊢
      rcases settled with ⟨result, _ | ambiguity⟩
      · refine ⟨preserves, fun place owner known => ?_, recalls.disputes⟩
        rw [Table.find?_insert] at known
        split at known
        · rename_i here
          cases known
          exact ⟨settlement.sides, ⟨settlement, member, copy, rfl⟩, rfl⟩
        · exact recalls.decided place owner known
      · refine ⟨preserves, recalls.decided, fun place source other inside => ?_⟩
        rcases List.mem_append.mp inside with earlier | here
        · exact recalls.disputes place source other earlier
        · cases List.mem_singleton.mp here
          rcases failed rfl with
            ⟨owner, known, differs, rfl⟩ | ⟨names, present, rfl⟩
          · rcases Option.map_eq_some_iff.mp known with
              ⟨⟨settled, _⟩, found, rfl⟩
            cases (Table.find?_eq_some found).2
            rcases recalls.decided _ _ found with ⟨sides, proposed, same⟩
            exact .owner member copy proposed (same ▸ differs)
          · exact .name member copy names present

theorem settle (recalls : progress.Recalls merged decisions)
    (merges : merged.Merges own) {settlement : Settlement}
    (member : .settle settlement ∈ decisions) {property : Property}
    (held : merged.property? settlement.place = some property) :
    (progress.settle settlement).Recalls merged decisions := by
  have reached : ∀ place ∈ (progress.entities.copies settlement.place).map
      fun holder => Place.mk holder settlement.place.property,
        ∃ holder, place = ⟨holder, settlement.place.property⟩ ∧
          merged.CopyOf place settlement.place := by
    intro place inside
    rcases List.mem_map.mp inside with ⟨holder, copy, rfl⟩
    exact ⟨holder, rfl,
      recalls.toPreserves.copyOf_of_mem_copies merges held copy⟩
  unfold Progress.settle
  generalize (progress.entities.copies settlement.place).map
    (fun holder => Place.mk holder settlement.place.property) = places
    at reached ⊢
  induction places generalizing progress with
  | nil => exact recalls
  | cons place rest induction =>
      rcases reached place (List.mem_cons_self ..) with ⟨holder, rfl, copy⟩
      exact induction (recalls.settleCopy member copy)
        fun other later => reached other (List.mem_cons_of_mem _ later)

theorem synthesize (recalls : progress.Recalls merged decisions)
    {synthesis : Synthesis} (member : .synthesize synthesis ∈ decisions) :
    (progress.synthesize synthesis).Recalls merged decisions := by
  have preserves := recalls.toPreserves.synthesize member
  unfold Progress.synthesize at preserves ⊢
  split
  · rename_i taken
    rw [if_pos taken] at preserves
    refine ⟨preserves, recalls.decided, fun place source ambiguity inside => ?_⟩
    rcases List.mem_append.mp inside with earlier | here
    · exact recalls.disputes place source ambiguity earlier
    · cases List.mem_singleton.mp here
  · rename_i free
    rw [if_neg free] at preserves
    exact ⟨preserves, recalls.decided, recalls.disputes⟩

theorem carryOut (recalls : progress.Recalls merged decisions)
    (merges : merged.Merges own) {decision : Decision}
    (member : decision ∈ decisions) (addressed : merged.Addresses decision) :
    (progress.carryOut decision).Recalls merged decisions := by
  cases decision with
  | settle settlement =>
      rcases addressed with ⟨property, relation, held, -⟩
      exact recalls.settle merges member held
  | synthesize synthesis => exact recalls.synthesize member

end Progress.Recalls

/-- Carrying out decisions about what is held, only what is in dispute is found
ambiguous. -/
theorem recalls_carryOut (merges : merged.Merges own)
    (addressed : ∀ decision ∈ decisions, merged.Addresses decision) :
    (carryOut merged decisions).Recalls merged decisions := by
  have all : ∀ (rest : List Decision) (progress : Progress),
      (∀ decision ∈ rest, decision ∈ decisions) →
      progress.Recalls merged decisions →
      (rest.foldl Progress.carryOut progress).Recalls merged decisions := by
    intro rest
    induction rest with
    | nil => exact fun _ _ recalls => recalls
    | cons decision rest induction =>
        intro progress inside recalls
        have member := inside decision (List.mem_cons_self ..)
        exact induction _
          (fun other later => inside other (List.mem_cons_of_mem _ later))
          (recalls.carryOut merges member (addressed decision member))
  exact all decisions _ (fun _ member => member)
    (recalls_nothing merged decisions)

end Settlement

end EntityCatalog
