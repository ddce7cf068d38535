import EntityCatalog.Proofs.Entity.Reordered
import EntityCatalog.Proofs.Relation.Reciprocity
import Mathlib.Data.List.Pairwise

/-!
# Pairing in another order

What is decided on account of a relation is read off the merged entities by
name, so it is the same whatever the order of the entities
(`Reordered.decided`), and all decisions together differ in their order only.
The order matters where one inverse is to be added above another one of the
same name: the lower one has to be added first (`accepts_iff_timely`).
-/

namespace EntityCatalog

/-- For one entity, inverses of different relations have different names. -/
theorem InverseNaming.property_eq_of_inverseName_eq {naming : InverseNaming}
    {entity left right : String}
    (same : naming.inverseName entity left = naming.inverseName entity right) :
    left = right := by
  have texts := congrArg String.toList same
  cases naming with
  | entityAndProperty =>
      simpa [inverseName, String.toList_append, String.toList_inj] using texts
  | suffix text =>
      simpa [inverseName, String.toList_append, String.toList_inj] using texts

namespace Pairing

/-! ## Rulings -/

/-- Scopes over the same entities in some order each. -/
structure Scope.Reordered (left right : Scope) : Prop where
  config : left.config = right.config
  invalid : left.invalid = right.invalid
  meaning : left.directory.meaning = right.directory.meaning
  entities : left.entities.Reordered right.entities

namespace Scope.Reordered

variable {left right : Scope}

theorem symm (reordered : left.Reordered right) : right.Reordered left where
  config := reordered.config.symm
  invalid := reordered.invalid.symm
  meaning := reordered.meaning.symm
  entities := reordered.entities.symm

theorem aim (reordered : left.Reordered right) : left.aim = right.aim := by
  funext property relation
  rw [Scope.aim, Scope.aim, reordered.invalid, reordered.meaning]

theorem reply (reordered : left.Reordered right) :
    left.reply = right.reply := by
  funext side target hint name
  rw [Scope.reply, Scope.reply, reordered.aim, reordered.invalid,
    reordered.entities.anyWithin, reordered.entities.isRelated]

theorem rivals (reordered : left.Reordered right) :
    left.rivals = right.rivals := by
  funext side target
  have same : left.rival? = right.rival? := by
    funext side target other
    rw [Scope.rival?, Scope.rival?, reordered.aim,
      reordered.entities.isRelated]
  rw [Scope.rivals, Scope.rivals, same]

theorem decideAlone (reordered : left.Reordered right) :
    left.decideAlone = right.decideAlone := by
  funext side target
  rw [Scope.decideAlone, Scope.decideAlone, Scope.synthesis, Scope.synthesis,
    reordered.config]

theorem decideUnhinted (reordered : left.Reordered right) :
    left.decideUnhinted = right.decideUnhinted := by
  funext side target candidates
  rw [Scope.decideUnhinted, Scope.decideUnhinted, reordered.decideAlone]

theorem verdict (reordered : left.Reordered right) :
    left.verdict = right.verdict := by
  funext side target
  have hinted : left.hintedVerdict = right.hintedVerdict := by
    funext side target hint name
    rw [Scope.hintedVerdict, Scope.hintedVerdict, reordered.reply]
  rw [Scope.verdict, Scope.verdict, hinted, reordered.decideUnhinted,
    reordered.rivals]

theorem ruling (reordered : left.Reordered right) :
    left.ruling = right.ruling := by
  funext side
  rw [Scope.ruling, Scope.ruling, reordered.meaning, reordered.entities.find?,
    reordered.verdict]

theorem concerns (reordered : left.Reordered right) :
    left.concerns = right.concerns := by
  funext side
  rw [Scope.concerns, Scope.concerns, Scope.pairedByBase, Scope.pairedByBase,
    reordered.invalid, reordered.entities.find?]

/-- What is decided on account of a relation does not depend on the order. -/
theorem decided (reordered : left.Reordered right) :
    left.decided = right.decided := by
  funext side
  rw [Scope.decided, Scope.decided, reordered.concerns, reordered.ruling]

theorem held (reordered : left.Reordered right) {side : Side}
    (held : side.Held left.entities) : side.Held right.entities := by
  rcases held with ⟨entity, property, relation⟩
  rw [reordered.entities.find?] at entity
  rw [reordered.entities.property?] at property
  exact ⟨entity, property, relation⟩

theorem clears_iff (reordered : left.Reordered right) {side : Side} :
    left.Clears side ↔ right.Clears side := by
  rw [Scope.Clears, Scope.Clears, reordered.concerns, reordered.ruling]

/-! ## Decisions -/

theorem perm_decisions (reordered : left.Reordered right) :
    left.decisions.Perm right.decisions := by
  have entities : left.entities.basesFirst.Perm right.entities.basesFirst :=
    left.entities.perm_basesFirst.trans
      (List.Perm.trans reordered.entities right.entities.perm_basesFirst.symm)
  rw [Scope.decisions, Scope.decisions, reordered.decided]
  exact (entities.flatMap_right sidesOf).flatMap_right right.decided

theorem perm_syntheses (reordered : left.Reordered right) :
    (syntheses left.decisions).Perm (syntheses right.decisions) :=
  reordered.perm_decisions.filterMap Decision.synthesis?

theorem copyOf (reordered : left.Reordered right) {copy place : Place}
    (copyOf : left.entities.CopyOf copy place) :
    right.entities.CopyOf copy place := by
  rcases copyOf with ⟨name, below, same⟩
  rw [reordered.entities.base?] at below
  rw [reordered.entities.property?] at same
  exact ⟨name, below, same⟩

theorem copyOf_iff (reordered : left.Reordered right) {copy place : Place} :
    left.entities.CopyOf copy place ↔ right.entities.CopyOf copy place :=
  ⟨reordered.copyOf, reordered.symm.copyOf⟩

theorem proposed (reordered : left.Reordered right) :
    left.Proposed = right.Proposed := by
  funext place sides
  simp only [Scope.Proposed, Entities.Proposes, reordered.copyOf_iff,
    reordered.perm_decisions.mem_iff]

theorem covers (reordered : left.Reordered right) (place : Place)
    (synthesis : Synthesis) :
    synthesis.covers left.entities place =
      synthesis.covers right.entities place := by
  rw [Synthesis.covers, Synthesis.covers, reordered.entities.isWithin]

end Scope.Reordered

/-! ## The order of added inverses -/

variable {scope : Scope} {own : Place → Option Property}

/-- Relations are looked at entity by entity, bases first. -/
theorem Scope.sorted_sides (scope : Scope) :
    scope.sides.Pairwise fun earlier later =>
      earlier.entity.name = later.entity.name ∨
        scope.entities.Precedes scope.entities.keys earlier.entity.name
          later.entity.name := by
  rw [Scope.sides, List.pairwise_flatMap]
  constructor
  · intro entity _
    refine List.pairwise_of_forall_mem_list ?_
    intro earlier first later second
    rw [(mem_sidesOf_iff.mp first).1, (mem_sidesOf_iff.mp second).1]
    exact Or.inl rfl
  · refine scope.entities.sorted_basesFirst.imp ?_
    intro less more precedes earlier first later second
    rw [(mem_sidesOf_iff.mp first).1, (mem_sidesOf_iff.mp second).1]
    exact Or.inr precedes

namespace Scope.Cleared

theorem source_of_mem_decided (cleared : scope.Cleared own) {side : Side}
    (held : side.Held scope.entities) {synthesis : Synthesis}
    (member : synthesis ∈ syntheses (scope.decided side)) :
    synthesis.source.entity = side.entity.name := by
  have decided := mem_syntheses_iff.mp member
  have concerned : scope.concerns side = true := by
    by_cases concerned : scope.concerns side = true
    · exact concerned
    · rw [Scope.decided, if_neg concerned] at decided
      cases decided
  rcases cleared.pairs_of_clears (cleared.clears side held) concerned with
    ⟨target, pairs⟩
  rw [(added_of_paired pairs.paired decided).2.2.1]
  rfl

/-- Inverses are added in the order of the entities for whose relations they
are added. -/
theorem sorted_syntheses (cleared : scope.Cleared own) :
    (syntheses scope.decisions).Pairwise fun earlier later =>
      earlier.source.entity = later.source.entity ∨
        scope.entities.Precedes scope.entities.keys earlier.source.entity
          later.source.entity := by
  have source : ∀ side ∈ scope.sides,
      ∀ synthesis ∈ syntheses (scope.decided side),
        synthesis.source.entity = side.entity.name :=
    fun side member _ => cleared.source_of_mem_decided
      (Scope.mem_sides_iff.mp member)
  rw [syntheses, Scope.decisions, List.filterMap_flatMap, List.pairwise_flatMap]
  constructor
  · intro side member
    refine List.pairwise_of_forall_mem_list ?_
    intro earlier first later second
    rw [source side member _ first, source side member _ second]
    exact Or.inl rfl
  · refine scope.sorted_sides.imp_of_mem ?_
    intro left right leftMember rightMember before earlier first later second
    rw [source left leftMember _ first, source right rightMember _ second]
    exact before

theorem eq_of_source_entity_eq (cleared : scope.Cleared own)
    {first second : Synthesis} (firstMember : first ∈ syntheses scope.decisions)
    (secondMember : second ∈ syntheses scope.decisions)
    (source : first.source.entity = second.source.entity)
    (name : first.name = second.name) : first = second := by
  rcases cleared.source_of_added firstMember with
    ⟨left, target, held, means, -, -, -, rfl, -⟩
  rcases cleared.source_of_added secondMember with
    ⟨right, other, heldOther, meansOther, -, -, -, rfl, -⟩
  have entity : left.entity.name = right.entity.name := source
  have property : left.property.name = right.property.name := by
    dsimp only at name
    rw [entity] at name
    exact InverseNaming.property_eq_of_inverseName_eq name
  have same : left = right :=
    held.eq_of_place_eq heldOther (congrArg₂ Place.mk entity property)
  subst same
  rw [means] at meansOther
  rw [Except.ok.inj meansOther]

/-- No entity gets two inverses of one name. -/
theorem distinct_holders (cleared : scope.Cleared own)
    (accepts : scope.entities.Accepts scope.decisions) :
    (syntheses scope.decisions).Pairwise fun first second =>
      ¬ (first.name = second.name ∧ first.holder = second.holder) := by
  refine accepts.apart.imp_of_mem ?_
  rintro first second - member apart ⟨name, holder⟩
  have registered := cleared.addresses (mem_syntheses_iff.mp member)
  have covered : first.covers scope.entities second.place = true := by
    refine Synthesis.covers_iff.mpr ⟨name, ?_⟩
    rw [holder]
    exact (cleared.merges.isWithin_iff registered).mpr (.refl _)
  rw [covered] at apart
  cases apart

end Scope.Cleared

/-- Of two items of a sorted list one comes before the other. -/
theorem either_of_pairwise {Item : Type} {before : Item → Item → Prop}
    {items : List Item} (sorted : items.Pairwise before) {first second : Item}
    (firstMember : first ∈ items) (secondMember : second ∈ items)
    (different : first ≠ second) :
    before first second ∨ before second first := by
  have symmetric : Std.Symm fun first second : Item =>
      before first second ∨ before second first :=
    ⟨fun _ _ => Or.symm⟩
  have either : items.Pairwise fun first second =>
      before first second ∨ before second first := sorted.imp Or.inl
  exact either.forall firstMember secondMember different

/-! ## Inverses of one name -/

/-- Where two inverses of one name are added, one below the other, the lower one
comes first. -/
def Scope.Timely (scope : Scope) (order : List String) : Prop :=
  ∀ lower ∈ syntheses scope.decisions, ∀ upper ∈ syntheses scope.decisions,
    lower.name = upper.name → lower.holder ≠ upper.holder →
      scope.entities.isWithin lower.holder upper.holder = true →
        scope.entities.Precedes order lower.source.entity upper.source.entity

namespace Scope.Reordered

variable {left right : Scope}

theorem precedes_iff (reordered : left.Reordered right) {order : List String}
    {earlier later : String} :
    left.entities.Precedes order earlier later ↔
      right.entities.Precedes order earlier later := by
  rw [Entities.Precedes, Entities.Precedes, reordered.entities.ancestry]

/-- Where decisions go together in another order, inverses are added from
below. -/
theorem timely_of_accepts (reordered : left.Reordered right)
    (cleared : left.Cleared own) (clearedRight : right.Cleared own)
    (accepts : right.entities.Accepts right.decisions) :
    left.Timely right.entities.keys := by
  intro lower lowerMember upper upperMember name holder within
  have perm := reordered.perm_syntheses
  have different : lower ≠ upper := by
    rintro rfl
    exact holder rfl
  rcases either_of_pairwise (accepts.apart.and clearedRight.sorted_syntheses)
      (perm.mem_iff.mp lowerMember) (perm.mem_iff.mp upperMember) different
    with ⟨-, same | precedes⟩ | ⟨uncovered, -⟩
  · exact absurd (cleared.eq_of_source_entity_eq lowerMember upperMember same
      name) different
  · exact reordered.precedes_iff.mpr precedes
  · rw [← reordered.covers, Synthesis.covers_iff.mpr ⟨name.symm, within⟩]
      at uncovered
    cases uncovered

/-- Inverses that are added from below are apart from each other. -/
theorem apart_of_timely (reordered : left.Reordered right)
    (cleared : left.Cleared own) (clearedRight : right.Cleared own)
    (accepts : left.entities.Accepts left.decisions)
    (timely : left.Timely right.entities.keys) :
    (syntheses right.decisions).Pairwise fun earlier later =>
      earlier.covers right.entities later.place = false := by
  have perm := reordered.perm_syntheses
  have single : (syntheses right.decisions).Pairwise fun first second =>
      ¬ (first.name = second.name ∧ first.holder = second.holder) := by
    refine (perm.pairwise_iff ?_).mp (cleared.distinct_holders accepts)
    rintro first second apart ⟨name, holder⟩
    exact apart ⟨name.symm, holder.symm⟩
  refine (single.and clearedRight.sorted_syntheses).imp_of_mem ?_
  rintro earlier later first second ⟨alone, before⟩
  rw [Bool.eq_false_iff, Ne, ← reordered.covers, Synthesis.covers_iff]
  rintro ⟨name, within⟩
  have lower := perm.mem_iff.mpr second
  have upper := perm.mem_iff.mpr first
  have holder : later.holder ≠ earlier.holder := fun same =>
    alone ⟨name, same.symm⟩
  have precedes := timely later lower earlier upper name.symm holder within
  rcases before with same | reverse
  · have equal := cleared.eq_of_source_entity_eq upper lower same name
    exact holder (equal ▸ rfl)
  · exact precedes.asymm (reordered.precedes_iff.mpr reverse)

/-- Decisions that go together do so in another order, provided the lower ones
of inverses with one name are added first. -/
theorem accepts_iff_timely (reordered : left.Reordered right)
    (cleared : left.Cleared own) (clearedRight : right.Cleared own)
    (accepts : left.entities.Accepts left.decisions) :
    right.entities.Accepts right.decisions ↔
      left.Timely right.entities.keys := by
  constructor
  · exact reordered.timely_of_accepts cleared clearedRight
  · intro timely
    constructor
    · intro place property relation held related
      rw [← reordered.entities.property?] at held
      rcases accepts.agreed place property relation held related with
        ⟨sides, agreed⟩
      refine ⟨sides, agreed.congr fun other => ?_⟩
      rw [show left.entities.Proposes left.decisions = _ from
        reordered.proposed]
    · intro synthesis member
      rw [← reordered.entities.property?]
      exact accepts.free synthesis (reordered.perm_syntheses.mem_iff.mpr member)
    · exact reordered.apart_of_timely cleared clearedRight accepts timely

/-- Which inverse is held where several reach does not depend on the order: the
one that was added lowest. -/
theorem find?_covers (reordered : left.Reordered right)
    (merges : left.entities.Merges own)
    (apart : (syntheses left.decisions).Pairwise fun earlier later =>
      earlier.covers left.entities later.place = false)
    (apartRight : (syntheses right.decisions).Pairwise fun earlier later =>
      earlier.covers right.entities later.place = false)
    {place : Place} (registered : place.entity ∈ left.entities.keys) :
    (syntheses left.decisions).find? (·.covers left.entities place) =
      (syntheses right.decisions).find? (·.covers right.entities place) := by
  have perm := reordered.perm_syntheses
  have same : (fun synthesis : Synthesis =>
      synthesis.covers right.entities place) =
        fun synthesis => synthesis.covers left.entities place :=
    funext fun synthesis => (reordered.covers place synthesis).symm
  rw [same]
  cases found : (syntheses left.decisions).find?
      (·.covers left.entities place) with
  | none =>
      refine (List.find?_eq_none.mpr fun synthesis member => ?_).symm
      exact List.find?_eq_none.mp found synthesis (perm.mem_iff.mpr member)
  | some first =>
      have member := List.mem_of_find?_eq_some found
      have covers := List.find?_some found
      cases foundRight : (syntheses right.decisions).find?
          (·.covers left.entities place) with
      | none =>
          exact absurd covers (List.find?_eq_none.mp foundRight first
            (perm.mem_iff.mp member))
      | some other =>
          have otherMember := perm.mem_iff.mpr
            (List.mem_of_find?_eq_some foundRight)
          have otherCovers := List.find?_some foundRight
          refine congrArg some (Decidable.byContradiction fun different => ?_)
          -- Each of the two was added first in one order, so neither is
          -- held where the other one was added.
          have down := before_of_find? apart found otherMember otherCovers
            (Ne.symm different)
          have up := before_of_find? apartRight foundRight
            (perm.mem_iff.mp member) covers different
          rw [← reordered.covers] at up
          rcases Synthesis.covers_or_covers merges registered covers
              otherCovers with covered | covered
          · rw [covered] at up
            cases up
          · rw [covered] at down
            cases down

end Scope.Reordered

end Pairing

end EntityCatalog
