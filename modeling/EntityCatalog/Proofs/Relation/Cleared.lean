import EntityCatalog.Proofs.Relation.Carrying
import EntityCatalog.Proofs.Relation.Run

/-!
# Scopes without defects

In a scope where nothing is wrong (`Scope.Cleared`) every relation is paired,
if not for the entity itself then for a concrete base from which it is
inherited unchanged.  That base stands for the entity (`Cleared.pairs`): what
is decided for the base reaches the entity as a copy.
-/

namespace EntityCatalog.Pairing

variable {scope : Scope} {own : Place → Option Property}

/-! ## Held sides -/

namespace Side.Held

variable {side : Side} {entities : Entities}

theorem base? (held : side.Held entities) :
    entities.base? side.entity.name = side.entity.base := by
  rw [Entities.base?, held.entity, Option.bind_some]

theorem holds (held : side.Held entities) :
    side.entity.property? side.property.name = some side.property := by
  have found := held.property
  rw [Entities.property?, show entities.find? side.place.entity = _ from
    held.entity, Option.bind_some] at found
  exact found

end Side.Held

/-- A place is that of one side at most. -/
theorem Side.Held.eq_of_place_eq {entities : Entities} {left right : Side}
    (heldLeft : left.Held entities) (heldRight : right.Held entities)
    (same : left.place = right.place) : left = right := by
  have entity : left.entity = right.entity := by
    have found := heldLeft.entity
    rw [show left.entity.name = right.entity.name from
      congrArg Place.entity same, heldRight.entity] at found
    exact (Option.some.inj found).symm
  have property : left.property = right.property := by
    have found := heldLeft.property
    rw [same, heldRight.property] at found
    exact (Option.some.inj found).symm
  have relation : left.relation = right.relation := by
    have found := heldLeft.relation
    rw [property, heldRight.relation] at found
    exact (Option.some.inj found).symm
  cases left
  cases right
  simp_all

/-- Sides of one property are sides of one relation. -/
theorem Side.Held.relation_eq {entities : Entities} {side other : Side}
    (held : side.Held entities) (heldOther : other.Held entities)
    (same : other.property = side.property) :
    other.relation = side.relation := by
  have related := heldOther.relation
  rw [same, held.relation] at related
  exact (Option.some.inj related).symm

/-- At the place of a copy the same relation is held. -/
theorem eq_of_copyOf {entities : Entities} {side other : Side}
    (held : side.Held entities) (heldOther : other.Held entities)
    (copy : entities.CopyOf other.place side.place) :
    other.property = side.property ∧ other.relation = side.relation := by
  have property : other.property = side.property := by
    have here := copy.same
    rw [heldOther.property, held.property] at here
    exact Option.some.inj here
  exact ⟨property, held.relation_eq heldOther property⟩

theorem held_of_property? {entities : Entities} {target : Entity}
    {other : Side} {name : String}
    (registered : entities.find? target.name = some target)
    (entity : other.entity = target)
    (named : target.property? name = some other.property)
    (related : other.property.relation? = some other.relation) :
    other.Held entities ∧ other.place = ⟨target.name, name⟩ := by
  have name_eq := (Table.find?_eq_some named).2
  have place : other.place = ⟨target.name, name⟩ := by
    rw [Side.place, Entity.place, entity, name_eq]
  refine ⟨⟨?_, ?_, related⟩, place⟩
  · rw [entity]
    exact registered
  · rw [place, Entities.property?, registered]
    exact named

theorem exists_side_of_property? {entities : Entities} {place : Place}
    {property : Property} {relation : Relation}
    (held : entities.property? place = some property)
    (related : property.relation? = some relation) :
    ∃ entity, entity.name = place.entity ∧
      Side.Held ⟨entity, property, relation⟩ entities ∧
        Side.place ⟨entity, property, relation⟩ = place := by
  rcases Option.bind_eq_some_iff.mp held with ⟨entity, found, named⟩
  have here := (Table.find?_eq_some found).2
  rw [← here] at found
  refine ⟨entity, here, ?_⟩
  rw [show place = ⟨entity.name, place.property⟩ from
    congrArg (Place.mk · place.property) here.symm]
  exact held_of_property? found rfl named related

theorem Scope.Answers.held {side other : Side} {target : Entity} {hint : Hint}
    {name found : String}
    (answers : scope.Answers side target hint name other found)
    (registered : scope.entities.find? target.name = some target) :
    other.Held scope.entities ∧ other.place = ⟨target.name, name⟩ :=
  held_of_property? registered answers.entity answers.named answers.relation

theorem Scope.Rivals.held {side other : Side} {target : Entity}
    {found : String} (rivals : scope.Rivals side target other found)
    (registered : scope.entities.find? target.name = some target) :
    other.Held scope.entities ∧
      other.place = ⟨target.name, other.property.name⟩ :=
  held_of_property? registered rivals.entity
    (Table.find?_key rivals.holds) rivals.relation

/-! ## Who pairs a relation -/

/-- A scope in which nothing was dropped and nothing is wrong. -/
structure Scope.Cleared (scope : Scope) (own : Place → Option Property) : Prop
    extends Scope.Coherent scope own where
  dropped : scope.invalid = []
  clears : ∀ side, side.Held scope.entities → scope.Clears side

namespace Scope.Coherent

/-- A relation that a base pairs is held by that base. -/
theorem held_of_pairedByBase (coherent : scope.Coherent own) {side : Side}
    (held : side.Held scope.entities)
    (paired : scope.pairedByBase side = true) :
    ∃ base : Entity, side.entity.base = some base.name ∧
      base.isAbstract = false ∧
      Side.Held ⟨base, side.property, side.relation⟩ scope.entities := by
  unfold Scope.pairedByBase at paired
  split at paired
  · cases paired
  · rename_i base above
    rcases Option.bind_eq_some_iff.mp above with ⟨name, link, found⟩
    rcases (Table.find?_eq_some found).2 with rfl
    rw [Bool.and_eq_true, Bool.not_eq_true'] at paired
    rcases paired with ⟨concrete, inherited⟩
    rcases (Option.any_eq_true _ _).mp inherited with ⟨copy, here, alike⟩
    have heldCopy : scope.entities.property?
        ⟨base.name, side.property.name⟩ = some copy := by
      rw [Entities.property?, found]
      exact here
    have named := (coherent.merges.declared_of_held heldCopy).2.1
    have same : copy = side.property :=
      coherent.merges.eq_of_origin_eq heldCopy held.property
        (congrArg₂ Place.mk (of_decide_eq_true alike) named)
    subst same
    exact ⟨base, link, concrete, found, heldCopy, held.relation⟩

/-- Every relation is paired on its own account or on that of a base that it
is inherited from, and such a base is concrete. -/
theorem exists_concrete_representative (coherent : scope.Coherent own)
    (dropped : scope.invalid = []) {side : Side}
    (held : side.Held scope.entities) :
    ∃ other : Side, other.Held scope.entities ∧
      scope.concerns other = true ∧
      (side.entity.isAbstract = false → other.entity.isAbstract = false) ∧
      other.property = side.property ∧ other.relation = side.relation ∧
      scope.entities.CopyOf side.place other.place := by
  rcases coherent.merges.rooted side.entity.name with ⟨root, climb, rootless⟩
  generalize start : side.entity.name = lower at climb
  induction climb generalizing side with
  | refl lower =>
      subst start
      refine ⟨side, held, ?_, id, rfl, rfl, .refl _ _⟩
      rw [held.base?] at rootless
      rw [Scope.concerns, dropped, Scope.pairedByBase, rootless]
      rfl
  | @step lower next root link rest induction =>
      subst start
      cases paired : scope.pairedByBase side with
      | false =>
          refine ⟨side, held, ?_, id, rfl, rfl, .refl _ _⟩
          rw [Scope.concerns, dropped, paired]
          rfl
      | true =>
          rcases coherent.held_of_pairedByBase held paired with
            ⟨base, above, concrete, heldBase⟩
          rw [held.base?, above] at link
          cases link
          rcases induction heldBase rootless rfl with
            ⟨other, heldOther, concerned, still, property, relation, copy⟩
          refine ⟨other, heldOther, concerned, fun _ => still concrete, property,
            relation, ?_⟩
          refine ⟨copy.name, .step ?_ copy.below, ?_⟩
          · exact held.base?.trans above
          · rw [heldOther.property, held.property, property]

theorem exists_representative (coherent : scope.Coherent own)
    (dropped : scope.invalid = []) {side : Side}
    (held : side.Held scope.entities) :
    ∃ other : Side, other.Held scope.entities ∧
      scope.concerns other = true ∧ other.property = side.property ∧
      other.relation = side.relation ∧
      scope.entities.CopyOf side.place other.place := by
  rcases coherent.exists_concrete_representative dropped held with
    ⟨other, heldOther, concerned, -, here⟩
  exact ⟨other, heldOther, concerned, here⟩

end Scope.Coherent

namespace Scope.Cleared

variable {side : Side}

/-- Every relation is paired with its target, if not for the entity itself then
for a base that stands for it. -/
theorem pairs (cleared : scope.Cleared own) (held : side.Held scope.entities) :
    ∃ (other : Side) (target : Entity), other.Held scope.entities ∧
      other.property = side.property ∧ other.relation = side.relation ∧
      scope.entities.CopyOf side.place other.place ∧
      scope.Pairs other target := by
  rcases cleared.exists_representative cleared.dropped held with
    ⟨other, heldOther, concerned, property, relation, copy⟩
  rcases cleared.pairs_of_clears (cleared.clears other heldOther) concerned
    with ⟨target, pairs⟩
  exact ⟨other, target, heldOther, property, relation, copy, pairs⟩

theorem means (cleared : scope.Cleared own) (held : side.Held scope.entities) :
    ∃ target : Entity,
      scope.directory.meaning side.relation.target.declared =
          .ok target.name ∧
        scope.entities.find? target.name = some target := by
  rcases cleared.pairs held with ⟨other, target, -, -, relation, -, pairs⟩
  exact ⟨target, relation ▸ pairs.means, pairs.registered⟩

theorem aim (cleared : scope.Cleared own) (held : side.Held scope.entities) :
    ∃ target : Entity,
      scope.aim side.property side.relation = some target.name ∧
        scope.entities.find? target.name = some target := by
  rcases cleared.means held with ⟨target, means, registered⟩
  exact ⟨target, Scope.aim_of_means cleared.dropped means, registered⟩

/-! ## Decisions -/

end Scope.Cleared

/-- What is proposed for the sides of a relation. -/
abbrev Scope.Proposed (scope : Scope) (place : Place) : Sides → Prop :=
  scope.entities.Proposes scope.decisions place

namespace Scope.Cleared

variable {side : Side}

theorem mem_decisions_iff {decision : Decision} :
    decision ∈ scope.decisions ↔
      ∃ side, side.Held scope.entities ∧ decision ∈ scope.decided side := by
  simp only [Scope.decisions, List.mem_flatMap, Scope.mem_sides_iff]

/-- What is decided for a relation is among the decisions. -/
theorem mem_decisions_of_decided (held : side.Held scope.entities) :
    ∀ decision ∈ scope.decided side, decision ∈ scope.decisions :=
  fun _ decided => mem_decisions_iff.mpr ⟨side, held, decided⟩

/-- A decision is made on account of a relation that is paired. -/
theorem pairs_of_mem_decisions (cleared : scope.Cleared own)
    {decision : Decision} (member : decision ∈ scope.decisions) :
    ∃ (side : Side) (target : Entity), side.Held scope.entities ∧
      scope.Pairs side target ∧ decision ∈ scope.decided side := by
  rcases mem_decisions_iff.mp member with ⟨side, held, decided⟩
  have concerned : scope.concerns side = true := by
    by_cases concerned : scope.concerns side = true
    · exact concerned
    · rw [Scope.decided, if_neg concerned] at decided
      cases decided
  rcases cleared.pairs_of_clears (cleared.clears side held) concerned with
    ⟨target, pairs⟩
  exact ⟨side, target, held, pairs, decided⟩

/-- Decisions are about relations that are held, and about entities. -/
theorem addresses (cleared : scope.Cleared own) {decision : Decision}
    (member : decision ∈ scope.decisions) :
    scope.entities.Addresses decision := by
  have settles : ∀ (side : Side) owner name source,
      side.Held scope.entities →
        scope.entities.Addresses (settle side owner name source) :=
    fun side _ _ _ held => ⟨side.property, side.relation, held.property,
      held.relation⟩
  rcases cleared.pairs_of_mem_decisions member with
    ⟨side, target, held, pairs, decided⟩
  have registered := pairs.registered
  have paired := pairs.paired
  generalize scope.decided side = decisions at decided paired
  cases paired with
  | unheard | silent => cases decided
  | hinted hint name other found hints answers =>
      rcases List.mem_pair.mp decided with rfl | rfl
      · exact settles _ _ _ _ held
      · exact settles _ _ _ _ (answers.held registered).1
  | answered other found owner unhinted kind rival answer =>
      rcases List.mem_singleton.mp decided with rfl
      exact settles _ _ _ _ held
  | alone unhinted kind lonely =>
      rcases List.mem_singleton.mp decided with rfl
      exact settles _ _ _ _ held
  | added name unhinted kind lonely concrete naming fresh =>
      rcases List.mem_cons.mp decided with rfl | decided
      · exact settles _ _ _ _ held
      · rcases List.mem_pair.mp decided with rfl | rfl
        · exact settles _ _ _ _ held
        · exact Table.mem_keys_of_find? registered
  | between other found owner unhinted kind rival otherUnhinted only claim =>
      rcases List.mem_pair.mp decided with rfl | rfl
      · exact settles _ _ _ _ held
      · exact settles _ _ _ _ (rival.held registered).1

end Scope.Cleared

end EntityCatalog.Pairing
