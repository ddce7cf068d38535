import EntityCatalog.Proofs.Property.Hints
import EntityCatalog.Proofs.Relation.Reciprocity

/-!
# Whether hints are heeded

A relation keeps the name that its own hint gives, and owns as that hint says.
A declared word on ownership is heeded, too, unless a property of the target
names the relation in the other role: pairing takes that property for the other
side without asking the relation what it declares (`Cleared.owner_or_answered`).
That property's own hint then leads to a different declaration
(`Cleared.exists_counterpart`), since with this one it would not agree.
-/

namespace EntityCatalog

/-- What is related to an entity is related to its ancestors. -/
theorem Entities.Forest.isRelated_of_descends_right {entities : Entities}
    (forest : entities.Forest) {left lower upper : String}
    (leftRegistered : left ∈ entities.keys)
    (lowerRegistered : lower ∈ entities.keys)
    (related : entities.isRelated left lower = true)
    (climb : Descends entities.base? lower upper) :
    entities.isRelated left upper = true := by
  have upperRegistered := descends_mem forest.closed lowerRegistered climb
  rw [isRelated, Bool.or_eq_true, forest.isWithin_iff leftRegistered,
    forest.isWithin_iff lowerRegistered] at related
  rcases related with below | above
  · rw [isRelated, (forest.isWithin_iff leftRegistered).mpr (below.trans climb),
      Bool.true_or]
  · exact forest.isRelated_of_descends leftRegistered upperRegistered above climb

namespace Pairing

/-! ## Roles -/

/-- A candidate that names a relation names it in one of two roles. -/
theorem slot_of_answer {candidate : Side} {name : String} {owner : Bool}
    (answer : candidate.answer name = some owner) :
    ∃ hint : Hint, hint.slot candidate.relation.sides = some name ∧
      owner = !decide (hint = .inversedBy) := by
  unfold Side.answer at answer
  split at answer
  · rename_i mapped
    cases answer
    exact ⟨.mappedBy, mapped, rfl⟩
  · split at answer
    · rename_i inverted
      cases answer
      exact ⟨.inversedBy, inverted, rfl⟩
    · cases answer

/-- What has nothing against a hint does not declare the role of the hint for
itself. -/
theorem ownerHint_of_objection {hint : Hint} {name : String}
    {other : Relation} (agreed : objection hint name other = none) :
    other.ownerHint ≠ some (decide (hint = .inversedBy)) := by
  intro claims
  unfold objection at agreed
  cases hint <;> dsimp only at agreed <;> split at agreed
  case mappedBy.isFalse | inversedBy.isFalse =>
    simp [claims, Option.orElse_eq_or] at agreed
  all_goals cases agreed

/-! ## Verdicts on relations that declare whether they own -/

namespace Scope

variable {scope : Scope} {side : Side} {target : Entity} {owner : Bool}

theorem owning_of_decideAlone
    (claims : side.relation.ownerHint = some owner)
    (sound : (scope.decideAlone side target).defect = none) :
    settle side owner none side.place ∈
      (scope.decideAlone side target).decisions := by
  unfold decideAlone at sound ⊢
  rw [claims] at sound ⊢
  cases owner with
  | false => cases sound
  | true =>
      rw [if_neg (by simp)]
      dsimp only
      split
      · exact List.mem_cons_self ..
      · exact List.mem_cons_self ..

theorem owning_of_decideBetween {other : Side}
    (claims : side.relation.ownerHint = some owner)
    (sound : (decideBetween side other).defect = none) :
    settle side owner (some other.property.name) other.place ∈
      (decideBetween side other).decisions := by
  unfold decideBetween at sound ⊢
  rw [claims] at sound ⊢
  cases claim : owns (some owner) other.relation.ownerHint with
  | error ambiguity =>
      rw [claim] at sound
      cases sound
  | ok given =>
      have same : given = owner := by
        unfold owns at claim
        split at claim <;> cases claim <;> simp_all
      subst same
      exact List.mem_cons_self ..

/-- A relation that names no other side and says whether it owns is told so, or
is answered by a property of its target in the other role. -/
theorem owning_or_answered
    (unhinted : side.relation.sides.isUnhinted = true)
    (single : side.relation.kind = .oneToOne ∨
      side.relation.kind = .manyToMany)
    (claims : side.relation.ownerHint = some owner)
    (sound : (scope.verdict side target).defect = none) :
    (∃ name source, settle side owner name source ∈
        (scope.verdict side target).decisions) ∨
      ∃ other found, scope.Rivals side target other found ∧
        other.answer side.property.name = some (!owner) ∧
        settle side (!owner) (some other.property.name) other.place ∈
          (scope.verdict side target).decisions := by
  rw [Scope.verdict_of_unhinted unhinted single] at sound ⊢
  unfold decideUnhinted at sound ⊢
  dsimp only at sound ⊢
  cases answer : (scope.rivals side target).findSome? fun candidate =>
      (candidate.answer side.property.name).map fun owner =>
        (candidate, owner) with
  | some decided =>
      rcases List.exists_of_findSome?_eq_some answer with
        ⟨other, member, answered⟩
      rcases Option.map_eq_some_iff.mp answered with ⟨given, here, rfl⟩
      rcases rivals_of_mem member with ⟨found, rival⟩
      have told := List.mem_singleton_self
        (settle side given (some other.property.name) other.place)
      by_cases same : given = owner
      · subst same
        exact Or.inl ⟨_, _, told⟩
      · rcases Bool.eq_not_of_ne same with rfl
        exact Or.inr ⟨other, found, rival, here, told⟩
  | none =>
      rw [answer] at sound
      dsimp only at sound ⊢
      cases open_sides : (scope.rivals side target).filter
          (·.relation.sides.isUnhinted) with
      | nil =>
          rw [open_sides] at sound
          exact Or.inl ⟨_, _, owning_of_decideAlone claims sound⟩
      | cons other rest =>
          rw [open_sides] at sound
          cases rest with
          | nil => exact Or.inl ⟨_, _, owning_of_decideBetween claims sound⟩
          | cons second others => cases sound

end Scope

/-! ## The sides in the end -/

namespace Scope.Cleared

variable {scope : Scope} {own : Place → Option Property}
  {side : Side} {final : Sides}

/-- A relation owns as it declares, or a property of its target names it in the
other role and is entered. -/
theorem owner_or_answered (cleared : scope.Cleared own)
    (held : side.Held scope.entities)
    (agreed : side.relation.sides.Agreed (scope.Proposed side.place) final)
    (consistent : side.relation.Consistent) {owner : Bool}
    (claims : side.relation.ownerHint = some owner) :
    final.owner = owner ∨
      ∃ (target : Entity) (other : Side) (found : String),
        scope.directory.meaning side.relation.target.declared =
            .ok target.name ∧
          scope.entities.find? target.name = some target ∧
          other.Held scope.entities ∧
          other.place = ⟨target.name, other.property.name⟩ ∧
          other.relation.kind = side.relation.kind ∧
          other.answer side.property.name = some (!owner) ∧
          scope.aim other.property other.relation = some found ∧
          scope.entities.isRelated found side.property.declaredBy = true ∧
          final.owner = !owner ∧
          (if owner then final.mappedBy else final.inversedBy) =
            some other.property.name := by
  have settled := cleared.settled held agreed
  have lawful := cleared.lawful_side held
  cases mapped : side.relation.sides.mappedBy with
  | some name =>
      have told := (agreed.mappedBy name).mpr (Or.inl mapped)
      cases owner with
      | false => exact Or.inl (settled.owner_of_mappedBy told)
      | true =>
          rw [consistent.owning claims] at mapped
          cases mapped
  | none =>
  cases inverted : side.relation.sides.inversedBy with
  | some name =>
      have told := (agreed.inversedBy name).mpr (Or.inl inverted)
      cases owner with
      | true => exact Or.inl (settled.owner_of_inversedBy told)
      | false =>
          rw [consistent.inverse claims] at inverted
          cases inverted
  | none =>
  have unhinted : side.relation.sides.isUnhinted = true := by
    rw [Sides.isUnhinted, mapped, inverted]
    rfl
  by_cases many : side.relation.kind = .manyToOne
  · -- Without a hint it owns, and it may not declare otherwise.
    refine Or.inl ?_
    rw [settled.owner.mpr (cleared.mappedBy_of_manyToOne held agreed many)]
    cases owner with
    | true => rfl
    | false => exact absurd claims (consistent.manyToOne many)
  have single : side.relation.kind = .oneToOne ∨
      side.relation.kind = .manyToMany := by
    cases kind : side.relation.kind with
    | manyToOne => exact absurd kind many
    | oneToMany => exact absurd mapped (lawful.oneToMany kind)
    | oneToOne => exact Or.inl rfl
    | manyToMany => exact Or.inr rfl
  rcases cleared.exists_representative cleared.dropped held with
    ⟨first, heldFirst, concerned, property, relation, copy⟩
  have clears := cleared.clears first heldFirst concerned
  rcases cleared.pairs_of_clears (cleared.clears first heldFirst) concerned with
    ⟨target, pairs⟩
  have ruling := Scope.ruling_of_means pairs.means pairs.registered
  have decided : ∀ decision ∈ (scope.verdict first target).decisions,
      decision ∈ scope.decisions := by
    intro decision member
    refine mem_decisions_iff.mpr ⟨first, heldFirst, ?_⟩
    rw [Scope.decided, if_pos concerned, ruling]
    exact member
  rw [ruling] at clears
  rw [← relation] at unhinted single claims
  rcases owning_or_answered unhinted single claims clears with
    ⟨name, source, told⟩ | ⟨other, found, rival, answer, told⟩
  · exact Or.inl (owner_of_settle agreed copy (decided _ told))
  · rcases rival.held pairs.registered with ⟨heldOther, place⟩
    have owns := owner_of_settle agreed copy (decided _ told)
    have known : found ∈ scope.entities.keys := by
      rcases cleared.aim heldOther with ⟨back, aims, registered⟩
      rw [rival.aim] at aims
      rw [Option.some.inj aims]
      exact Table.mem_keys_of_find? registered
    have above := (cleared.merges.declared_of_held heldFirst.property).2.2
    have related := cleared.merges.isRelated_of_descends_right known
      (Table.mem_keys_of_find? heldFirst.entity) rival.related above
    refine Or.inr ⟨target, other, found, relation ▸ pairs.means,
      pairs.registered, heldOther, place, relation ▸ rival.kind,
      property ▸ answer, rival.aim, property ▸ related, owns, ?_⟩
    cases owner with
    | true => exact mappedBy_of_settle agreed copy (decided _ told)
    | false => exact inversedBy_of_settle agreed copy (decided _ told)

/-- What the hint of a relation names is held by its target and has nothing
against the hint. -/
theorem exists_counterpart (cleared : scope.Cleared own)
    (held : side.Held scope.entities) {hint : Hint} {name : String}
    (hints : hint.slot side.relation.sides = some name) :
    ∃ (target : Entity) (other : Side),
      scope.directory.meaning side.relation.target.declared =
          .ok target.name ∧
        other.Held scope.entities ∧ other.place = ⟨target.name, name⟩ ∧
        objection hint side.property.name other.relation = none := by
  rcases cleared.pairs held with
    ⟨first, target, -, property, relation, -, pairs⟩
  have lawful := cleared.lawful_side held
  rw [← relation] at hints lawful ⊢
  rw [← property]
  rcases cleared.hinted_of_slot pairs.registered lawful hints pairs.paired with
    ⟨other, found, answers, -⟩
  rcases answers.held pairs.registered with ⟨heldOther, place⟩
  exact ⟨target, other, pairs.means, heldOther, place, answers.agreed⟩

/-- A property with nothing against a hint is no copy of a relation that
declares the role of the hint for itself. -/
theorem origin_ne_of_objection (cleared : scope.Cleared own) {twin : Side}
    (held : side.Held scope.entities) (heldTwin : twin.Held scope.entities)
    {hint : Hint} {name : String}
    (claims : side.relation.ownerHint = some (decide (hint = .inversedBy)))
    (agreed : objection hint name twin.relation = none) :
    twin.property.origin ≠ side.property.origin := by
  intro same
  have equal := cleared.merges.eq_of_origin_eq heldTwin.property held.property
    same
  have relation : twin.relation = side.relation := by
    have found := heldTwin.relation
    rw [equal, held.relation] at found
    exact (Option.some.inj found).symm
  rw [← relation] at claims
  exact ownerHint_of_objection agreed claims

end Scope.Cleared

end Pairing

end EntityCatalog
