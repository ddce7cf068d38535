import EntityCatalog.Proofs.Relation.Ownership

/-!
# Inverses that lead back

A side that names an inverse need not be the one that the inverse answers: the
name may have been entered on account of a descendant of the target.  Where the
target itself holds a property of that name that points back and has no hints,
pairing has seen it, and it answers (`Cleared.proposed_of_inversedBy`), unless
both are one declaration.  Copies of one declaration own alike
(`Cleared.owner_eq_of_origin_eq`), so they never answer each other.
-/

namespace EntityCatalog

/-- Two ancestors of one entity are related. -/
theorem Entities.Forest.isRelated_of_descends {entities : Entities}
    (forest : entities.Forest) {lower left right : String}
    (leftRegistered : left ∈ entities.keys)
    (rightRegistered : right ∈ entities.keys)
    (toLeft : Descends entities.base? lower left)
    (toRight : Descends entities.base? lower right) :
    entities.isRelated left right = true := by
  rw [isRelated, Bool.or_eq_true, forest.isWithin_iff leftRegistered,
    forest.isWithin_iff rightRegistered]
  exact toLeft.total toRight

/-- What is held is a copy of what stands at its origin. -/
theorem Entities.Merges.copyOf_origin {entities : Entities}
    {own : Place → Option Property} (merges : entities.Merges own)
    {place : Place} {property : Property}
    (held : entities.property? place = some property) :
    entities.CopyOf place property.origin := by
  rcases merges.declared_of_held held with ⟨-, name, below⟩
  refine ⟨name.symm, below, ?_⟩
  rw [held, merges.held_at_origin held]

namespace Pairing

variable {scope : Scope} {own : Place → Option Property}

/-- What is proposed for a place is proposed for every copy of it. -/
theorem Scope.Proposed.of_copyOf {place copy : Place} {sides : Sides}
    (proposed : scope.Proposed place sides)
    (copies : scope.entities.CopyOf copy place) :
    scope.Proposed copy sides := by
  rcases proposed with ⟨settlement, member, reached, same⟩
  exact ⟨settlement, member, copies.trans reached, same⟩

/-- A declared relation is held where it was declared. -/
theorem Scope.Coherent.exists_side_at_origin (coherent : scope.Coherent own)
    {side : Side} (held : side.Held scope.entities) :
    ∃ first : Side, first.Held scope.entities ∧
      first.place = side.property.origin ∧
      first.relation = side.relation := by
  rcases exists_side_of_property?
      (coherent.merges.held_at_origin held.property) held.relation with
    ⟨entity, -, heldFirst, place⟩
  exact ⟨_, heldFirst, place, rfl⟩

namespace Scope.Cleared

variable {side other : Side} {final : Sides} {name : String}

/-- Copies of one declaration own alike, but for many-to-one relations, which
need not be paired. -/
theorem owner_eq_of_origin_eq (cleared : scope.Cleared own)
    (held : side.Held scope.entities) (heldOther : other.Held scope.entities)
    (same : side.property.origin = other.property.origin)
    (paired : side.relation.kind ≠ .manyToOne) {result : Sides}
    (agreed : side.relation.sides.Agreed (scope.Proposed side.place) final)
    (agreedOther :
      other.relation.sides.Agreed (scope.Proposed other.place) result) :
    final.owner = result.owner := by
  rcases cleared.exists_side_at_origin held with
    ⟨first, heldFirst, origin, relation⟩
  have copy := cleared.merges.copyOf_origin held.property
  have copyOther := cleared.merges.copyOf_origin heldOther.property
  rw [← same] at copyOther
  rw [← origin] at copy copyOther
  rcases cleared.own_proposal heldFirst with
    ⟨kind, -⟩ | ⟨owner, text, given, -⟩
  · rw [relation] at kind
    exact absurd kind paired
  · have left := agreed.owner _ (given.of_copyOf copy)
    have right := agreedOther.owner _ (given.of_copyOf copyOther)
    rw [left, right]

/-- A relation of the target without hints that has the same kind and another
declaration is a rival of every side that stands for the one it points back
to. -/
theorem rivals_of_held (cleared : scope.Cleared own)
    (held : side.Held scope.entities) {target : Entity}
    (registered : scope.entities.find? target.name = some target)
    (heldOther : other.Held scope.entities)
    (place : other.place = ⟨target.name, name⟩)
    (kind : other.relation.kind = side.relation.kind)
    (different : other.property.origin ≠ side.property.origin)
    {back lower : String}
    (backward : scope.directory.meaning other.relation.target.declared =
      .ok back)
    (below : Descends scope.entities.base? lower side.entity.name)
    (within : Descends scope.entities.base? lower back) :
    scope.Rivals side target other back := by
  have entity : other.entity = target := by
    have here := heldOther.entity
    rw [show other.entity.name = target.name from congrArg Place.entity place,
      registered] at here
    exact (Option.some.inj here).symm
  have known : back ∈ scope.entities.keys :=
    cleared.names back (Directory.mem_names_of_meaning backward)
  refine ⟨entity, ?_, heldOther.relation, kind, ?_, ?_, ?_⟩
  · have found := heldOther.property
    rw [Side.place, Entity.place, Entities.property?, heldOther.entity] at found
    rw [← entity]
    exact (Table.find?_eq_some found).1
  · intro same
    have equal := heldOther.property
    rw [same, held.property] at equal
    exact different (congrArg Property.origin (Option.some.inj equal).symm)
  · exact Scope.aim_of_means cleared.dropped backward
  · exact cleared.merges.isRelated_of_descends known
      (Table.mem_keys_of_find? held.entity) within below

/-- Where a side names an inverse, and the target holds a relation of this name
that has the reciprocal kind, no hints and another declaration, and points
back, that relation is told not to own and who owns. -/
theorem proposed_of_inversedBy (cleared : scope.Cleared own)
    (held : side.Held scope.entities)
    (agreed : side.relation.sides.Agreed (scope.Proposed side.place) final)
    (inverted : final.inversedBy = some name) {target back : String}
    (means : scope.directory.meaning side.relation.target.declared =
      .ok target)
    (heldOther : other.Held scope.entities)
    (place : other.place = ⟨target, name⟩)
    (unhinted : other.relation.sides.isUnhinted = true)
    (kind : other.relation.kind = side.relation.kind.reciprocal)
    (different : other.property.origin ≠ side.property.origin)
    (backward : scope.directory.meaning other.relation.target.declared =
      .ok back)
    (within : Descends scope.entities.base? side.entity.name back) :
    scope.Proposed other.place (sidesNaming false (some side.property.name)) := by
  have owner := (cleared.settled held agreed).owner_of_inversedBy inverted
  rcases cleared.pairs held with
    ⟨first, found, heldFirst, property, relation, copy, pairs⟩
  have decided := mem_decisions_of_decided heldFirst
  have target_eq : found.name = target := by
    have same := pairs.means
    rw [relation, means] at same
    exact (Except.ok.inj same).symm
  subst target_eq
  have owns : ∀ {claim : Bool} {text : Option String} {source : Place},
      settle first claim text source ∈ scope.decisions → claim = true :=
    fun member => (owner_of_settle agreed copy member).symm.trans owner
  have registered := pairs.registered
  have paired := pairs.paired
  have rival : (first.relation.kind = .oneToOne ∨
      first.relation.kind = .manyToMany) →
        scope.Rivals first found other back := by
    intro single
    refine cleared.rivals_of_held heldFirst registered heldOther place ?_ ?_
      backward copy.below within
    · rw [kind, ← relation]
      rcases single with single | single <;> rw [single] <;> rfl
    · rw [property]
      exact different
  generalize scope.decided first = decisions at decided paired
  cases paired with
  | unheard hint text hints silence =>
      exact absurd silence (cleared.reply_ne_silent registered first hint text)
  | silent unhinted' single =>
      -- The other side of a many-to-one relation has a hint.
      rw [relation] at unhinted' single
      rcases single with single | single
      · rw [single] at kind
        exact absurd (mappedBy_of_isUnhinted unhinted).1
          ((cleared.lawful_side heldOther).oneToMany kind)
      · exact absurd (mappedBy_of_isUnhinted unhinted').1
          ((cleared.lawful_side held).oneToMany single)
  | hinted hint text answer back' hints answers =>
      cases hint with
      | mappedBy =>
          have claim := owns (decided _ (List.mem_cons_self ..))
          simp at claim
      | inversedBy =>
          rw [relation] at hints
          have told := (agreed.inversedBy text).mpr (Or.inl hints)
          rw [inverted] at told
          cases told
          rcases answers.held registered with ⟨-, at_place⟩
          have member := decided _
            (List.mem_cons_of_mem _ (List.mem_cons_self ..))
          have given := proposed_of_settle member (.refl _ _)
          rw [at_place, ← place, property] at given
          exact given
  | answered answer back' claim unhinted' single rivals answered =>
      -- The answer bears the name that is entered, so it is the other side,
      -- which has no hints.
      have member := decided _ (List.mem_cons_self ..)
      rcases owns member
      have named := inversedBy_of_settle agreed copy member
      rw [inverted] at named
      rcases rivals.held registered with ⟨heldAnswer, at_place⟩
      rw [← Option.some.inj named, ← place] at at_place
      have same := heldAnswer.eq_of_place_eq heldOther at_place
      subst same
      rcases mappedBy_of_isUnhinted unhinted with ⟨unmapped, uninverted⟩
      rw [Side.answer, unmapped, uninverted] at answered
      simp at answered
  | alone unhinted' single lonely =>
      have hints := lonely other (rival single).mem_rivals
      rw [unhinted] at hints
      cases hints
  | added text unhinted' single lonely concrete naming fresh =>
      have hints := lonely other (rival (Or.inr single)).mem_rivals
      rw [unhinted] at hints
      cases hints
  | between answer back' claim unhinted' single rivals otherUnhinted only claims =>
      have same := only other (rival single).mem_rivals unhinted
      subst same
      rcases owns (decided _ (List.mem_cons_self ..))
      have member := decided _
        (List.mem_cons_of_mem _ (List.mem_cons_self ..))
      have given := proposed_of_settle member (.refl _ _)
      rw [property] at given
      exact given

/-- When a relation that the target holds under the name of the inverse, of the
reciprocal kind and pointing back, names the side as its owner. -/
theorem names_iff (cleared : scope.Cleared own)
    (held : side.Held scope.entities)
    (agreed : side.relation.sides.Agreed (scope.Proposed side.place) final)
    (inverted : final.inversedBy = some name) {target back : String}
    (means : scope.directory.meaning side.relation.target.declared =
      .ok target)
    (heldOther : other.Held scope.entities)
    (place : other.place = ⟨target, name⟩) {result : Sides}
    (agreedOther :
      other.relation.sides.Agreed (scope.Proposed other.place) result)
    (kind : other.relation.kind = side.relation.kind.reciprocal)
    (backward : scope.directory.meaning other.relation.target.declared =
      .ok back)
    (within : Descends scope.entities.base? side.entity.name back) :
    (result.owner = false ∧ result.mappedBy = some side.property.name) ↔
      other.relation.sides.mappedBy = some side.property.name ∨
        other.relation.sides.isUnhinted = true ∧
          other.property.origin ≠ side.property.origin := by
  have settled := cleared.settled heldOther agreedOther
  constructor
  · rintro ⟨owner, mapped⟩
    cases hint : other.relation.sides.mappedBy with
    | some text =>
        have told := (agreedOther.mappedBy text).mpr (Or.inl hint)
        exact Or.inl (told.symm.trans mapped)
    | none =>
        have uninverted : other.relation.sides.inversedBy = none := by
          refine Option.eq_none_iff_forall_ne_some.mpr fun text named => ?_
          have told := (agreedOther.inversedBy text).mpr (Or.inl named)
          rw [settled.owner_of_inversedBy told] at owner
          cases owner
        refine Or.inr ⟨by simp [Sides.isUnhinted, hint, uninverted], ?_⟩
        intro same
        have owns := (cleared.settled held agreed).owner_of_inversedBy inverted
        have relation : side.relation = other.relation := by
          have equal := cleared.merges.eq_of_origin_eq heldOther.property
            held.property same
          have found := heldOther.relation
          rw [equal, held.relation] at found
          exact Option.some.inj found
        have single : side.relation.kind ≠ .manyToOne := by
          intro many
          rw [← relation, many] at kind
          cases kind
        rw [cleared.owner_eq_of_origin_eq held heldOther same.symm single
          agreed agreedOther, owner] at owns
        cases owns
  · rintro (hint | ⟨unhinted, different⟩)
    · have told := (agreedOther.mappedBy _).mpr (Or.inl hint)
      exact ⟨settled.owner_of_mappedBy told, told⟩
    · have given := cleared.proposed_of_inversedBy held agreed inverted means
        heldOther place unhinted kind different backward within
      have told := (agreedOther.mappedBy _).mpr (Or.inr ⟨_, given, rfl⟩)
      exact ⟨settled.owner_of_mappedBy told, told⟩

end Scope.Cleared

end Pairing

end EntityCatalog
