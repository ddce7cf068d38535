import EntityCatalog.Proofs.Relation.Ownership

/-!
# Sides that face each other

Without bases a relation is paired for the entity that holds it and for nobody
else, and a relation points back at an entity only if it points at that very
entity.  Two sides then face each other (`Scope.Faces`): each points at the
entity of the other one and comes to name it, and one of them owns.  A side that
comes to name another property faces it, or an inverse was added for it
(`Cleared.faces_of_reciprocalName?`).
-/

namespace EntityCatalog

/-! ## Entities without bases -/

namespace Entities

/-- No entity extends another one. -/
def Flat (entities : Entities) : Prop :=
  ∀ entity, entities.base? entity = none

namespace Flat

variable {entities : Entities} {left right : String}

theorem eq_of_isWithin (flat : entities.Flat)
    (within : entities.isWithin left right = true) : left = right :=
  (descends_of_mem_lineage (of_decide_eq_true within)).eq_of_rootless
    (flat left)

theorem eq_of_isRelated (flat : entities.Flat)
    (related : entities.isRelated left right = true) : left = right := by
  rcases Bool.or_eq_true_iff.mp related with within | within
  · exact flat.eq_of_isWithin within
  · exact (flat.eq_of_isWithin within).symm

theorem eq_of_copyOf (flat : entities.Flat) {copy place : Place}
    (copies : entities.CopyOf copy place) : copy = place :=
  congrArg₂ Place.mk (copies.below.eq_of_rootless (flat _)) copies.name

end Flat

end Entities

theorem Entities.Forest.isRelated_self {entities : Entities}
    (forest : entities.Forest) {entity : String}
    (registered : entity ∈ entities.keys) :
    entities.isRelated entity entity = true := by
  rw [isRelated, Bool.or_self, forest.isWithin_iff registered]
  exact .refl entity

namespace Pairing

variable {scope : Scope} {own : Place → Option Property}

/-- A side comes to own or not, and to name the property on the other side. -/
def Scope.Settles (scope : Scope) (side : Side) (owner : Bool)
    (name : String) : Prop :=
  ∀ final, side.relation.sides.Agreed (scope.Proposed side.place) final →
    final.owner = owner ∧ final.reciprocalName? = some name

/-- Two sides point at each other's entities and come to name each other; the
first one owns or the second one does. -/
structure Scope.Faces (scope : Scope) (side : Side) (owner : Bool)
    (other : Side) : Prop where
  held : side.Held scope.entities
  heldOther : other.Held scope.entities
  forward : scope.directory.meaning side.relation.target.declared =
    .ok other.entity.name
  backward : scope.directory.meaning other.relation.target.declared =
    .ok side.entity.name
  settles : scope.Settles side owner other.property.name
  settlesOther : scope.Settles other (!owner) side.property.name

theorem Scope.Faces.symm {side other : Side} {owner : Bool}
    (faces : scope.Faces side owner other) :
    scope.Faces other (!owner) side where
  held := faces.heldOther
  heldOther := faces.held
  forward := faces.backward
  backward := faces.forward
  settles := faces.settlesOther
  settlesOther := by
    rw [Bool.not_not]
    exact faces.settles

/-- A candidate that answers a relation has a hint that names it, and owns as
the hint says. -/
theorem exists_hint_of_answer {candidate : Side} {name : String} {owner : Bool}
    (answer : candidate.answer name = some owner) :
    ∃ hint : Hint, hint.slot candidate.relation.sides = some name ∧
      (!owner) = decide (hint = .inversedBy) := by
  unfold Side.answer at answer
  split at answer
  · rename_i mapped
    cases answer
    exact ⟨.mappedBy, mapped, rfl⟩
  · split at answer
    · rename_i inverted
      cases answer
      exact ⟨.inversedBy, inverted, rfl⟩
    · cases answer

/-- A relation of the same kind that points at the entity of a side could be its
other side. -/
theorem Scope.Coherent.mem_rivals (coherent : scope.Coherent own)
    (dropped : scope.invalid = []) {side other : Side}
    (held : side.Held scope.entities) (heldOther : other.Held scope.entities)
    (kind : other.relation.kind = side.relation.kind)
    (different : other.place ≠ side.place)
    (backward : scope.directory.meaning other.relation.target.declared =
      .ok side.entity.name) :
    other ∈ scope.rivals side other.entity := by
  have registered := Table.mem_keys_of_find? held.entity
  exact Scope.Rivals.mem_rivals {
    entity := rfl
    holds := (Table.find?_eq_some heldOther.holds).1
    relation := heldOther.relation
    kind := kind
    different := different
    aim := Scope.aim_of_means dropped backward
    related := coherent.merges.toForest.isRelated_self registered }

namespace Scope.Cleared

variable {side other : Side} {final : Sides} {name : String}

/-! ## What a side comes to -/

/-- A hint is kept. -/
theorem settles_of_hint (cleared : scope.Cleared own)
    (held : side.Held scope.entities) {hint : Hint}
    (hints : hint.slot side.relation.sides = some name) :
    scope.Settles side (hint = .inversedBy) name := by
  intro final agreed
  have settled := cleared.settled held agreed
  cases hint with
  | mappedBy =>
      have mapped := (agreed.mappedBy name).mpr (Or.inl hints)
      refine ⟨settled.owner_of_mappedBy mapped, ?_⟩
      rw [Sides.reciprocalName?, mapped]
      rfl
  | inversedBy =>
      have inverted := (agreed.inversedBy name).mpr (Or.inl hints)
      have owner := settled.owner_of_inversedBy inverted
      refine ⟨owner, ?_⟩
      rw [Sides.reciprocalName?, settled.owner.mp owner, inverted]
      rfl

/-- What is decided about a side comes to be. -/
theorem settles_of_told (cleared : scope.Cleared own)
    (held : side.Held scope.entities) {owner : Bool} {source : Place}
    (told : settle side owner (some name) source ∈ scope.decisions) :
    scope.Settles side owner name := by
  intro final agreed
  have settled := cleared.settled held agreed
  have owns := owner_of_settle agreed (.refl _ _) told
  refine ⟨owns, ?_⟩
  cases owner with
  | true =>
      rw [Sides.reciprocalName?, settled.owner.mp owns,
        inversedBy_of_settle agreed (.refl _ _) told]
      rfl
  | false =>
      rw [Sides.reciprocalName?,
        mappedBy_of_settle agreed (.refl _ _) told]
      rfl

/-- The name that a side comes to is that of a hint, or was proposed. -/
theorem hint_or_proposed (cleared : scope.Cleared own)
    (held : side.Held scope.entities)
    (agreed : side.relation.sides.Agreed (scope.Proposed side.place) final)
    (named : final.reciprocalName? = some name) :
    (∃ hint : Hint, hint.slot side.relation.sides = some name) ∨
      scope.Proposed side.place (sidesNaming final.owner (some name)) := by
  have settled := cleared.settled held agreed
  cases owner : final.owner with
  | true =>
      rw [Sides.reciprocalName?, settled.owner.mp owner] at named
      rcases (agreed.inversedBy name).mp named with hints | ⟨sides, given, here⟩
      · exact Or.inl ⟨.inversedBy, hints⟩
      · rcases cleared.shape_of_agreed held agreed given with ⟨text, rfl, -⟩
        rw [owner] at given here
        rw [show text = some name from here] at given
        exact Or.inr given
  | false =>
      have uninverted := settled.inverse owner
      rw [Sides.reciprocalName?, uninverted] at named
      have mapped : final.mappedBy = some name := by
        cases mappedBy : final.mappedBy <;> simp_all
      rcases (agreed.mappedBy name).mp mapped with hints | ⟨sides, given, here⟩
      · exact Or.inl ⟨.mappedBy, hints⟩
      · rcases cleared.shape_of_agreed held agreed given with ⟨text, rfl, -⟩
        rw [owner] at given here
        rw [show text = some name from here] at given
        exact Or.inr given

/-! ## Pairing without bases -/

section

variable (cleared : scope.Cleared own) (flat : scope.entities.Flat)

include cleared flat

theorem pairs_of_flat (held : side.Held scope.entities) :
    ∃ target, scope.Pairs side target := by
  rcases cleared.pairs held with ⟨first, target, heldFirst, -, -, copy, pairs⟩
  have same := held.eq_of_place_eq heldFirst (flat.eq_of_copyOf copy)
  exact ⟨target, same ▸ pairs⟩

theorem means_of_aim (heldOther : other.Held scope.entities) {found : String}
    (aim : scope.aim other.property other.relation = some found)
    (related : scope.entities.isRelated found side.entity.name = true) :
    scope.directory.meaning other.relation.target.declared =
      .ok side.entity.name := by
  rcases cleared.means heldOther with ⟨target, means, -⟩
  rw [Scope.aim_of_means cleared.dropped means] at aim
  rw [means, Option.some.inj aim, flat.eq_of_isRelated related]

variable {target : Entity} (held : side.Held scope.entities)
  (pairs : scope.Pairs side target)

include held pairs

/-- A side faces what its hint names. -/
theorem faces_of_hinted {hint : Hint} {found : String}
    (hints : hint.slot side.relation.sides = some name)
    (answers : scope.Answers side target hint name other found)
    (told : settle other (!decide (hint = .inversedBy))
      (some side.property.name) side.place ∈ scope.decisions) :
    scope.Faces side (hint = .inversedBy) other ∧
      other.property.name = name := by
  rcases answers.held pairs.registered with ⟨heldOther, place⟩
  have named : other.property.name = name := congrArg Place.property place
  refine ⟨⟨held, heldOther, ?_, ?_, ?_, ?_⟩, named⟩
  · rw [answers.entity]
    exact pairs.means
  · exact cleared.means_of_aim flat heldOther answers.aim answers.related
  · rw [named]
    exact cleared.settles_of_hint held hints
  · exact cleared.settles_of_told heldOther told

/-- A side faces the rival that comes to name it, if it comes to name the
rival. -/
theorem faces_of_rival {found : String} {owner : Bool}
    (rival : scope.Rivals side target other found)
    (settles : scope.Settles side owner other.property.name)
    (settlesOther : scope.Settles other (!owner) side.property.name) :
    scope.Faces side owner other := by
  have heldOther := (rival.held pairs.registered).1
  refine ⟨held, heldOther, ?_, ?_, settles, settlesOther⟩
  · rw [rival.entity]
    exact pairs.means
  · exact cleared.means_of_aim flat heldOther rival.aim rival.related

end

/-- A side that looks for another one and comes to name none, has no possible
other side without hints and gets no inverse. -/
theorem alone_of_unhinted (cleared : scope.Cleared own)
    (flat : scope.entities.Flat) (held : side.Held scope.entities)
    (agreed : side.relation.sides.Agreed (scope.Proposed side.place) final)
    (unhinted : final.isUnhinted = true)
    (kind : side.relation.kind = .oneToOne ∨
      side.relation.kind = .manyToMany) :
    ∃ target, scope.Pairs side target ∧
      (∀ rival ∈ scope.rivals side target,
        rival.relation.sides.isUnhinted = false) ∧
      scope.adds side = false := by
  rcases cleared.pairs_of_flat flat held with ⟨target, pairs⟩
  have unsettled : ∀ owner name, ¬ scope.Settles side owner name := by
    intro owner name settles
    have named := (settles final agreed).2
    rcases mappedBy_of_isUnhinted unhinted with ⟨unmapped, uninverted⟩
    rw [Sides.reciprocalName?, unmapped, uninverted] at named
    cases named
  have untold : ∀ owner name source,
      settle side owner (some name) source ∉ scope.decided side :=
    fun owner name source told => unsettled owner name
      (cleared.settles_of_told held
        (mem_decisions_iff.mpr ⟨side, held, told⟩))
  have paired := pairs.paired
  generalize scope.decided side = decisions at untold paired
  cases paired with
  | hinted hint name other found hints answers =>
      exact (unsettled _ _ (cleared.settles_of_hint held hints)).elim
  | unheard hint name hints =>
      exact (unsettled _ _ (cleared.settles_of_hint held hints)).elim
  | silent unhinted others =>
      rcases kind with kind | kind <;> rcases others with other | other <;>
        cases kind.symm.trans other
  | answered other found owner unhinted kind rival answer =>
      exact absurd (List.mem_cons_self ..) (untold _ _ _)
  | alone unhinted kind lonely content =>
      exact ⟨target, pairs, lonely, content⟩
  | added name unhinted kind lonely concrete naming fresh =>
      exact absurd (List.mem_cons_of_mem _ (List.mem_cons_self ..))
        (untold _ _ _)
  | between other found owner unhinted kind rival also only claim =>
      exact absurd (List.mem_cons_self ..) (untold _ _ _)

/-- A side that is told a name faces a property of this name, or an inverse of
this name is added for it. -/
theorem faces_of_told (cleared : scope.Cleared own)
    (flat : scope.entities.Flat) (held : side.Held scope.entities)
    {owner : Bool}
    (proposed : scope.Proposed side.place (sidesNaming owner (some name))) :
    (∃ other, scope.Faces side owner other ∧ other.property.name = name) ∨
      ∃ synthesis ∈ syntheses scope.decisions, owner = true ∧
        synthesis.name = name ∧ synthesis.source = side.place ∧
        scope.directory.meaning side.relation.target.declared =
          .ok synthesis.holder := by
  rcases proposed with ⟨settlement, member, copy, sides⟩
  have here := flat.eq_of_copyOf copy
  rcases cleared.pairs_of_mem_decisions member with
    ⟨first, target, heldFirst, pairs, decided⟩
  have known := mem_decisions_of_decided heldFirst
  -- A decision with these names and this place is about the side.
  have about : ∀ {other : Side} {claim : Bool} {text : Option String}
      {source : Place}, other.Held scope.entities →
        .settle settlement = settle other claim text source →
          other = side ∧ claim = owner ∧ text = some name := by
    intro other claim text source heldOther equal
    cases equal
    refine ⟨heldOther.eq_of_place_eq held here.symm, ?_⟩
    cases claim <;> cases owner <;> simp_all [sidesNaming]
  have paired := pairs.paired
  generalize scope.decided first = decisions at decided known paired
  cases paired with
  | unheard | silent => cases decided
  | hinted hint text other found hints answers =>
      rcases List.mem_pair.mp decided with equal | equal
      · cases (about heldFirst equal).2.2
      · have told := known _ (List.mem_cons_of_mem _ (List.mem_cons_self ..))
        have faces :=
          (cleared.faces_of_hinted flat heldFirst pairs hints answers told).1
        rcases about (answers.held pairs.registered).1 equal with
          ⟨rfl, rfl, named⟩
        exact Or.inl ⟨first, faces.symm, Option.some.inj named⟩
  | answered other found claim unhinted kind rival answer =>
      have told := known _ (List.mem_cons_self ..)
      rcases List.mem_singleton.mp decided with equal
      rcases about heldFirst equal with ⟨rfl, rfl, named⟩
      rcases exists_hint_of_answer answer with ⟨hint, hints, owns⟩
      have heldOther := (rival.held pairs.registered).1
      refine Or.inl ⟨other, cleared.faces_of_rival flat held pairs rival
        (cleared.settles_of_told held told) ?_, Option.some.inj named⟩
      rw [owns]
      exact cleared.settles_of_hint heldOther hints
  | alone unhinted kind lonely =>
      rcases List.mem_singleton.mp decided with equal
      cases (about heldFirst equal).2.2
  | added text unhinted kind lonely concrete naming fresh =>
      have made := known (.synthesize ⟨target.name, text, first.place⟩)
        (by simp)
      rcases List.mem_cons.mp decided with equal | decided
      · cases (about heldFirst equal).2.2
      · rcases List.mem_pair.mp decided with equal | equal
        · rcases about heldFirst equal with ⟨rfl, rfl, named⟩
          exact Or.inr ⟨_, mem_syntheses_iff.mpr made, rfl,
            Option.some.inj named, rfl, pairs.means⟩
        · cases equal
  | between other found claim unhinted kind rival otherUnhinted only claims =>
      have heldOther := (rival.held pairs.registered).1
      have faces := cleared.faces_of_rival flat heldFirst pairs rival
        (cleared.settles_of_told heldFirst (known _ (List.mem_cons_self ..)))
        (cleared.settles_of_told heldOther
          (known _ (List.mem_cons_of_mem _ (List.mem_cons_self ..))))
      rcases List.mem_pair.mp decided with equal | equal
      · rcases about heldFirst equal with ⟨rfl, rfl, named⟩
        exact Or.inl ⟨other, faces, Option.some.inj named⟩
      · rcases about heldOther equal with ⟨rfl, rfl, named⟩
        exact Or.inl ⟨first, faces.symm, Option.some.inj named⟩

/-- A side that comes to name a property faces it, or it is an inverse that is
added for the side. -/
theorem faces_of_reciprocalName? (cleared : scope.Cleared own)
    (flat : scope.entities.Flat) (held : side.Held scope.entities)
    (agreed : side.relation.sides.Agreed (scope.Proposed side.place) final)
    (named : final.reciprocalName? = some name) :
    (∃ other, scope.Faces side final.owner other ∧
        other.property.name = name) ∨
      ∃ synthesis ∈ syntheses scope.decisions, final.owner = true ∧
        synthesis.name = name ∧ synthesis.source = side.place ∧
        scope.directory.meaning side.relation.target.declared =
          .ok synthesis.holder := by
  rcases cleared.hint_or_proposed held agreed named with
    ⟨hint, hints⟩ | proposed
  · left
    rcases cleared.pairs_of_flat flat held with ⟨target, pairs⟩
    have known : ∀ decision ∈ scope.decided side,
        decision ∈ scope.decisions :=
      fun decision inside => mem_decisions_iff.mpr ⟨side, held, inside⟩
    rcases cleared.hinted_of_slot pairs.registered (cleared.lawful_side held)
      hints pairs.paired with ⟨other, found, answers, decided⟩
    rw [decided] at known
    rcases cleared.faces_of_hinted flat held pairs hints answers
      (known _ (List.mem_cons_of_mem _ (List.mem_cons_self ..))) with
      ⟨faces, here⟩
    rcases faces.settles final agreed with ⟨owner, alike⟩
    rw [named] at alike
    rw [owner]
    exact ⟨other, faces, (Option.some.inj alike).symm⟩
  · exact cleared.faces_of_told flat held proposed

end Scope.Cleared

end Pairing

end EntityCatalog
