import EntityCatalog.Proofs.Relation.Facing

/-!
# Relations that are declared from both sides

Where each side that names another one is named by it, in the way that fits,
there is nothing left to decide (`Scope.Matched`): relations without hints have
no other side, and no inverse is missing.  Pairing then finds nothing wrong and
adds nothing (`Matched.cleared`, `Matched.syntheses_eq_nil`), and every side
keeps its names and owns exactly if it names no owner (`Matched.agreed`).
-/

namespace EntityCatalog

/-- What the other side of a relation says of it. -/
def Hint.across : Hint → Hint
  | .mappedBy => .inversedBy
  | .inversedBy => .mappedBy

@[simp]
theorem Hint.across_across (hint : Hint) : hint.across.across = hint := by
  cases hint <;> rfl

theorem Hint.decide_across (hint : Hint) :
    decide (hint.across = .inversedBy) = !decide (hint = .inversedBy) := by
  cases hint <;> rfl

/-- Sides that are not without hints give one. -/
theorem exists_hint_of_not_isUnhinted {sides : Sides}
    (hinted : sides.isUnhinted = false) :
    ∃ (hint : Hint) (name : String), hint.slot sides = some name := by
  cases mapped : sides.mappedBy with
  | some name => exact ⟨.mappedBy, name, mapped⟩
  | none =>
      cases inverted : sides.inversedBy with
      | some name => exact ⟨.inversedBy, name, inverted⟩
      | none =>
          rw [Sides.isUnhinted, mapped, inverted] at hinted
          cases hinted

/-- A proposal that says of sides what they say themselves. -/
structure Sides.Repeats (proposal sides : Sides) : Prop where
  owner : proposal.owner = sides.mappedBy.isNone
  mappedBy : ∀ name, proposal.mappedBy = some name → sides.mappedBy = some name
  inversedBy : ∀ name, proposal.inversedBy = some name →
    sides.inversedBy = some name

/-- The sides, owning exactly if they name no owner. -/
def Sides.resolved (sides : Sides) : Sides :=
  { sides with owner := sides.mappedBy.isNone }

/-- Proposals that say nothing new only decide on ownership. -/
theorem Sides.agreed_of_repeats {sides : Sides} {proposed : Sides → Prop}
    (repeats : ∀ proposal, proposed proposal → proposal.Repeats sides)
    (untouched : (∀ proposal, ¬ proposed proposal) →
      sides.mappedBy.isNone = sides.owner) :
    sides.Agreed proposed sides.resolved where
  owner := fun proposal here => (repeats proposal here).owner.symm
  untouched := untouched
  mappedBy := by
    intro name
    refine ⟨Or.inl, ?_⟩
    rintro (given | ⟨proposal, here, named⟩)
    · exact given
    · exact (repeats proposal here).mappedBy name named
  inversedBy := by
    intro name
    refine ⟨Or.inl, ?_⟩
    rintro (given | ⟨proposal, here, named⟩)
    · exact given
    · exact (repeats proposal here).inversedBy name named

namespace Pairing

variable {scope : Scope} {own : Place → Option Property} {side other : Side}
  {hint : Hint} {target : Entity} {name : String}

/-- Two sides that point at each other's entities are declared to be the other
side of each other. -/
structure Scope.Meets (scope : Scope) (side : Side) (hint : Hint)
    (other : Side) : Prop where
  held : side.Held scope.entities
  heldOther : other.Held scope.entities
  forward : scope.directory.meaning side.relation.target.declared =
    .ok other.entity.name
  backward : scope.directory.meaning other.relation.target.declared =
    .ok side.entity.name
  kind : other.relation.kind = side.relation.kind.reciprocal
  names : hint.slot side.relation.sides = some other.property.name
  namesOther : hint.across.slot other.relation.sides =
    some side.property.name

theorem Scope.Meets.symm (meets : scope.Meets side hint other) :
    scope.Meets other hint.across side where
  held := meets.heldOther
  heldOther := meets.held
  forward := meets.backward
  backward := meets.forward
  kind := by rw [meets.kind, RelationKind.reciprocal_reciprocal]
  names := meets.namesOther
  namesOther := by rw [Hint.across_across, meets.names]

/-- A scope without bases in which relations are declared from both sides. -/
structure Scope.Matched (scope : Scope) (own : Place → Option Property) : Prop
    extends Scope.Coherent scope own where
  flat : scope.entities.Flat
  dropped : scope.invalid = []
  aimed : ∀ side : Side, side.Held scope.entities → ∃ target : Entity,
    scope.directory.meaning side.relation.target.declared = .ok target.name ∧
      scope.entities.find? target.name = some target
  unclaimed : ∀ side : Side, side.Held scope.entities →
    side.relation.ownerHint = none
  meets : ∀ side : Side, side.Held scope.entities → ∀ (hint : Hint) name,
    hint.slot side.relation.sides = some name →
      ∃ other, scope.Meets side hint other
  lonely : ∀ (side : Side) (target : Entity), side.Held scope.entities →
    scope.directory.meaning side.relation.target.declared = .ok target.name →
      scope.entities.find? target.name = some target →
        side.relation.sides.isUnhinted = true →
          side.relation.kind = .oneToOne ∨ side.relation.kind = .manyToMany →
            ∀ rival ∈ scope.rivals side target,
              rival.relation.sides.isUnhinted = false
  content : ∀ side : Side, side.Held scope.entities →
    side.relation.sides.isUnhinted = true → scope.adds side = false

/-! ## Verdicts -/

/-- What is aimed at is meant. -/
theorem means_of_aim {property : Property} {relation : Relation}
    {found : String} (aim : scope.aim property relation = some found) :
    scope.directory.meaning relation.target.declared = .ok found := by
  unfold Scope.aim at aim
  split at aim
  · cases aim
  · exact toOption_eq_some_iff.mp aim

/-- A side with one hint is paired by that hint. -/
theorem verdict_of_hint
    (lawful : side.relation.sides.Lawful side.relation.kind)
    (hints : hint.slot side.relation.sides = some name) (target : Entity) :
    scope.verdict side target = scope.hintedVerdict side target hint name := by
  cases hint with
  | mappedBy =>
      rw [Scope.verdict, show side.relation.sides.mappedBy = _ from hints]
  | inversedBy =>
      have inverted : side.relation.sides.inversedBy = some name := hints
      have unmapped : side.relation.sides.mappedBy = none := by
        rcases lawful.oneHint with unmapped | uninverted
        · exact unmapped
        · rw [inverted] at uninverted
          cases uninverted
      rw [Scope.verdict, unmapped, inverted]

/-- A side that names another one in return has nothing against its hint. -/
theorem objection_of_across {relation : Relation}
    (lawful : relation.sides.Lawful relation.kind)
    (unclaimed : relation.ownerHint = none)
    (names : hint.across.slot relation.sides = some name) :
    objection hint name relation = none := by
  have only := lawful.oneHint
  cases hint with
  | mappedBy =>
      have inverted : relation.sides.inversedBy = some name := names
      simp only [inverted, reduceCtorEq, or_false] at only
      simp [objection, only, inverted, unclaimed]
  | inversedBy =>
      have mapped : relation.sides.mappedBy = some name := names
      simp only [mapped, reduceCtorEq, false_or] at only
      simp [objection, only, mapped, unclaimed]

/-- Where no entity extends another one, every relation is paired on its own
account. -/
theorem concerns_of_flat (flat : scope.entities.Flat)
    (dropped : scope.invalid = []) (held : side.Held scope.entities) :
    scope.concerns side = true := by
  have baseless : side.entity.base = none := held.base? ▸ flat side.entity.name
  simp [Scope.concerns, Scope.pairedByBase, dropped, baseless]

namespace Scope.Matched

variable (matched : scope.Matched own)

include matched

theorem decided_eq (held : side.Held scope.entities) :
    scope.decided side = (scope.ruling side).decisions :=
  if_pos (concerns_of_flat matched.flat matched.dropped held)

/-- A hint leads to the side that it names. -/
theorem reply_of_meets (meets : scope.Meets side hint other) :
    scope.reply side other.entity hint other.property.name = .found other := by
  have aims : scope.aim other.property other.relation =
      some side.entity.name :=
    Scope.aim_of_means matched.dropped meets.backward
  have back := matched.merges.toForest.isRelated_self
    (Table.mem_keys_of_find? meets.held.entity)
  rw [Scope.reply, meets.heldOther.holds]
  simp only [meets.heldOther.relation, meets.kind, if_true, aims, back]

/-- Both sides are settled as they are declared. -/
theorem ruling_of_meets (meets : scope.Meets side hint other) :
    scope.ruling side = { decisions := [
      settle side (hint = .inversedBy) none other.place,
      settle other (!decide (hint = .inversedBy)) (some side.property.name)
        side.place] } := by
  have lawful := matched.lawful_side meets.held
  have agreed := objection_of_across (matched.lawful_side meets.heldOther)
    (matched.unclaimed other meets.heldOther) meets.namesOther
  rw [Scope.ruling_of_means meets.forward meets.heldOther.entity,
    verdict_of_hint lawful meets.names, Scope.hintedVerdict,
    matched.reply_of_meets meets]
  dsimp only
  rw [agreed]

/-- Nobody names a relation that has no hints. -/
theorem answer_eq_none (held : side.Held scope.entities)
    (registered : scope.entities.find? target.name = some target)
    (unhinted : side.relation.sides.isUnhinted = true) {rival : Side}
    (member : rival ∈ scope.rivals side target) :
    rival.answer side.property.name = none := by
  refine Option.eq_none_iff_forall_ne_some.mpr fun owner answer => ?_
  rcases Scope.rivals_of_mem member with ⟨found, rivals⟩
  rcases exists_hint_of_answer answer with ⟨hint, names, -⟩
  rcases matched.meets rival (rivals.held registered).1 hint _ names with
    ⟨other, meets⟩
  -- What the rival names is the relation itself, which would name the rival.
  have same : other.place = side.place := by
    refine congrArg₂ Place.mk ?_
      (Option.some.inj (meets.names.symm.trans names))
    have forward := meets.forward
    rw [means_of_aim rivals.aim, Except.ok.injEq] at forward
    exact forward.symm.trans (matched.flat.eq_of_isRelated rivals.related)
  have back := meets.namesOther
  rw [meets.heldOther.eq_of_place_eq held same,
    slot_of_isUnhinted unhinted] at back
  cases back

/-- A relation that looks for another side in vain owns. -/
theorem ruling_of_lonely (held : side.Held scope.entities)
    (unhinted : side.relation.sides.isUnhinted = true)
    (kind : side.relation.kind = .oneToOne ∨
      side.relation.kind = .manyToMany) :
    scope.ruling side =
      { decisions := [settle side true none side.place] } := by
  rcases matched.aimed side held with ⟨target, means, registered⟩
  have unanswered : (scope.rivals side target).findSome? (fun candidate =>
      (candidate.answer side.property.name).map fun owner =>
        (candidate, owner)) = none := by
    refine List.findSome?_eq_none_iff.mpr fun rival member => ?_
    rw [matched.answer_eq_none held registered unhinted member]
    rfl
  have unrivalled : (scope.rivals side target).filter
      (·.relation.sides.isUnhinted) = [] := by
    refine List.filter_eq_nil_iff.mpr fun rival member => ?_
    rw [matched.lonely side target held means registered unhinted kind rival
      member]
    exact Bool.false_ne_true
  have content := matched.content side held unhinted
  unfold Scope.adds at content
  rw [Scope.ruling_of_means means registered,
    Scope.verdict_of_unhinted unhinted kind, Scope.decideUnhinted]
  simp only [unanswered, unrivalled]
  rw [Scope.decideAlone, matched.unclaimed side held, if_neg (by simp), content]
  rfl

theorem ruling_of_manyToOne (held : side.Held scope.entities)
    (unhinted : side.relation.sides.isUnhinted = true)
    (kind : side.relation.kind = .manyToOne) :
    scope.ruling side = .silent := by
  rcases matched.aimed side held with ⟨target, means, registered⟩
  rcases mappedBy_of_isUnhinted unhinted with ⟨unmapped, uninverted⟩
  rw [Scope.ruling_of_means means registered, Scope.verdict, unmapped,
    uninverted, kind]

/-- A relation meets its other side, or it has none and looks for none, or it
looks for one in vain. -/
theorem side_cases (held : side.Held scope.entities) :
    (∃ hint other, scope.Meets side hint other) ∨
      side.relation.sides.isUnhinted = true ∧
        (side.relation.kind = .manyToOne ∨
          side.relation.kind = .oneToOne ∨
            side.relation.kind = .manyToMany) := by
  cases unhinted : side.relation.sides.isUnhinted with
  | false =>
      rcases exists_hint_of_not_isUnhinted unhinted with ⟨hint, name, names⟩
      exact Or.inl ⟨hint, matched.meets side held hint name names⟩
  | true =>
      have lawful := matched.lawful_side held
      refine Or.inr ⟨rfl, ?_⟩
      cases kind : side.relation.kind with
      | oneToMany =>
          exact absurd (mappedBy_of_isUnhinted unhinted).1
            (lawful.oneToMany kind)
      | _ => simp

/-! ## What is decided -/

theorem cleared : scope.Cleared own where
  toCoherent := matched.toCoherent
  dropped := matched.dropped
  clears := by
    intro side held _
    rcases matched.side_cases held with
      ⟨hint, other, meets⟩ | ⟨unhinted, kind | kind⟩
    · rw [matched.ruling_of_meets meets]
    · rw [matched.ruling_of_manyToOne held unhinted kind]
      rfl
    · rw [matched.ruling_of_lonely held unhinted kind]

omit matched in
/-- What is decided about a side that meets another one says nothing new. -/
theorem repeats_of_meets
    (lawful : side.relation.sides.Lawful side.relation.kind)
    (meets : scope.Meets side hint other) {name : Option String}
    (given : ∀ text, name = some text → other.property.name = text) :
    (sidesNaming (hint = .inversedBy) name).Repeats side.relation.sides := by
  have only := lawful.oneHint
  have names := meets.names
  cases hint with
  | mappedBy =>
      have mapped : side.relation.sides.mappedBy = some other.property.name :=
        names
      refine ⟨by rw [mapped]; rfl, fun text told => ?_, nofun⟩
      rw [mapped, given text told]
  | inversedBy =>
      have inverted :
          side.relation.sides.inversedBy = some other.property.name :=
        names
      simp only [inverted, reduceCtorEq, or_false] at only
      refine ⟨by rw [only]; rfl, nofun, fun text told => ?_⟩
      rw [inverted, given text told]

/-- Whatever is decided settles a side and says nothing new of it. -/
theorem exists_of_mem_decisions {decision : Decision}
    (member : decision ∈ scope.decisions) :
    ∃ (side : Side) (proposal : Sides) (source : Place),
      side.Held scope.entities ∧
        decision = .settle ⟨side.place, proposal, source⟩ ∧
        proposal.Repeats side.relation.sides := by
  rcases Scope.Cleared.mem_decisions_iff.mp member with ⟨side, held, decided⟩
  have lawful := matched.lawful_side held
  rw [matched.decided_eq held] at decided
  rcases matched.side_cases held with
    ⟨hint, other, meets⟩ | ⟨unhinted, kind | kind⟩
  · rw [matched.ruling_of_meets meets] at decided
    rcases List.mem_pair.mp decided with rfl | rfl
    · exact ⟨side, _, _, held, rfl, repeats_of_meets lawful meets nofun⟩
    · refine ⟨other, _, _, meets.heldOther, rfl, ?_⟩
      rw [← Hint.decide_across]
      exact repeats_of_meets (matched.lawful_side meets.heldOther) meets.symm
        fun text told => Option.some.inj told
  · rw [matched.ruling_of_manyToOne held unhinted kind] at decided
    cases decided
  · rw [matched.ruling_of_lonely held unhinted kind] at decided
    rw [List.mem_singleton.mp decided]
    refine ⟨side, _, _, held, rfl, ?_, nofun, nofun⟩
    rw [(mappedBy_of_isUnhinted unhinted).1]
    rfl

/-- No inverse is added. -/
theorem syntheses_eq_nil : syntheses scope.decisions = [] := by
  refine List.filterMap_eq_nil_iff.mpr fun decision member => ?_
  rcases matched.exists_of_mem_decisions member with ⟨_, _, _, -, rfl, -⟩
  rfl

/-! ## What it comes to -/

theorem repeats_of_proposed (held : side.Held scope.entities)
    {proposal : Sides} (proposed : scope.Proposed side.place proposal) :
    proposal.Repeats side.relation.sides := by
  rcases proposed with ⟨settlement, member, copy, rfl⟩
  rcases matched.exists_of_mem_decisions member with
    ⟨first, proposal, source, heldFirst, equal, repeats⟩
  cases equal
  rw [held.eq_of_place_eq heldFirst (matched.flat.eq_of_copyOf copy)]
  exact repeats

/-- Every side but a many-to-one one without hints is settled. -/
theorem exists_proposed (held : side.Held scope.entities) :
    (∃ proposal, scope.Proposed side.place proposal) ∨
      side.relation.kind = .manyToOne ∧
        side.relation.sides.isUnhinted = true := by
  have proposed : ∀ owner name source,
      settle side owner name source ∈ (scope.ruling side).decisions →
        ∃ proposal, scope.Proposed side.place proposal := by
    intro owner name source told
    rw [← matched.decided_eq held] at told
    exact ⟨_, Scope.Cleared.proposed_of_settle
      (Scope.Cleared.mem_decisions_iff.mpr ⟨side, held, told⟩) (.refl _ _)⟩
  rcases matched.side_cases held with
    ⟨hint, other, meets⟩ | ⟨unhinted, kind | kind⟩
  · refine Or.inl (proposed (hint = .inversedBy) none other.place ?_)
    rw [matched.ruling_of_meets meets]
    exact List.mem_cons_self ..
  · exact Or.inr ⟨kind, unhinted⟩
  · refine Or.inl (proposed true none side.place ?_)
    rw [matched.ruling_of_lonely held unhinted kind]
    exact List.mem_cons_self ..

/-- A side keeps its names and owns exactly if it names no owner. -/
theorem agreed (held : side.Held scope.entities) :
    side.relation.sides.Agreed (scope.Proposed side.place)
      side.relation.sides.resolved := by
  refine Sides.agreed_of_repeats
    (fun _ proposed => matched.repeats_of_proposed held proposed) ?_
  intro nothing
  rcases matched.exists_proposed held with ⟨_, proposed⟩ | ⟨kind, unhinted⟩
  · exact absurd proposed (nothing _)
  · rw [(matched.lawful_side held).owner, kind,
      (mappedBy_of_isUnhinted unhinted).1]
    rfl

/-- All that is decided goes together. -/
theorem accepts : scope.entities.Accepts scope.decisions where
  agreed := by
    intro place property relation held related
    rcases exists_side_of_property? held related with
      ⟨entity, -, heldSide, rfl⟩
    exact ⟨_, matched.agreed heldSide⟩
  free := by
    rw [matched.syntheses_eq_nil]
    exact nofun
  apart := by
    rw [matched.syntheses_eq_nil]
    exact List.Pairwise.nil

end Scope.Matched

end Pairing

end EntityCatalog
