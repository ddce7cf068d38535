import EntityCatalog.Proofs.Relation.Cleared

/-!
# Ownership of relations

Where nothing is wrong, every relation but an unhinted many-to-one one is
settled by a decision of its own, and every decision about it is one that owns
and names at most an inverse, or does not own and names at most an owner.  So
the sides that all decisions agree on own exactly if they name no owner
(`Cleared.settled`), and a side that names an owner is named by that owner
(`Cleared.owner_of_mappedBy`).
-/

namespace EntityCatalog

/-! ## Settled sides -/

/-- The sides of a relation that own exactly if they name no owner, and name an
inverse only if they own. -/
structure Sides.Settled (sides : Sides) : Prop where
  owner : sides.owner = true ↔ sides.mappedBy = none
  inverse : sides.owner = false → sides.inversedBy = none

namespace Sides.Settled

variable {sides : Sides} {name : String}

theorem owner_of_mappedBy (settled : sides.Settled)
    (mapped : sides.mappedBy = some name) : sides.owner = false := by
  rw [Bool.eq_false_iff, Ne, settled.owner, mapped]
  exact nofun

theorem owner_of_inversedBy (settled : sides.Settled)
    (inverted : sides.inversedBy = some name) : sides.owner = true := by
  cases owner : sides.owner with
  | true => rfl
  | false =>
      rw [settled.inverse owner] at inverted
      cases inverted

end Sides.Settled

namespace Pairing

variable {scope : Scope} {own : Place → Option Property}

theorem Scope.Coherent.lawful_side (coherent : scope.Coherent own)
    {side : Side} (held : side.Held scope.entities) :
    side.relation.sides.Lawful side.relation.kind :=
  (coherent.lawful _ _ (coherent.merges.declared_of_held held.property).1).sides
    _ held.relation

@[simp]
theorem owner_sidesNaming (owner : Bool) (name : Option String) :
    (sidesNaming owner name).owner = owner := by
  cases owner <;> rfl

namespace Scope.Cleared

variable {side : Side} {final : Sides}

/-- Nothing that a hint names is broken. -/
theorem reply_ne_silent (cleared : scope.Cleared own) {target : Entity}
    (registered : scope.entities.find? target.name = some target)
    (side : Side) (hint : Hint) (name : String) :
    scope.reply side target hint name ≠ .silent := by
  intro silent
  unfold Scope.reply at silent
  cases named : target.property? name with
  | none =>
      rw [named] at silent
      dsimp only at silent
      rw [cleared.dropped, Entities.anyWithin] at silent
      simp at silent
  | some other =>
      rw [named] at silent
      dsimp only at silent
      cases related : other.relation? with
      | none =>
          rw [related] at silent
          cases silent
      | some relation =>
          have held : Side.Held ⟨target, other, relation⟩ scope.entities :=
            (held_of_property? registered rfl named related).1
          rcases cleared.aim held with ⟨found, aim, -⟩
          dsimp only at aim
          rw [related] at silent
          dsimp only at silent
          rw [aim] at silent
          dsimp only at silent
          split at silent
          · split at silent <;> cases silent
          · cases silent

/-- A relation with a hint is paired with the other side that it names. -/
theorem hinted_of_slot (cleared : scope.Cleared own) {target : Entity}
    (registered : scope.entities.find? target.name = some target)
    (lawful : side.relation.sides.Lawful side.relation.kind) {hint : Hint}
    {name : String} (hints : hint.slot side.relation.sides = some name)
    {decisions : List Decision}
    (paired : scope.Paired side target decisions) :
    ∃ other found, scope.Answers side target hint name other found ∧
      decisions = [
        settle side (hint = .inversedBy) none other.place,
        settle other (!decide (hint = .inversedBy)) (some side.property.name)
          side.place] := by
  have hinted : side.relation.sides.isUnhinted ≠ true := by
    intro unhinted
    rw [slot_of_isUnhinted unhinted] at hints
    cases hints
  have oneHint := lawful.oneHint
  cases paired with
  | hinted given text other found slot answers =>
      have same : given = hint ∧ text = name := by
        cases hint <;> cases given <;> simp_all [Hint.slot]
      rcases same with ⟨rfl, rfl⟩
      exact ⟨other, found, answers, rfl⟩
  | unheard given text slot silence =>
      exact absurd silence (cleared.reply_ne_silent registered side given text)
  | silent unhinted | answered _ _ _ unhinted | alone unhinted
  | added _ unhinted | between _ _ _ unhinted => exact absurd unhinted hinted

/-! ## Proposals -/

theorem proposed_of_settle {owner : Bool} {name : Option String}
    {source : Place} {other : Side} {place : Place}
    (decided : settle other owner name source ∈ scope.decisions)
    (copy : scope.entities.CopyOf place other.place) :
    scope.Proposed place (sidesNaming owner name) :=
  ⟨⟨other.place, sidesNaming owner name, source⟩, decided, copy, rfl⟩

/-- Whatever is proposed for a relation owns and names at most an inverse, or
names at most an owner; the latter only for relations that need not own. -/
theorem shape_of_proposed (cleared : scope.Cleared own)
    (held : side.Held scope.entities) {sides : Sides}
    (proposed : scope.Proposed side.place sides) :
    ∃ owner name, sides = sidesNaming owner name ∧
      (owner = false → side.relation.kind ≠ .manyToOne) := by
  rcases proposed with ⟨settlement, member, copy, rfl⟩
  rcases cleared.pairs_of_mem_decisions member with
    ⟨first, target, heldFirst, pairs, decided⟩
  have lawful := cleared.lawful_side heldFirst
  have settles : ∀ (other : Side) owner name source,
      .settle settlement = settle other owner name source →
        other.Held scope.entities →
          (owner = false → other.relation.kind ≠ .manyToOne) →
            ∃ owner name, settlement.sides = sidesNaming owner name ∧
              (owner = false → side.relation.kind ≠ .manyToOne) := by
    intro other owner name source equal heldOther rule
    cases equal
    refine ⟨owner, name, rfl, ?_⟩
    have relation := held.relation
    have alike := copy.same
    rw [held.property, show scope.entities.property? _ = _ from
      heldOther.property, Option.some.injEq] at alike
    rw [alike, heldOther.relation, Option.some.injEq] at relation
    rw [← relation]
    exact rule
  have single : (first.relation.kind = .oneToOne ∨
      first.relation.kind = .manyToMany) →
        first.relation.kind ≠ .manyToOne := by
    rintro (kind | kind) <;> rw [kind] <;> exact nofun
  have registered := pairs.registered
  have paired := pairs.paired
  generalize scope.decided first = decisions at decided paired
  cases paired with
  | unheard | silent => cases decided
  | hinted hint name other found hints answers =>
      rcases List.mem_pair.mp decided with equal | equal
      · refine settles _ _ _ _ equal heldFirst ?_
        intro inverse kind
        cases hint with
        | mappedBy =>
            have unmapped := lawful.manyToOne kind
            rw [Hint.slot, unmapped] at hints
            cases hints
        | inversedBy => simp at inverse
      · refine settles _ _ _ _ equal (answers.held registered).1 ?_
        intro inverse kind
        cases hint with
        | mappedBy => simp at inverse
        | inversedBy =>
            have collection : first.relation.kind = .oneToMany := by
              rw [answers.kind] at kind
              exact (RelationKind.reciprocal_reciprocal _).symm.trans
                (congrArg RelationKind.reciprocal kind)
            rw [Hint.slot, lawful.noInverse collection] at hints
            cases hints
  | answered other found owner unhinted kind rival answer =>
      rcases List.mem_singleton.mp decided with equal
      exact settles _ _ _ _ equal heldFirst fun _ => single kind
  | alone unhinted kind lonely =>
      rcases List.mem_singleton.mp decided with equal
      exact settles _ _ _ _ equal heldFirst fun _ => single kind
  | added name unhinted kind lonely concrete naming fresh =>
      rcases List.mem_cons.mp decided with equal | decided
      · exact settles _ _ _ _ equal heldFirst fun _ => single (Or.inr kind)
      · rcases List.mem_pair.mp decided with equal | equal
        · exact settles _ _ _ _ equal heldFirst fun _ => single (Or.inr kind)
        · cases equal
  | between other found owner unhinted kind rival otherUnhinted only claim =>
      rcases List.mem_pair.mp decided with equal | equal
      · exact settles _ _ _ _ equal heldFirst fun _ => single kind
      · refine settles _ _ _ _ equal (rival.held registered).1 fun _ => ?_
        rw [rival.kind]
        exact single kind

/-- A relation is settled on its own account, unless it is a many-to-one one
without hints; then it gets names in line with its hints. -/
theorem own_proposal (cleared : scope.Cleared own)
    (held : side.Held scope.entities) :
    (side.relation.kind = .manyToOne ∧
        side.relation.sides.isUnhinted = true) ∨
      ∃ owner name, scope.Proposed side.place (sidesNaming owner name) ∧
        (owner = true → side.relation.sides.mappedBy = none) ∧
        (owner = false → side.relation.sides.inversedBy = none ∧
          (side.relation.sides.mappedBy = none → name ≠ none)) := by
  rcases cleared.pairs held with
    ⟨first, target, heldFirst, -, relation, copy, pairs⟩
  have lawful := cleared.lawful_side held
  have decided := mem_decisions_of_decided heldFirst
  have paired := pairs.paired
  have registered := pairs.registered
  generalize scope.decided first = decisions at decided paired
  rw [← relation] at lawful ⊢
  have settled : ∀ {owner : Bool} {name : Option String} {source : Place},
      first.relation.sides.isUnhinted = true →
        settle first owner name source ∈ scope.decisions →
          (owner = false → name ≠ none) →
            ∃ owner name, scope.Proposed side.place (sidesNaming owner name) ∧
              (owner = true → first.relation.sides.mappedBy = none) ∧
              (owner = false → first.relation.sides.inversedBy = none ∧
                (first.relation.sides.mappedBy = none → name ≠ none)) := by
    intro owner name source unhinted member named
    rcases mappedBy_of_isUnhinted unhinted with ⟨unmapped, uninverted⟩
    exact ⟨owner, name, proposed_of_settle member copy, fun _ => unmapped,
      fun inverse => ⟨uninverted, fun _ => named inverse⟩⟩
  cases paired with
  | unheard hint name hints silence =>
      exact absurd silence (cleared.reply_ne_silent registered first hint name)
  | silent unhinted kind =>
      rcases kind with kind | kind
      · exact Or.inl ⟨kind, unhinted⟩
      · exact absurd (mappedBy_of_isUnhinted unhinted).1 (lawful.oneToMany kind)
  | hinted hint name other found hints answers =>
      refine Or.inr ⟨_, _, proposed_of_settle
        (decided _ (List.mem_cons_self ..)) copy, ?_, ?_⟩
      · cases hint with
        | mappedBy => simp
        | inversedBy =>
            intro _
            rcases lawful.oneHint with unmapped | uninverted
            · exact unmapped
            · rw [Hint.slot, uninverted] at hints
              cases hints
      · cases hint with
        | inversedBy => simp
        | mappedBy =>
            intro _
            have mapped : first.relation.sides.mappedBy = some name := hints
            refine ⟨?_, fun unmapped => ?_⟩
            · rcases lawful.oneHint with unmapped | uninverted
              · rw [mapped] at unmapped
                cases unmapped
              · exact uninverted
            · rw [mapped] at unmapped
              cases unmapped
  | answered other found owner unhinted kind rival answer =>
      exact Or.inr (settled unhinted (decided _ (List.mem_cons_self ..))
        fun _ => by simp)
  | alone unhinted kind lonely =>
      exact Or.inr (settled unhinted (decided _ (List.mem_cons_self ..)) nofun)
  | added name unhinted kind lonely concrete naming fresh =>
      exact Or.inr (settled unhinted (decided _ (List.mem_cons_self ..)) nofun)
  | between other found owner unhinted kind rival otherUnhinted only claim =>
      exact Or.inr (settled unhinted (decided _ (List.mem_cons_self ..))
        fun _ => by simp)

/-! ## The sides that all decisions agree on -/

section

variable (cleared : scope.Cleared own) (held : side.Held scope.entities)
  (agreed : side.relation.sides.Agreed (scope.Proposed side.place) final)

include cleared held agreed

/-- Every proposal owns or not as all decisions together do. -/
theorem shape_of_agreed {sides : Sides}
    (proposed : scope.Proposed side.place sides) :
    ∃ name, sides = sidesNaming final.owner name ∧
      (final.owner = false → side.relation.kind ≠ .manyToOne) := by
  rcases cleared.shape_of_proposed held proposed with ⟨owner, name, rfl, rule⟩
  have same := agreed.owner _ proposed
  rw [owner_sidesNaming] at same
  subst same
  exact ⟨name, rfl, rule⟩

theorem mappedBy_of_owner (owner : final.owner = true) :
    final.mappedBy = none := by
  have unmapped : side.relation.sides.mappedBy = none := by
    rcases cleared.own_proposal held with
      ⟨-, unhinted⟩ | ⟨owns, _, given, unmapped, -⟩
    · exact (mappedBy_of_isUnhinted unhinted).1
    · have same := agreed.owner _ given
      rw [owner_sidesNaming, owner] at same
      exact unmapped same.symm
  refine Option.eq_none_iff_forall_ne_some.mpr fun name mapped => ?_
  rcases (agreed.mappedBy name).mp mapped with hinted | ⟨sides, given, named⟩
  · rw [unmapped] at hinted
    cases hinted
  · rcases cleared.shape_of_agreed held agreed given with ⟨other, rfl, -⟩
    rw [owner] at named
    cases named

/-- A relation that does not own was told so on its own account, with the name
of the owner unless its hint has that. -/
theorem proposed_of_not_owner (owner : final.owner = false) :
    ∃ name, scope.Proposed side.place (sidesNaming false name) ∧
      side.relation.sides.inversedBy = none ∧
      (side.relation.sides.mappedBy = none → name ≠ none) := by
  rcases cleared.own_proposal held with
    ⟨kind, unhinted⟩ | ⟨owns, name, given, -, rule⟩
  · -- A many-to-one side without hints owns to begin with, and no proposal
    -- for it says otherwise.
    have nothing : ∀ sides, ¬ scope.Proposed side.place sides := by
      intro sides given
      rcases cleared.shape_of_agreed held agreed given with ⟨_, _, rule⟩
      exact rule owner kind
    have stays := agreed.untouched nothing
    rw [owner, (cleared.lawful_side held).owner, kind] at stays
    cases stays
  · have same := agreed.owner _ given
    rw [owner_sidesNaming, owner] at same
    subst same
    exact ⟨name, given, rule rfl⟩

theorem exists_mappedBy_of_not_owner (owner : final.owner = false) :
    ∃ name, final.mappedBy = some name := by
  rcases cleared.proposed_of_not_owner held agreed owner with
    ⟨name, given, -, named⟩
  cases hinted : side.relation.sides.mappedBy with
  | some other => exact ⟨other, (agreed.mappedBy other).mpr (Or.inl hinted)⟩
  | none =>
      rcases Option.ne_none_iff_exists'.mp (named hinted) with ⟨other, rfl⟩
      exact ⟨other, (agreed.mappedBy other).mpr (Or.inr ⟨_, given, rfl⟩)⟩

theorem inversedBy_of_not_owner (owner : final.owner = false) :
    final.inversedBy = none := by
  rcases cleared.proposed_of_not_owner held agreed owner with
    ⟨-, -, uninverted, -⟩
  refine Option.eq_none_iff_forall_ne_some.mpr fun other inverted => ?_
  rcases (agreed.inversedBy other).mp inverted with
    hinted | ⟨sides, given, named⟩
  · rw [uninverted] at hinted
    cases hinted
  · rcases cleared.shape_of_agreed held agreed given with ⟨_, rfl, -⟩
    rw [owner] at named
    cases named

theorem settled : final.Settled := by
  refine ⟨?_, cleared.inversedBy_of_not_owner held agreed⟩
  constructor
  · exact cleared.mappedBy_of_owner held agreed
  · intro unmapped
    rw [← Bool.not_eq_false]
    intro owner
    rcases cleared.exists_mappedBy_of_not_owner held agreed owner with
      ⟨name, mapped⟩
    rw [unmapped] at mapped
    cases mapped

theorem mappedBy_of_manyToOne (kind : side.relation.kind = .manyToOne) :
    final.mappedBy = none := by
  refine Option.eq_none_iff_forall_ne_some.mpr fun name mapped => ?_
  rcases (agreed.mappedBy name).mp mapped with hinted | ⟨sides, given, named⟩
  · rw [(cleared.lawful_side held).manyToOne kind] at hinted
    cases hinted
  · rcases cleared.shape_of_proposed held given with ⟨claim, other, rfl, rule⟩
    cases claim with
    | true => cases named
    | false => exact rule rfl kind

end

/-! ## What a decision comes to -/

section

variable {first : Side} {source : Place} {name : String}
  (agreed : side.relation.sides.Agreed (scope.Proposed side.place) final)
  (copy : scope.entities.CopyOf side.place first.place)

include agreed copy

theorem owner_of_settle {owner : Bool} {text : Option String}
    (member : settle first owner text source ∈ scope.decisions) :
    final.owner = owner := by
  have same := agreed.owner _ (proposed_of_settle member copy)
  rw [owner_sidesNaming] at same
  exact same

theorem mappedBy_of_settle
    (member : settle first false (some name) source ∈ scope.decisions) :
    final.mappedBy = some name :=
  (agreed.mappedBy name).mpr (Or.inr ⟨_, proposed_of_settle member copy, rfl⟩)

theorem inversedBy_of_settle
    (member : settle first true (some name) source ∈ scope.decisions) :
    final.inversedBy = some name :=
  (agreed.inversedBy name).mpr (Or.inr ⟨_, proposed_of_settle member copy, rfl⟩)

end

/-! ## The owner that a side names -/

/-- A relation learns the name of its inverse, from its own hint or from a
decision. -/
def Learns (scope : Scope) (side : Side) (name : String) : Prop :=
  side.relation.sides.inversedBy = some name ∨
    ∃ sides, scope.Proposed side.place sides ∧ sides.inversedBy = some name

theorem owns_of_learns (cleared : scope.Cleared own)
    (held : side.Held scope.entities)
    (agreed : side.relation.sides.Agreed (scope.Proposed side.place) final)
    {name : String} (learns : Learns scope side name) :
    final.owner = true ∧ final.inversedBy = some name := by
  have inverted := (agreed.inversedBy name).mpr learns
  exact ⟨(cleared.settled held agreed).owner_of_inversedBy inverted, inverted⟩

/-- The owner that a relation names is a relation of the target with the
reciprocal kind that learns its name. -/
theorem learns_of_mappedBy (cleared : scope.Cleared own)
    (held : side.Held scope.entities)
    (agreed : side.relation.sides.Agreed (scope.Proposed side.place) final)
    {name : String} (mapped : final.mappedBy = some name) :
    ∃ (target : Entity) (other : Side),
      scope.directory.meaning side.relation.target.declared =
          .ok target.name ∧
        scope.entities.find? target.name = some target ∧
        other.Held scope.entities ∧ other.place = ⟨target.name, name⟩ ∧
        other.relation.kind = side.relation.kind.reciprocal ∧
        Learns scope other side.property.name := by
  have owner : final.owner = false :=
    (cleared.settled held agreed).owner_of_mappedBy mapped
  rcases cleared.pairs held with
    ⟨first, target, heldFirst, property, relation, copy, pairs⟩
  have decided := mem_decisions_of_decided heldFirst
  have registered := pairs.registered
  have means := pairs.means
  rw [relation] at means
  have paired := pairs.paired
  generalize scope.decided first = decisions at decided paired
  refine ⟨target, ?_⟩
  suffices learns : ∃ other : Side, other.Held scope.entities ∧
      other.place = ⟨target.name, name⟩ ∧
      other.relation.kind = side.relation.kind.reciprocal ∧
      Learns scope other side.property.name by
    rcases learns with ⟨other, rest⟩
    exact ⟨other, means, registered, rest⟩
  have owns : ∀ {claim : Bool} {other : Option String} {source : Place},
      settle first claim other source ∈ scope.decisions → claim = false :=
    fun member => (owner_of_settle agreed copy member).symm.trans owner
  have single : (first.relation.kind = .oneToOne ∨
      first.relation.kind = .manyToMany) →
        first.relation.kind = side.relation.kind.reciprocal := by
    rw [relation]
    rintro (kind | kind) <;> rw [kind] <;> rfl
  cases paired with
  | unheard hint other hints silence =>
      exact absurd silence (cleared.reply_ne_silent registered first hint other)
  | silent unhinted kind =>
      rw [relation] at unhinted kind
      rcases kind with kind | kind
      · rw [cleared.mappedBy_of_manyToOne held agreed kind] at mapped
        cases mapped
      · exact absurd (mappedBy_of_isUnhinted unhinted).1
          ((cleared.lawful_side held).oneToMany kind)
  | hinted hint text other found hints answers =>
      cases hint with
      | inversedBy =>
          have claim := owns (decided _ (List.mem_cons_self ..))
          simp at claim
      | mappedBy =>
          rw [relation] at hints
          have given := (agreed.mappedBy text).mpr (Or.inl hints)
          rw [mapped] at given
          cases given
          rcases answers.held registered with ⟨heldOther, place⟩
          have told := decided _
            (List.mem_cons_of_mem _ (List.mem_cons_self ..))
          refine ⟨other, heldOther, place, relation ▸ answers.kind,
            Or.inr ⟨_, proposed_of_settle told (.refl _ _), ?_⟩⟩
          rw [← property]
          rfl
  | answered other found claim unhinted kind rival answer =>
      have member := decided _ (List.mem_cons_self ..)
      rcases owns member
      have given := mappedBy_of_settle agreed copy member
      rw [mapped] at given
      cases given
      rcases rival.held registered with ⟨heldOther, place⟩
      refine ⟨other, heldOther, place, rival.kind.trans (single kind),
        Or.inl ?_⟩
      unfold Side.answer at answer
      rw [property] at answer
      split at answer
      · cases answer
      · split at answer
        · assumption
        · cases answer
  | alone unhinted kind lonely =>
      cases owns (decided _ (List.mem_cons_self ..))
  | added text unhinted kind lonely concrete naming fresh =>
      cases owns (decided _ (List.mem_cons_self ..))
  | between other found claim unhinted kind rival otherUnhinted only claims =>
      have member := decided _ (List.mem_cons_self ..)
      rcases owns member
      have given := mappedBy_of_settle agreed copy member
      rw [mapped] at given
      cases given
      rcases rival.held registered with ⟨heldOther, place⟩
      have told := decided _
        (List.mem_cons_of_mem _ (List.mem_cons_self ..))
      refine ⟨other, heldOther, place, rival.kind.trans (single kind),
        Or.inr ⟨_, proposed_of_settle told (.refl _ _), ?_⟩⟩
      rw [← property]
      rfl

/-- The owner that a relation names is a relation of the target with the
reciprocal kind that owns and names it. -/
theorem owner_of_mappedBy (cleared : scope.Cleared own)
    (held : side.Held scope.entities)
    (agreed : side.relation.sides.Agreed (scope.Proposed side.place) final)
    {name : String} (mapped : final.mappedBy = some name) :
    ∃ (target : Entity) (other : Side),
      scope.directory.meaning side.relation.target.declared =
          .ok target.name ∧
        scope.entities.find? target.name = some target ∧
        other.Held scope.entities ∧ other.place = ⟨target.name, name⟩ ∧
        other.relation.kind = side.relation.kind.reciprocal ∧
        ∀ result,
          other.relation.sides.Agreed (scope.Proposed other.place) result →
            result.owner = true ∧
              result.inversedBy = some side.property.name := by
  rcases cleared.learns_of_mappedBy held agreed mapped with
    ⟨target, other, means, registered, heldOther, place, kind, learns⟩
  refine ⟨target, other, means, registered, heldOther, place, kind, ?_⟩
  intro result agrees
  exact cleared.owns_of_learns heldOther agrees learns

/-! ## Added inverses -/

theorem mem_syntheses_iff {decisions : List Decision} {synthesis : Synthesis} :
    synthesis ∈ syntheses decisions ↔ .synthesize synthesis ∈ decisions := by
  rw [syntheses, List.mem_filterMap]
  constructor
  · rintro ⟨decision, member, here⟩
    cases decision with
    | settle settlement => cases here
    | synthesize other =>
        cases here
        exact member
  · intro member
    exact ⟨_, member, rfl⟩

/-- An inverse is added for a many-to-many relation of a concrete entity, which
then owns and names it. -/
theorem added_of_paired {target : Entity} {decisions : List Decision}
    (paired : scope.Paired side target decisions) {synthesis : Synthesis}
    (member : .synthesize synthesis ∈ decisions) :
    side.relation.kind = .manyToMany ∧ side.entity.isAbstract = false ∧
      synthesis = ⟨target.name, scope.config.inverseNaming.inverseName
        side.entity.name side.property.name, side.place⟩ ∧
      settle side true (some synthesis.name) ⟨target.name, synthesis.name⟩ ∈
        decisions := by
  cases paired with
  | unheard | silent | hinted | answered | alone | between =>
      simp [settle] at member
  | added name unhinted kind lonely concrete naming fresh =>
      have told : settle side true (some name) ⟨target.name, name⟩ ∈
          [settle side true none side.place,
            settle side true (some name) ⟨target.name, name⟩,
            .synthesize ⟨target.name, name, side.place⟩] := by
        simp
      simp only [settle, List.mem_cons, List.not_mem_nil, reduceCtorEq,
        Decision.synthesize.injEq, false_or, or_false] at member
      subst member naming
      exact ⟨kind, concrete, rfl, told⟩

theorem source_of_added (cleared : scope.Cleared own) {synthesis : Synthesis}
    (member : synthesis ∈ syntheses scope.decisions) :
    ∃ (side : Side) (target : Entity), side.Held scope.entities ∧
      scope.directory.meaning side.relation.target.declared =
        .ok target.name ∧
      scope.entities.find? target.name = some target ∧
      side.relation.kind = .manyToMany ∧ side.entity.isAbstract = false ∧
      synthesis = ⟨target.name, scope.config.inverseNaming.inverseName
        side.entity.name side.property.name, side.place⟩ ∧
      scope.Proposed side.place ⟨true, none, some synthesis.name⟩ := by
  rcases cleared.pairs_of_mem_decisions (mem_syntheses_iff.mp member) with
    ⟨side, target, held, pairs, decided⟩
  rcases added_of_paired pairs.paired decided with
    ⟨kind, concrete, equal, told⟩
  have known := mem_decisions_iff.mpr ⟨side, held, told⟩
  exact ⟨side, target, held, pairs.means, pairs.registered, kind, concrete,
    equal, proposed_of_settle known (.refl _ _)⟩

end Scope.Cleared

end Pairing

end EntityCatalog
