import EntityCatalog.Proofs.Resolution.Family

/-!
# A relation that is answered for every child

In a family of an abstract entity and its children the target may answer the copies
of the children one by one.  Each child then owns its copy on account of its answer.
The abstract entity pairs its relation, too, and takes the first answer there is;
what is decided for it reaches all children.  A many-to-one relation does not look
for answers.  So all goes well exactly if the relation is many to one or there is
one child at most (`Family.answered_iff`).
-/

namespace EntityCatalog.Resolution.Setting.Family

open Pairing

variable {setting : Setting} {top target member child : Schema}
  {children : List Schema} {property : Property} {relation : Relation}
  {inverse : Schema → String} {side : Side}
  (family : setting.Family top target children property relation
    (children.map fun child => (inverse child, child.name)))
  (abstractTop : top.isAbstract = true)
  (direct : ∀ child ∈ children, setting.base? child.name = some top.name)

include family

/-! ## Answers -/

theorem exists_answer_of (inside : child ∈ children) :
    ∃ side, setting.AnswerSide target property relation (inverse child)
      child.name side :=
  family.exists_answer (List.mem_map_of_mem inside)

theorem held_cases_of_children (held : side.Held setting.merged) :
    (∃ member ∈ top :: children,
        side = ⟨setting.entity member, property, relation⟩) ∨
      ∃ child ∈ children, setting.AnswerSide target property relation
        (inverse child) child.name side := by
  rcases family.held_cases held with member | ⟨answer, inside, back⟩
  · exact Or.inl member
  · rcases List.mem_map.mp inside with ⟨child, below, rfl⟩
    exact Or.inr ⟨child, below, back⟩

omit family in
theorem place_of_answer {name pointed : String}
    (back : setting.AnswerSide target property relation name pointed side) :
    side.place = ⟨target.name, name⟩ := by
  rw [Side.place, Entity.place, back.entity, back.named]
  rfl

/-- Answers of one name point at one child. -/
theorem eq_of_inverse_eq {other : Schema} (inside : child ∈ children)
    (otherInside : other ∈ children) (same : inverse child = inverse other) :
    child = other := by
  rcases family.exists_answer_of inside with ⟨side, back⟩
  rcases family.exists_answer_of otherInside with ⟨otherSide, otherBack⟩
  have equal : side = otherSide := by
    apply Side.Held.eq_of_place_eq back.held otherBack.held
    rw [place_of_answer back, place_of_answer otherBack, same]
  subst equal
  have means := back.means
  rw [otherBack.means] at means
  exact (family.eq_of_name_eq (mem_of_member (List.mem_cons_of_mem _ otherInside))
    (mem_of_member (List.mem_cons_of_mem _ inside)) (Except.ok.inj means)).symm

theorem kind_ne_oneToMany : relation.kind ≠ .oneToMany := by
  intro kind
  have lawful := (Schema.lawful_of_property? family.declares).2.2.sides _
    family.related
  exact lawful.oneToMany kind (mappedBy_of_isUnhinted family.unhinted).1

/-! ## What is decided -/

theorem concerns_answer {name pointed : String}
    (back : setting.AnswerSide target property relation name pointed side) :
    setting.scope.concerns side = true := by
  have rootless : side.entity.base = none := by
    rw [back.entity]
    exact family.base?_target
  rw [Scope.concerns, Scope.pairedByBase, rootless]
  rfl

include abstractTop direct in
theorem concerns_member (inside : member ∈ top :: children) :
    setting.scope.concerns ⟨setting.entity member, property, relation⟩ =
      true := by
  refine family.concerns_iff.mpr fun base inFamily above => ?_
  rcases List.mem_cons.mp inside with rfl | below
  · rw [family.base?_top] at above
    cases above
  · rw [direct member below] at above
    rw [← family.eq_of_name_eq (List.mem_cons_self ..) (mem_of_member inFamily)
      (Option.some.inj above)]
    exact abstractTop

theorem aim_eq :
    setting.scope.aim property relation = some target.name :=
  Scope.aim_of_means rfl family.means

theorem ruling_eq_verdict :
    setting.scope.ruling ⟨setting.entity member, property, relation⟩ =
      setting.scope.verdict ⟨setting.entity member, property, relation⟩
        (setting.entity target) :=
  Scope.ruling_of_means family.means (family.find?_merged mem_of_target)

/-- The target is settled as the inverse side, and the child owns. -/
theorem ruling_answer (inside : child ∈ children)
    (back : setting.AnswerSide target property relation (inverse child)
      child.name side) :
    setting.scope.ruling side = { decisions := [
      settle side false none ⟨child.name, property.name⟩,
      settle ⟨setting.entity child, property, relation⟩ true
        (some (inverse child)) side.place] } := by
  have inFamily : child ∈ top :: children := List.mem_cons_of_mem _ inside
  have known := family.find?_merged (mem_of_member inFamily)
  have held := family.held inFamily
  rw [Entities.property?, known, Option.bind_some] at held
  have kind : relation.kind = side.relation.kind.reciprocal := by
    rw [back.kind, RelationKind.reciprocal_reciprocal]
  have within : setting.scope.entities.isRelated target.name
      side.entity.name = true := by
    rw [back.entity]
    have here := (family.merges.isWithin_iff (Table.mem_keys_of_find?
      (family.find?_merged mem_of_target))).mpr (.refl target.name)
    exact (Bool.or_eq_true _ _).mpr (Or.inl here)
  rcases mappedBy_of_isUnhinted family.unhinted with ⟨unmapped, uninverted⟩
  have reply : setting.scope.reply side (setting.entity child) .mappedBy
      property.name = .found ⟨setting.entity child, property, relation⟩ := by
    rw [Scope.reply, held]
    dsimp only
    rw [family.related]
    dsimp only
    rw [if_pos kind, family.aim_eq]
    exact if_pos within
  have agreed : objection .mappedBy side.property.name relation = none := by
    rw [objection, unmapped, uninverted, family.unclaimed]
    rfl
  have ruling : setting.scope.ruling side =
      setting.scope.verdict side (setting.entity child) :=
    Scope.ruling_of_means back.means known
  rw [ruling, Scope.verdict, back.names]
  dsimp only
  rw [Scope.hintedVerdict, reply]
  dsimp only
  rw [agreed, back.named]
  rfl

/-- Only answers could be the other side of the relation. -/
theorem exists_child_of_rival {rival : Side}
    (inside : rival ∈ setting.scope.rivals
      ⟨setting.entity member, property, relation⟩ (setting.entity target)) :
    ∃ child ∈ children,
      setting.AnswerSide target property relation (inverse child) child.name
        rival := by
  rcases Scope.rivals_of_mem inside with ⟨found, rivals⟩
  have held := (rivals.held (family.find?_merged mem_of_target)).1
  rcases family.held_cases_of_children held with
    ⟨other, inFamily, rfl⟩ | ⟨child, below, back⟩
  · exact absurd (congrArg Entity.name rivals.entity)
      (family.name_ne_target inFamily)
  · exact ⟨child, below, back⟩

/-- The answer for a child could be the other side of the relation as it is held by
the child or above it. -/
theorem mem_rivals_of_answer
    (kind : relation.kind = .oneToOne ∨ relation.kind = .manyToMany)
    (inside : child ∈ children) (inFamily : member ∈ top :: children)
    (above : Descends setting.base? child.name member.name)
    (back : setting.AnswerSide target property relation (inverse child)
      child.name side) :
    side ∈ setting.scope.rivals ⟨setting.entity member, property, relation⟩
      (setting.entity target) := by
  have holds := back.held.property
  rw [place_of_answer back, Entities.property?,
    family.find?_merged mem_of_target, Option.bind_some] at holds
  have aim : setting.scope.aim side.property side.relation =
      some child.name :=
    Scope.aim_of_means rfl back.means
  have below : child ∈ top :: children := List.mem_cons_of_mem _ inside
  rw [← family.base?_merged] at above
  have within := (family.merges.isWithin_iff (Table.mem_keys_of_find?
    (family.find?_merged (mem_of_member below)))).mpr above
  refine Scope.Rivals.mem_rivals ⟨back.entity, (Table.find?_eq_some holds).1,
    back.held.relation, ?_, ?_, aim, (Bool.or_eq_true _ _).mpr (Or.inl within)⟩
  · rw [back.kind]
    rcases kind with same | same <;> rw [same] <;> rfl
  · intro same
    rw [place_of_answer back] at same
    exact family.name_ne_target inFamily (congrArg Place.entity same).symm

include abstractTop direct

/-- A one-to-one or many-to-many relation takes the first answer in sight. -/
theorem ruling_cases
    (kind : relation.kind = .oneToOne ∨ relation.kind = .manyToMany)
    (inside : member ∈ top :: children) :
    (∃ child ∈ children,
        setting.scope.ruling ⟨setting.entity member, property, relation⟩ =
          { decisions := [
            settle ⟨setting.entity member, property, relation⟩ true
              (some (inverse child)) ⟨target.name, inverse child⟩] }) ∨
      children = [] ∧
        setting.scope.ruling ⟨setting.entity member, property, relation⟩ =
          { decisions := [
            settle ⟨setting.entity member, property, relation⟩ true none
              ⟨member.name, property.name⟩] } := by
  rw [family.ruling_eq_verdict, Scope.verdict_of_unhinted family.unhinted kind]
  cases rivals : setting.scope.rivals
      ⟨setting.entity member, property, relation⟩ (setting.entity target) with
  | cons first rest =>
      have member : first ∈ setting.scope.rivals _ _ :=
        rivals ▸ List.mem_cons_self ..
      rcases family.exists_child_of_rival member with
        ⟨child, below, back⟩
      have answer : first.answer property.name = some true := by
        rw [Side.answer, if_pos back.names]
      refine Or.inl ⟨child, below, ?_⟩
      rw [Scope.decideUnhinted, List.findSome?_cons, answer,
        ← place_of_answer back, ← back.named]
      rfl
  | nil =>
      have childless : children = [] := by
        apply List.eq_nil_iff_forall_not_mem.mpr
        intro child below
        have sighted : ∃ side, side ∈ setting.scope.rivals
            ⟨setting.entity member, property, relation⟩
            (setting.entity target) := by
          rcases List.mem_cons.mp inside with rfl | here
          · rcases family.exists_answer_of below with ⟨side, back⟩
            exact ⟨side, family.mem_rivals_of_answer kind below inside
              (family.below child below) back⟩
          · rcases family.exists_answer_of here with ⟨side, back⟩
            exact ⟨side, family.mem_rivals_of_answer kind here inside (.refl _)
              back⟩
        rw [rivals] at sighted
        rcases sighted with ⟨_, absent⟩
        cases absent
      subst childless
      rcases List.mem_singleton.mp inside with rfl
      have isAbstract : (setting.entity member).isAbstract = true := abstractTop
      refine Or.inr ⟨rfl, ?_⟩
      rw [Scope.decideUnhinted, List.findSome?_nil, List.filter_nil]
      dsimp only
      rw [Scope.decideAlone, family.unclaimed,
        if_neg (Option.some_ne_none false).symm, isAbstract, Bool.not_true,
        Bool.and_false]
      rfl

omit abstractTop direct in
/-- A many-to-one relation does not look for answers. -/
theorem ruling_of_manyToOne (kind : relation.kind = .manyToOne) :
    setting.scope.ruling ⟨setting.entity member, property, relation⟩ =
      .silent := by
  rcases mappedBy_of_isUnhinted family.unhinted with ⟨unmapped, uninverted⟩
  rw [family.ruling_eq_verdict, Scope.verdict, unmapped, uninverted, kind]

omit abstractTop direct in
theorem kind_cases :
    relation.kind = .manyToOne ∨
      (relation.kind = .oneToOne ∨ relation.kind = .manyToMany) := by
  have other := family.kind_ne_oneToMany
  cases kind : relation.kind <;> simp_all

/-- Nothing is wrong with any of the relations. -/
theorem clears (held : side.Held setting.merged) :
    setting.scope.Clears side := by
  intro _
  rcases family.held_cases_of_children held with
    ⟨member, inside, rfl⟩ | ⟨child, inside, back⟩
  · rcases family.kind_cases with kind | kind
    · rw [family.ruling_of_manyToOne kind]
      rfl
    · rcases family.ruling_cases abstractTop direct kind inside with
        ⟨_, _, ruling⟩ | ⟨_, ruling⟩ <;> rw [ruling]
  · rw [family.ruling_answer inside back]

/-- What is decided settles the copies as owners and the answers as inverses. -/
theorem decision_cases {decision : Decision}
    (member : decision ∈ setting.scope.decisions) :
    (∃ holder ∈ top :: children, ∃ name source,
        decision = settle ⟨setting.entity holder, property, relation⟩ true name
          source ∧
        (name = none ∨ ∃ child ∈ children, name = some (inverse child) ∧
          (child = holder ∨ relation.kind ≠ .manyToOne))) ∨
      ∃ child ∈ children, ∃ side, ∃ source,
        setting.AnswerSide target property relation (inverse child) child.name
          side ∧ decision = settle side false none source := by
  rcases Scope.Cleared.mem_decisions_iff.mp member with ⟨side, held, decided⟩
  rw [Scope.decided] at decided
  split at decided
  · rcases family.held_cases_of_children held with
      ⟨holder, inside, rfl⟩ | ⟨child, inside, back⟩
    · rcases family.kind_cases with kind | kind
      · rw [family.ruling_of_manyToOne kind] at decided
        cases decided
      · have searching : relation.kind ≠ .manyToOne := by
          rcases kind with same | same <;> rw [same] <;> decide
        rcases family.ruling_cases abstractTop direct kind inside with
          ⟨child, below, ruling⟩ | ⟨-, ruling⟩
        · rw [ruling] at decided
          exact Or.inl ⟨holder, inside, _, _, List.mem_singleton.mp decided,
            Or.inr ⟨child, below, rfl, Or.inr searching⟩⟩
        · rw [ruling] at decided
          exact Or.inl ⟨holder, inside, _, _, List.mem_singleton.mp decided,
            Or.inl rfl⟩
    · rw [family.ruling_answer inside back] at decided
      rcases List.mem_pair.mp decided with rfl | rfl
      · exact Or.inr ⟨child, inside, side, _, back, rfl⟩
      · exact Or.inl ⟨child, List.mem_cons_of_mem _ inside, _, _, rfl,
          Or.inr ⟨child, inside, rfl, Or.inl rfl⟩⟩
  · cases decided

theorem syntheses_eq_nil : syntheses setting.scope.decisions = [] := by
  refine List.filterMap_eq_nil_iff.mpr fun decision member => ?_
  rcases family.decision_cases abstractTop direct member with
    ⟨_, _, _, _, rfl, _⟩ | ⟨_, _, _, _, _, rfl⟩
  · rfl
  · rfl

/-! ## What is proposed -/

omit abstractTop direct in
/-- A child is told to own on account of its answer. -/
theorem proposed_of_answer (inside : child ∈ children) :
    setting.scope.Proposed ⟨child.name, property.name⟩
      ⟨true, none, some (inverse child)⟩ := by
  rcases family.exists_answer_of inside with ⟨side, back⟩
  have told : settle ⟨setting.entity child, property, relation⟩ true
      (some (inverse child)) side.place ∈ setting.scope.decisions := by
    refine Scope.Cleared.mem_decisions_iff.mpr ⟨side, back.held, ?_⟩
    rw [Scope.decided, if_pos (family.concerns_answer back),
      family.ruling_answer inside back]
    exact List.mem_cons_of_mem _ (List.mem_cons_self ..)
  exact Scope.Cleared.proposed_of_settle told (.refl _ _)

/-- What the top takes is proposed for every child. -/
theorem exists_proposed_of_top (nonempty : children ≠ [])
    (kind : relation.kind = .oneToOne ∨ relation.kind = .manyToMany) :
    ∃ first ∈ children, ∀ child ∈ children,
      setting.scope.Proposed ⟨child.name, property.name⟩
        ⟨true, none, some (inverse first)⟩ := by
  have inTop : top ∈ top :: children := List.mem_cons_self ..
  rcases family.ruling_cases abstractTop direct kind inTop with
    ⟨first, inside, ruling⟩ | ⟨childless, -⟩
  · refine ⟨first, inside, fun child below => ?_⟩
    have told : settle ⟨setting.entity top, property, relation⟩ true
        (some (inverse first)) ⟨target.name, inverse first⟩ ∈
          setting.scope.decisions := by
      refine Scope.Cleared.mem_decisions_iff.mpr
        ⟨_, family.side_held inTop, ?_⟩
      rw [Scope.decided,
        if_pos (family.concerns_member abstractTop direct inTop), ruling]
      exact List.mem_singleton.mpr rfl
    have climb := family.below child below
    rw [← family.base?_merged] at climb
    have same := (family.held (List.mem_cons_of_mem _ below)).trans
      (family.held inTop).symm
    exact Scope.Cleared.proposed_of_settle told ⟨rfl, climb, same⟩
  · exact absurd childless nonempty

/-- A copy is told to own, and which answers it or what is above it found. -/
theorem proposed_cases_of_member (inside : member ∈ top :: children)
    {sides : Sides}
    (proposed : setting.scope.Proposed ⟨member.name, property.name⟩ sides) :
    sides = ⟨true, none, none⟩ ∨ ∃ child ∈ children,
      sides = ⟨true, none, some (inverse child)⟩ ∧
        (child = member ∨ relation.kind ≠ .manyToOne) := by
  rcases proposed with ⟨settlement, told, copy, rfl⟩
  have climb := copy.below
  rw [show setting.scope.entities.base? = _ from family.base?_merged] at climb
  rcases family.decision_cases abstractTop direct told with
    ⟨holder, inFamily, name, source, equal, names⟩ |
      ⟨child, below, side, source, back, equal⟩
  · cases equal
    rcases names with rfl | ⟨child, below, rfl, reason⟩
    · exact Or.inl rfl
    · refine Or.inr ⟨child, below, rfl, reason.imp_left ?_⟩
      rintro rfl
      have inChildren : child ∈ top :: children := List.mem_cons_of_mem _ below
      rcases List.mem_cons.mp inside with rfl | here
      · exact family.eq_of_name_eq (mem_of_member inChildren)
          (List.mem_cons_self ..) (climb.eq_of_rootless family.base?_top).symm
      · exact (family.eq_of_descends_of_direct direct here below climb).symm
  · cases equal
    rw [place_of_answer back] at climb
    exact absurd (family.eq_target_of_descends climb)
      (family.name_ne_target inside)

theorem proposed_cases_of_answer {name pointed : String}
    (back : setting.AnswerSide target property relation name pointed side)
    {sides : Sides} (proposed : setting.scope.Proposed side.place sides) :
    sides = ⟨false, none, none⟩ := by
  rcases proposed with ⟨settlement, told, copy, rfl⟩
  have climb := copy.below
  rw [show setting.scope.entities.base? = _ from family.base?_merged,
    place_of_answer back] at climb
  rcases family.decision_cases abstractTop direct told with
    ⟨holder, inFamily, _, _, equal, -⟩ | ⟨_, _, _, _, _, equal⟩
  · cases equal
    exact absurd (climb.eq_of_rootless family.base?_target).symm
      (family.name_ne_target inFamily)
  · cases equal
    rfl

/-! ## When nothing is wrong -/

omit abstractTop direct in
theorem length_le_one_iff :
    children.length ≤ 1 ↔
      ∀ child ∈ children, ∀ other ∈ children, child = other := by
  have distinct : children.Nodup :=
    (List.nodup_cons.mp (List.nodup_cons.mp family.nodup_names.of_map).2).2
  match children, distinct with
  | [], _ => simp
  | [child], _ => simp
  | child :: other :: rest, distinct =>
      refine iff_of_false (by simp) fun alone => ?_
      have same := alone child (List.mem_cons_self ..) other
        (List.mem_cons_of_mem _ (List.mem_cons_self ..))
      exact (List.nodup_cons.mp distinct).1 (same ▸ List.mem_cons_self ..)

/-- What is proposed agrees if answers are not looked for or there is only one. -/
theorem exists_agreed
    (lone : relation.kind = .manyToOne ∨
      ∀ child ∈ children, ∀ other ∈ children, child = other)
    (held : side.Held setting.merged) :
    ∃ final, side.relation.sides.Agreed (setting.scope.Proposed side.place)
      final := by
  rcases family.held_cases_of_children held with
    ⟨member, inside, rfl⟩ | ⟨child, inside, back⟩
  · rcases mappedBy_of_isUnhinted family.unhinted with ⟨unmapped, uninverted⟩
    have one : ∃ name, ∀ child ∈ children,
        (child = member ∨ relation.kind ≠ .manyToOne) →
          inverse child = name := by
      by_cases told : ∃ child ∈ children,
          child = member ∨ relation.kind ≠ .manyToOne
      · rcases told with ⟨first, below, reason⟩
        refine ⟨inverse first, fun child here other => congrArg inverse ?_⟩
        rcases lone with kind | alone
        · rw [other.resolve_right (not_not.mpr kind),
            reason.resolve_right (not_not.mpr kind)]
        · exact alone child here first below
      · exact ⟨"", fun child here other => absurd ⟨child, here, other⟩ told⟩
    rcases one with ⟨name, same⟩
    refine (Sides.Agreed.owning unmapped uninverted name).exists_of_fewer ?_
    intro sides proposed
    rcases family.proposed_cases_of_member abstractTop direct inside proposed
      with plain | ⟨child, below, rfl, reason⟩
    · exact Or.inl plain
    · exact Or.inr (by rw [same child below reason])
  · exact (Sides.Agreed.nameless side.relation.sides false).exists_of_fewer
      fun sides => family.proposed_cases_of_answer abstractTop direct back

/-- Nothing is wrong with the relations exactly if answers are not looked for or
there is only one. -/
theorem answered_iff (steady : setting.sources.Steady) :
    setting.scope.Cleared setting.own ∧
        setting.merged.Accepts setting.scope.decisions ↔
      relation.kind = .manyToOne ∨ children.length ≤ 1 := by
  rw [family.length_le_one_iff]
  constructor
  · rintro ⟨-, accepts⟩
    refine family.kind_cases.imp_right fun kind child inside other below => ?_
    rcases family.exists_proposed_of_top abstractTop direct
      (List.ne_nil_of_mem inside) kind with ⟨first, -, told⟩
    -- Its own answer and the one the top took are proposed for every child.
    have same : ∀ member ∈ children, inverse member = inverse first := by
      intro member here
      rcases accepts.agreed _ _ _ (family.held (List.mem_cons_of_mem _ here))
        family.related with ⟨final, agreed⟩
      have own := (agreed.inversedBy _).mpr
        (Or.inr ⟨_, family.proposed_of_answer here, rfl⟩)
      have handed := (agreed.inversedBy _).mpr (Or.inr ⟨_, told member here, rfl⟩)
      rw [own] at handed
      exact Option.some.inj handed
    exact family.eq_of_inverse_eq inside below
      ((same child inside).trans (same other below).symm)
  · intro lone
    refine ⟨⟨family.coherent steady, rfl, fun side held =>
      family.clears abstractTop direct held⟩, ?_, ?_, ?_⟩
    · intro place found back held related
      rcases exists_side_of_property? held related with
        ⟨entity, -, heldSide, rfl⟩
      exact family.exists_agreed abstractTop direct lone heldSide
    · rw [family.syntheses_eq_nil abstractTop direct]
      exact fun _ absent => nomatch absent
    · rw [family.syntheses_eq_nil abstractTop direct]
      exact List.Pairwise.nil

/-- The relation points at the target, and the answers at the children. -/
theorem targeted_iff_of_answers :
    setting.Targeted ↔
      target.embeddable = false ∧
        ∀ child ∈ children, child.embeddable = false := by
  have points : ∀ name, setting.PointsAt name ↔
      name = target.name ∨ ∃ child ∈ children, child.name = name := by
    intro name
    rw [family.pointsAt_iff, family.syntheses_eq_nil abstractTop direct]
    simp
  simp only [family.targeted_iff, points]
  constructor
  · intro fitting
    refine ⟨fitting target mem_of_target (Or.inl rfl), fun child inside => ?_⟩
    exact fitting child (mem_of_member (List.mem_cons_of_mem _ inside))
      (Or.inr ⟨child, inside, rfl⟩)
  · rintro ⟨stored, below⟩ schema known (same | ⟨child, inside, same⟩)
    · rw [family.eq_of_name_eq known mem_of_target same]
      exact stored
    · rw [← family.eq_of_name_eq
        (mem_of_member (List.mem_cons_of_mem _ inside)) known same]
      exact below child inside

theorem silent_run_iff_answered (steady : setting.sources.Steady)
    (tally : Tally) :
    (setting.run tally).defects = [] ↔
      (relation.kind = .manyToOne ∨ children.length ≤ 1) ∧
        (target.embeddable = false ∧
          ∀ child ∈ children, child.embeddable = false) ∧
        setting.Keyed := by
  rw [family.silent_run_iff steady tally,
    family.answered_iff abstractTop direct steady,
    family.targeted_iff_of_answers abstractTop direct]

end EntityCatalog.Resolution.Setting.Family
