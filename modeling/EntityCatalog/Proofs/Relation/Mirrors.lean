import EntityCatalog.Proofs.Relation.Disputes
import EntityCatalog.Proofs.Relation.Facing
import EntityCatalog.Proofs.Relation.Reasons

/-!
# Relations that are opposed to themselves

Copies of a declaration are held all over a family of entities, and a relation
may find a copy of itself where it looks for its other side.  It never takes
itself for the other side where the target is the very entity that holds it;
where another entity of the family is the target, it does (`Scope.Mirrors`).
There are two more ways for a relation to be reported along with itself: a hint
of it is its own name, or it owns for want of another side and another relation
says that it does not (`Scope.SelfOpposed`).  A relation that its target mirrors
and that has nothing else in sight is always ambiguous (`Mirrors.defect_ruling`).
-/

namespace EntityCatalog.Pairing

/-! ## Ways of being opposed to itself -/

/-- A relation without hints that an entity pairs, and another entity of its
family that holds the same declaration. -/
structure Scope.Mirrors (scope : Scope) (side : Side) (target : Entity) :
    Prop where
  held : side.Held scope.entities
  seeks : side.Seeks
  unhinted : side.relation.sides.isUnhinted = true
  leads : scope.pairedByBase side = false
  registered : scope.entities.find? target.name = some target
  copy : target.property? side.property.name = some side.property
  apart : target.name ≠ side.entity.name
  related : scope.entities.isRelated target.name side.entity.name = true

/-- A relation that owns for want of another side, although it does not by what
another relation says. -/
structure Scope.Overruled (scope : Scope) (decisions : List Decision)
    (side : Side) : Prop where
  held : side.Held scope.entities
  seeks : side.Seeks
  unhinted : side.relation.sides.isUnhinted = true
  alone : .settle ⟨side.place, sidesNaming true none, side.place⟩ ∈ decisions
  /-- Another relation names it as its inverse, or what the two claim of
  ownership makes it the inverse. -/
  rival : ∃ rival : Side, rival.Held scope.entities ∧
    rival.property ≠ side.property ∧
    (rival.relation.sides.inversedBy = some side.property.name ∨
      owns side.relation.ownerHint rival.relation.ownerHint = .ok false)

/-- The reasons for which a relation is reported as ambiguous along with
itself. -/
inductive Scope.SelfOpposed (scope : Scope) (progress : Progress) :
    Place → Prop
  | named {side : Side} (held : side.Held scope.entities) (hint : Hint)
      (names : hint.slot side.relation.sides = some side.property.name) :
      scope.SelfOpposed progress side.place
  | mirrored {side : Side} {target : Entity}
      (mirrors : scope.Mirrors side target)
      (known : progress.findings.known? side.property.origin
        side.relation.target = some target.name) :
      scope.SelfOpposed progress side.property.origin
  | overruled {side : Side}
      (overruled : scope.Overruled progress.decisions side) :
      scope.SelfOpposed progress side.place

/-- Of two sides with one claim on ownership neither can own. -/
theorem exists_ambiguity_of_owns (claim : Option Bool) :
    ∃ ambiguity, owns claim claim = .error ambiguity := by
  rcases claim with _ | _ | _ <;> exact ⟨_, rfl⟩

theorem owns_self_ne_ok (claim : Option Bool) (owner : Bool) :
    owns claim claim ≠ .ok owner := by
  rcases exists_ambiguity_of_owns claim with ⟨ambiguity, refused⟩
  rw [refused]
  exact nofun

theorem conflict_self (property : Property) (ambiguity : Ambiguity) :
    Defect.conflict property property ambiguity =
      .ambiguousOwnership property.origin property.origin ambiguity := by
  unfold Defect.conflict
  split <;> rfl

theorem eq_of_conflict {property other : Property} {ambiguity found : Ambiguity}
    {place : Place}
    (same : Defect.ambiguousOwnership place place found =
      .conflict property other ambiguity) :
    property.origin = place ∧ other.origin = place := by
  unfold Defect.conflict at same
  split at same
  · injection same with first second
    exact ⟨first.symm, second.symm⟩
  · injection same with first second
    exact ⟨second.symm, first.symm⟩

section

variable {scope : Scope} {own : Place → Option Property}
  {progress : Progress} {findings : Findings} {side other : Side}
  {target : Entity} {place : Place} {ambiguity : Ambiguity}

/-! ## What pairing reports -/

/-- What a relation confronts is a copy of it only if the target mirrors it. -/
theorem Scope.Confronts.mirrors
    (confronts : scope.Confronts findings side target other)
    (same : other.property = side.property) :
    scope.Mirrors side target := by
  have heldOther := confronts.heldOther
  rcases confronts.back with ⟨found, known, within⟩
  rw [same, confronts.held.relation_eq heldOther same, confronts.known] at known
  cases known
  refine ⟨confronts.held, confronts.seeks, confronts.unhinted, confronts.leads,
    confronts.entity ▸ heldOther.entity, ?_, ?_, within⟩
  · rw [← same, ← confronts.entity]
    exact heldOther.holds
  · rintro here
    refine confronts.different ?_
    rw [Side.place, Side.place, Entity.place, Entity.place, confronts.entity,
      same, here]

/-- A relation that another entity declares is mirrored there exactly if it is
inherited from an abstract base. -/
theorem Scope.mirrors_iff_of_declaredBy (merges : scope.entities.Merges own)
    (held : side.Held scope.entities) (seeks : side.Seeks)
    (unhinted : side.relation.sides.isUnhinted = true)
    (registered : scope.entities.find? target.name = some target)
    (declared : side.property.declaredBy = target.name)
    (apart : target.name ≠ side.entity.name) :
    scope.Mirrors side target ↔
      ∃ base : Entity, side.entity.base = some base.name ∧
        scope.entities.find? base.name = some base ∧
        base.isAbstract = true := by
  have inherits : own side.place = none := by
    refine Option.eq_none_iff_forall_ne_some.mpr fun property here => ?_
    have same := merges.held_of_declared here
    rw [held.property] at same
    cases same
    exact apart (declared.symm.trans
      (congrArg Place.entity (merges.placed _ _ here)))
  -- So the base holds the same declaration.
  have above := held.property
  rw [merges.held, inherits, Option.none_or] at above
  rcases Option.bind_eq_some_iff.mp above with ⟨name, link, copy⟩
  rw [show side.place.entity = side.entity.name from rfl, held.base?] at link
  rcases Option.bind_eq_some_iff.mp copy with ⟨base, found, holds⟩
  rcases (Table.find?_eq_some found).2 with rfl
  have paired : scope.pairedByBase side = !base.isAbstract := by
    rw [Scope.pairedByBase, link, Option.bind_some, found]
    dsimp only
    rw [show base.property? side.property.name = some side.property from holds]
    simp
  constructor
  · intro mirrors
    have leads := mirrors.leads
    rw [paired, Bool.not_eq_false'] at leads
    exact ⟨base, link, found, leads⟩
  · rintro ⟨other, linkOther, foundOther, handsDown⟩
    rw [link, Option.some.injEq] at linkOther
    rw [← linkOther, found] at foundOther
    cases foundOther
    have origin := merges.held_at_origin held.property
    rw [Entities.property?, Property.origin, declared, registered] at origin
    have climb := (merges.declared_of_held held.property).2.2
    rw [declared] at climb
    refine ⟨held, seeks, unhinted, ?_, registered, origin, apart, ?_⟩
    · rw [paired, handsDown]
      rfl
    · rw [Entities.isRelated, Bool.or_eq_true]
      exact Or.inr ((merges.isWithin_iff
        (Table.mem_keys_of_find? held.entity)).mpr climb)

/-- A relation that is contested with itself has its own name as a hint, or its
target mirrors it. -/
theorem Scope.Contests.selfOpposed (merges : scope.entities.Merges own)
    (contests : scope.Contests progress.findings
      (.ambiguousOwnership place place ambiguity)) :
    scope.SelfOpposed progress place := by
  generalize reported :
    Defect.ambiguousOwnership place place ambiguity = defect at contests
  cases contests with
  | @hinted hint side other hints objection =>
      rcases eq_of_conflict reported with ⟨rfl, origin⟩
      have same := merges.eq_of_origin_eq hints.heldOther.property
        hints.held.property origin
      rcases exists_side_of_property?
        (merges.held_at_origin hints.held.property) hints.held.relation with
        ⟨entity, -, held, placed⟩
      rw [← placed]
      refine .named held hint ?_
      rw [hints.slot, same]
  | @facing side other target confronts objection =>
      rcases eq_of_conflict reported with ⟨rfl, origin⟩
      exact .mirrored (confronts.mirrors (merges.eq_of_origin_eq
        confronts.heldOther.property confronts.held.property origin))
        confronts.known

/-! ## What carrying out decisions reports -/

/-- Who denies that a relation without hints owns is another relation, which names
it or claims ownership. -/
theorem Scope.Warrants.exists_rival {settlement : Settlement}
    (warrants : scope.Warrants settlement)
    (denies : settlement.sides.owner = false) (held : side.Held scope.entities)
    (unhinted : side.relation.sides.isUnhinted = true)
    (copy : scope.entities.CopyOf side.place settlement.place) :
    ∃ rival : Side, rival.Held scope.entities ∧
      rival.property ≠ side.property ∧
      (rival.relation.sides.inversedBy = some side.property.name ∨
        owns side.relation.ownerHint rival.relation.ownerHint =
          .ok false) := by
  have slotless := slot_of_isUnhinted unhinted
  -- A relation with a hint is not the one without.
  have hinting : ∀ {rival : Side}, rival.Held scope.entities →
      rival.relation.sides.inversedBy = some side.property.name →
        rival.property ≠ side.property := by
    intro rival heldRival inverse same
    rw [held.relation_eq heldRival same] at inverse
    exact nomatch (slotless .inversedBy).symm.trans inverse
  cases warrants with
  | @hinted hint first second hints =>
      have slot := hints.slot
      rw [← (eq_of_copyOf hints.held held copy).2, slotless] at slot
      cases slot
  | @named hint first second hints =>
      rw [owner_sidesNaming, Bool.not_eq_false', decide_eq_true_eq] at denies
      subst denies
      have inverse := hints.slot
      rw [← (eq_of_copyOf hints.heldOther held copy).1] at inverse
      exact ⟨first, hints.held, hinting hints.held inverse, Or.inl inverse⟩
  | @answered first second owner sights answer =>
      rw [owner_sidesNaming] at denies
      subst denies
      rw [← (eq_of_copyOf sights.held held copy).1] at answer
      have inverse :
          second.relation.sides.inversedBy = some side.property.name := by
        unfold Side.answer at answer
        split at answer
        · cases answer
        · split at answer
          · assumption
          · cases answer
      exact ⟨second, sights.heldOther, hinting sights.heldOther inverse,
        Or.inl inverse⟩
  | alone => cases denies
  | added => cases denies
  | @between first second owner sights claim =>
      rw [owner_sidesNaming] at denies
      subst denies
      rw [← (eq_of_copyOf sights.held held copy).2] at claim
      refine ⟨second, sights.heldOther, fun same => ?_, Or.inr claim⟩
      rw [held.relation_eq sights.heldOther same] at claim
      exact owns_self_ne_ok _ _ claim

/-- A side that is settled on account of a copy of itself has its own name as a hint,
or nothing that it could name. -/
theorem Scope.Warrants.selfOpposed_or_alone {settlement : Settlement}
    (warrants : scope.Warrants settlement)
    (copy : scope.entities.CopyOf settlement.source settlement.place) :
    scope.SelfOpposed progress settlement.source ∨
      ∃ side : Side, side.Held scope.entities ∧ side.Seeks ∧
        side.relation.sides.isUnhinted = true ∧
        settlement = ⟨side.place, sidesNaming true none, side.place⟩ := by
  cases warrants with
  | @hinted hint side other hints =>
      rcases eq_of_copyOf hints.held hints.heldOther copy with
        ⟨property, relation⟩
      refine Or.inl (.named hints.heldOther hint ?_)
      rw [relation, hints.slot]
  | @named hint side other hints =>
      rcases eq_of_copyOf hints.heldOther hints.held copy with
        ⟨property, relation⟩
      refine Or.inl (.named hints.held hint ?_)
      rw [hints.slot, property]
  | @answered side other owner sights answer =>
      rcases eq_of_copyOf sights.held sights.heldOther copy with
        ⟨property, relation⟩
      rcases exists_hint_of_answer answer with ⟨hint, names, -⟩
      refine Or.inl (.named sights.heldOther hint ?_)
      rw [names, property]
  | @alone side held seeks unhinted =>
      exact Or.inr ⟨side, held, seeks, unhinted, rfl⟩
  | @added side target name held seeks registered fresh =>
      -- The target would hold the inverse already.
      have here := copy.same
      rw [held.property, Entities.property?, registered] at here
      cases fresh.symm.trans here
  | @between side other owner sights claim =>
      rw [(eq_of_copyOf sights.held sights.heldOther copy).2] at claim
      exact absurd claim (owns_self_ne_ok _ _)

/-- A relation that is in dispute on its own account has its own name as a hint, or
another relation overrules it. -/
theorem selfOpposed_of_disputed
    (warranted : ∀ settlement, .settle settlement ∈ progress.decisions →
      scope.Warrants settlement)
    (disputed : Settlement.Disputed scope.entities progress.decisions
      (.ambiguousOwnership place place ambiguity)) :
    scope.SelfOpposed progress place := by
  generalize reported :
    Defect.ambiguousOwnership place place ambiguity = defect at disputed
  cases disputed with
  | @owner settlement place sides member copy proposed differs =>
      cases reported
      rcases (warranted settlement member).selfOpposed_or_alone copy with
        opposed | ⟨side, held, seeks, unhinted, rfl⟩
      · exact opposed
      · rcases proposed with ⟨earlier, inside, copied, rfl⟩
        have denies : earlier.sides.owner = false :=
          Bool.eq_false_iff.mpr differs
        exact .overruled ⟨held, seeks, unhinted, member,
          (warranted earlier inside).exists_rival denies held unhinted copied⟩
  | @name settlement place member copy names present =>
      cases reported
      rcases (warranted settlement member).selfOpposed_or_alone copy with
        opposed | ⟨side, held, seeks, unhinted, rfl⟩
      · exact opposed
      · -- A side that is settled alone gets no name.
        rcases names with named | named <;> exact absurd rfl named

end

/-! ## Mirrors are always reported -/

/-- Other relations of its kind that the target of a relation holds have hints,
none of which names the relation. -/
def Side.Unrivalled (side : Side) (target : Entity) : Prop :=
  ∀ other ∈ target.properties.items, ∀ relation,
    other.relation? = some relation → relation.kind = side.relation.kind →
      other.name ≠ side.property.name →
        relation.sides.isUnhinted = false ∧
          ∀ hint : Hint, hint.slot relation.sides ≠ some side.property.name

section

variable {scope : Scope} {side rival : Side} {target : Entity}

theorem Scope.nodup_rivals (scope : Scope) (side : Side) (target : Entity) :
    (scope.rivals side target).Nodup := by
  have items : target.properties.items.Nodup :=
    .of_map _ target.properties.distinct
  refine items.filterMap fun first second rival here there => ?_
  rcases Option.bind_eq_some_iff.mp here with ⟨_, -, chosen⟩
  rcases Option.bind_eq_some_iff.mp there with ⟨_, -, chosenToo⟩
  split at chosen
  · cases chosen
    split at chosenToo
    · cases chosenToo
      rfl
    · cases chosenToo
  · cases chosen

/-- What could be the other side is the copy, or it has hints that do not name the
relation. -/
theorem Scope.Mirrors.rival_cases (mirrors : scope.Mirrors side target)
    (unrivalled : side.Unrivalled target)
    (member : rival ∈ scope.rivals side target) :
    rival = ⟨target, side.property, side.relation⟩ ∨
      rival.relation.sides.isUnhinted = false ∧ ∀ hint : Hint,
        hint.slot rival.relation.sides ≠ some side.property.name := by
  rcases rivals_of_mem member with ⟨found, rivals⟩
  by_cases named : rival.property.name = side.property.name
  · have property : rival.property = side.property := by
      have here := Table.find?_key rivals.holds
      rw [named] at here
      exact Option.some.inj (here.symm.trans mirrors.copy)
    have relation := mirrors.held.relation_eq
      (rivals.held mirrors.registered).1 property
    rcases rival with ⟨entity, other, part⟩
    cases rivals.entity
    cases property
    cases relation
    exact Or.inl rfl
  · exact Or.inr (unrivalled rival.property rivals.holds rival.relation
      rivals.relation rivals.kind named)

/-- Nothing in sight names the relation. -/
theorem Scope.Mirrors.answer_eq_none (mirrors : scope.Mirrors side target)
    (unrivalled : side.Unrivalled target)
    (member : rival ∈ scope.rivals side target) :
    rival.answer side.property.name = none := by
  refine Option.eq_none_iff_forall_ne_some.mpr fun owner answer => ?_
  rcases exists_hint_of_answer answer with ⟨hint, names, -⟩
  rcases mirrors.rival_cases unrivalled member with rfl | ⟨-, silent⟩
  · rw [slot_of_isUnhinted mirrors.unhinted] at names
    cases names
  · exact silent hint names

namespace Scope.Mirrors

variable (mirrors : scope.Mirrors side target)
  (kept : side.property.origin ∉ scope.invalid)
  (means : scope.directory.meaning side.relation.target.declared =
    .ok target.name)
  (unrivalled : side.Unrivalled target)

include mirrors kept means

/-- The copy that the target holds could be the other side. -/
theorem rivals :
    scope.Rivals side target ⟨target, side.property, side.relation⟩
      target.name where
  entity := rfl
  holds := (Table.find?_eq_some mirrors.copy).1
  relation := mirrors.held.relation
  kind := rfl
  different := fun same => mirrors.apart (congrArg Place.entity same)
  aim := by
    rw [Scope.aim, if_neg kept, means]
    rfl
  related := mirrors.related

include unrivalled

/-- If nothing else is in sight, the copy is the only one to choose. -/
theorem open_rivals :
    (scope.rivals side target).filter (·.relation.sides.isUnhinted) =
      [⟨target, side.property, side.relation⟩] := by
  refine List.perm_singleton.mp ((List.perm_ext_iff_of_nodup
    ((scope.nodup_rivals side target).filter _)
    (List.nodup_singleton _)).mpr fun rival => ?_)
  rw [List.mem_filter, List.mem_singleton]
  constructor
  · rintro ⟨member, free⟩
    rcases mirrors.rival_cases unrivalled member with same | ⟨hinted, -⟩
    · exact same
    · rw [hinted] at free
      cases free
  · rintro rfl
    exact ⟨(mirrors.rivals kept means).mem_rivals, mirrors.unhinted⟩

/-- A relation that its target mirrors is ambiguous along with itself, if nothing
else is in sight. -/
theorem defect_ruling {ambiguity : Ambiguity}
    (claim : owns side.relation.ownerHint side.relation.ownerHint =
      .error ambiguity) :
    (scope.ruling side).defect =
      some (.ambiguousOwnership side.property.origin side.property.origin
        ambiguity) := by
  have answer : ((scope.rivals side target).findSome? fun candidate =>
      (candidate.answer side.property.name).map fun owner =>
        (candidate, owner)) = none := by
    refine List.findSome?_eq_none_iff.mpr fun rival member => ?_
    rw [mirrors.answer_eq_none unrivalled member]
    rfl
  rw [ruling_of_means means mirrors.registered,
    verdict_of_unhinted mirrors.unhinted mirrors.seeks, decideUnhinted, answer]
  dsimp only
  rw [mirrors.open_rivals kept means unrivalled]
  dsimp only
  rw [decideBetween, claim]
  exact congrArg some (conflict_self side.property ambiguity)

end Scope.Mirrors

end

end EntityCatalog.Pairing
