import EntityCatalog.Proofs.Entity.Reordered
import EntityCatalog.Proofs.Relation.Reciprocity

/-!
# A many-to-many relation on its own

Where all relations are copies of one many-to-many relation without hints, nobody
answers it.  It is then decided for an entity that leads, a concrete one without
concrete base that pairs the relation for it, and every entity that leads gets an
inverse of its own.  Nothing is wrong exactly if these inverses have new and
different names and no entity that leads is below another one
(`Lone.parts_iff`).
-/

namespace EntityCatalog.Pairing

/-- A scope whose only relation is a many-to-many one without hints, held by some
entities that do not include its target. -/
structure Scope.Lone (scope : Scope) (own : Place → Option Property)
    (property : Property) (relation : Relation) (target : Entity) : Prop
    extends Scope.Coherent scope own where
  dropped : scope.invalid = []
  adding : scope.config.synthesizeInverse = true
  only : ∀ side : Side, side.Held scope.entities →
    side.property = property ∧ side.relation = relation ∧
      side.entity.name ≠ target.name
  kind : relation.kind = .manyToMany
  unhinted : relation.sides.isUnhinted = true
  unclaimed : relation.ownerHint = none
  means : scope.directory.meaning relation.target.declared = .ok target.name
  registered : scope.entities.find? target.name = some target

/-- An entity pairs its relation itself and has a table. -/
def Scope.leads (scope : Scope) (side : Side) : Bool :=
  scope.concerns side && !side.entity.isAbstract

/-- The name of the inverse that a relation would get. -/
def Scope.inverseName (scope : Scope) (side : Side) : String :=
  scope.config.inverseNaming.inverseName side.entity.name side.property.name

/-- The inverses of entities that lead can be added side by side, and every
entity has one above it at most. -/
structure Scope.Parts (scope : Scope) (target : Entity) : Prop where
  fresh : ∀ side : Side, side.Held scope.entities → scope.leads side = true →
    target.property? (scope.inverseName side) = none
  distinct : ∀ left right : Side, left.Held scope.entities →
    right.Held scope.entities → scope.leads left = true →
      scope.leads right = true →
        scope.inverseName left = scope.inverseName right → left = right
  apart : ∀ lower upper : Side, lower.Held scope.entities →
    upper.Held scope.entities → scope.leads lower = true →
      scope.leads upper = true →
        Descends scope.entities.base? lower.entity.name upper.entity.name →
          lower = upper

/-- No relation is dealt with twice. -/
theorem Scope.nodup_sides (scope : Scope) : scope.sides.Nodup := by
  have entities : scope.entities.basesFirst.Nodup :=
    (Entities.perm_basesFirst scope.entities).nodup_iff.mpr scope.entities.distinct.of_map
  refine List.nodup_flatMap.mpr ⟨?_, ?_⟩
  · intro entity _
    refine entity.properties.distinct.of_map.filterMap ?_
    intro left right side first second
    rcases Option.map_eq_some_iff.mp first with ⟨_, _, rfl⟩
    rcases Option.map_eq_some_iff.mp second with ⟨_, _, same⟩
    exact (congrArg Side.property same).symm
  · refine entities.imp fun different => ?_
    intro side first second
    rw [mem_sidesOf_iff] at first second
    exact different (first.1.symm.trans second.1)

namespace Scope.Lone

variable {scope : Scope} {own : Place → Option Property}
  {property : Property} {relation : Relation} {target : Entity} {side : Side}

/-! ## What is decided -/

theorem rivals_eq_nil (lone : scope.Lone own property relation target)
    (side : Side) : scope.rivals side target = [] := by
  refine List.filterMap_eq_nil_iff.mpr fun other member => ?_
  cases related : other.relation? with
  | none => rw [Scope.rival?, related, Option.bind_none]
  | some found =>
      have held : Side.Held ⟨target, other, found⟩ scope.entities :=
        (held_of_property? lone.registered rfl (Table.find?_key member)
          related).1
      exact absurd rfl (lone.only _ held).2.2

/-- Every copy of the relation is decided on alone. -/
theorem ruling_eq (lone : scope.Lone own property relation target)
    (held : side.Held scope.entities) :
    scope.ruling side = scope.decideAlone side target := by
  rcases lone.only side held with ⟨-, rfl, -⟩
  rw [Scope.ruling_of_means lone.means lone.registered,
    Scope.verdict_of_unhinted lone.unhinted (Or.inr lone.kind),
    lone.rivals_eq_nil]
  rfl

theorem concerns_of_leads (leads : scope.leads side = true) :
    scope.concerns side = true ∧ side.entity.isAbstract = false := by
  simpa [Scope.leads] using leads

/-- An entity that leads gets an inverse, unless the name is in use. -/
theorem ruling_of_leads (lone : scope.Lone own property relation target)
    (held : side.Held scope.entities) (leads : scope.leads side = true) :
    scope.ruling side =
      { scope.synthesis side target with
        decisions := settle side true none side.place ::
          (scope.synthesis side target).decisions } := by
  rw [lone.ruling_eq held, Scope.decideAlone]
  rcases lone.only side held with ⟨-, rfl, -⟩
  rw [lone.unclaimed, if_neg nofun, lone.kind, lone.adding,
    (concerns_of_leads leads).2]
  rfl

/-- Any other entity that pairs the relation just owns it. -/
theorem ruling_of_concerns (lone : scope.Lone own property relation target)
    (held : side.Held scope.entities) (concerned : scope.concerns side = true)
    (follows : scope.leads side = false) :
    scope.ruling side = { decisions := [settle side true none side.place] } := by
  have isAbstract : side.entity.isAbstract = true := by
    simpa [Scope.leads, concerned] using follows
  rw [lone.ruling_eq held, Scope.decideAlone]
  rcases lone.only side held with ⟨-, rfl, -⟩
  rw [lone.unclaimed, if_neg nofun, isAbstract]
  simp

theorem decided_of_leads (lone : scope.Lone own property relation target)
    (held : side.Held scope.entities) (leads : scope.leads side = true)
    (fresh : target.property? (scope.inverseName side) = none) :
    scope.decided side = [
      settle side true none side.place,
      settle side true (some (scope.inverseName side))
        ⟨target.name, scope.inverseName side⟩,
      .synthesize ⟨target.name, scope.inverseName side, side.place⟩] := by
  have unused : target.properties.contains (scope.inverseName side) = false := by
    rw [Table.contains_eq, Option.isSome_eq_false_iff, Option.isNone_iff_eq_none]
    exact fresh
  rw [Scope.decided, if_pos (concerns_of_leads leads).1,
    lone.ruling_of_leads held leads, Scope.synthesis]
  dsimp only
  rw [← Scope.inverseName, if_neg (by simp [unused])]

theorem decided_of_follows (lone : scope.Lone own property relation target)
    (held : side.Held scope.entities) (follows : scope.leads side = false) :
    ∀ decision ∈ scope.decided side,
      decision = settle side true none side.place := by
  intro decision member
  rw [Scope.decided] at member
  split at member
  · rename_i concerned
    rw [lone.ruling_of_concerns held concerned follows] at member
    exact List.mem_singleton.mp member
  · cases member

/-- Nothing is wrong with a copy exactly if its inverse has a new name. -/
theorem clears_iff (lone : scope.Lone own property relation target)
    (held : side.Held scope.entities) :
    scope.Clears side ↔ (scope.leads side = true →
      target.property? (scope.inverseName side) = none) := by
  cases leads : scope.leads side with
  | false =>
      refine iff_of_true (fun concerned => ?_) nofun
      rw [lone.ruling_of_concerns held concerned leads]
  | true =>
      have unused : (scope.ruling side).defect = none ↔
          target.property? (scope.inverseName side) = none := by
        rw [lone.ruling_of_leads held leads, Scope.synthesis, ← Scope.inverseName]
        dsimp only
        rw [Table.contains_eq, Entity.property?]
        cases target.properties.find? (scope.inverseName side) with
        | none => simp
        | some other => simp [Outcome.failure]
      simp [Scope.Clears, (concerns_of_leads leads).1, unused]

/-! ## Added inverses -/

/-- The inverse that is added for an entity that leads. -/
def synthesis (scope : Scope) (target : Entity) (side : Side) : Synthesis :=
  ⟨target.name, scope.inverseName side, side.place⟩

theorem syntheses_eq (lone : scope.Lone own property relation target)
    (fresh : ∀ side : Side, side.Held scope.entities →
      scope.leads side = true →
        target.property? (scope.inverseName side) = none) :
    syntheses scope.decisions =
      (scope.sides.filter scope.leads).map (synthesis scope target) := by
  have held : ∀ side ∈ scope.sides, side.Held scope.entities :=
    fun side member => Scope.mem_sides_iff.mp member
  rw [Scope.decisions]
  generalize scope.sides = sides at held
  induction sides with
  | nil => rfl
  | cons side rest induction =>
      have here := held side (List.mem_cons_self ..)
      have later := induction fun other inside =>
        held other (List.mem_cons_of_mem _ inside)
      rw [syntheses] at later
      rw [List.flatMap_cons, syntheses, List.filterMap_append, later,
        List.filter_cons]
      cases leads : scope.leads side with
      | true =>
          rw [lone.decided_of_leads here leads (fresh side here leads)]
          rfl
      | false =>
          have silent : (scope.decided side).filterMap Decision.synthesis? =
              [] := by
            refine List.filterMap_eq_nil_iff.mpr fun decision member => ?_
            rw [lone.decided_of_follows here leads decision member]
            rfl
          rw [silent]
          rfl

theorem mem_syntheses_iff (lone : scope.Lone own property relation target)
    (parts : scope.Parts target) {added : Synthesis} :
    added ∈ syntheses scope.decisions ↔
      ∃ side : Side, side.Held scope.entities ∧ scope.leads side = true ∧
        added = synthesis scope target side := by
  rw [lone.syntheses_eq parts.fresh, List.mem_map]
  simp only [List.mem_filter, Scope.mem_sides_iff, and_assoc, eq_comm]

/-- All inverses are added to the target, so they come apart exactly if they have
different names. -/
theorem apart_iff (lone : scope.Lone own property relation target)
    (fresh : ∀ side : Side, side.Held scope.entities →
      scope.leads side = true →
        target.property? (scope.inverseName side) = none) :
    ((syntheses scope.decisions).Pairwise fun earlier later =>
        earlier.covers scope.entities later.place = false) ↔
      ∀ left right : Side, left.Held scope.entities →
        right.Held scope.entities → scope.leads left = true →
          scope.leads right = true →
            scope.inverseName left = scope.inverseName right →
              left = right := by
  have known : scope.entities.isWithin target.name target.name = true :=
    (lone.merges.isWithin_iff (Table.mem_keys_of_find? lone.registered)).mpr
      (.refl _)
  have covers : ∀ left right : Side,
      (synthesis scope target left).covers scope.entities
          (synthesis scope target right).place = false ↔
        scope.inverseName left ≠ scope.inverseName right := by
    intro left right
    rw [← Bool.not_eq_true, Synthesis.covers_iff]
    simp [synthesis, Synthesis.place, known]
  have distinct : (scope.sides.filter scope.leads).Nodup :=
    scope.nodup_sides.filter _
  rw [lone.syntheses_eq fresh, List.pairwise_map]
  simp only [covers]
  rw [← List.pairwise_map, ← List.Nodup, List.nodup_map_iff_inj_on distinct]
  simp only [List.mem_filter, Scope.mem_sides_iff]
  constructor
  · intro injective left right heldLeft heldRight leadsLeft leadsRight same
    exact injective left ⟨heldLeft, leadsLeft⟩ right ⟨heldRight, leadsRight⟩ same
  · intro injective left leftLeads right rightLeads same
    exact injective left right leftLeads.1 rightLeads.1 leftLeads.2
      rightLeads.2 same

/-! ## What is proposed -/

/-- An entity below another one holds a copy of the relation. -/
theorem copyOf_iff (lone : scope.Lone own property relation target)
    {lower upper : Side} (held : lower.Held scope.entities)
    (heldUpper : upper.Held scope.entities) :
    scope.entities.CopyOf lower.place upper.place ↔
      Descends scope.entities.base? lower.entity.name upper.entity.name := by
  rcases lone.only lower held with ⟨same, -, -⟩
  rcases lone.only upper heldUpper with ⟨sameUpper, -, -⟩
  constructor
  · exact fun copy => copy.below
  · intro below
    refine ⟨?_, below, ?_⟩
    · rw [Side.place, Side.place, Entity.place, Entity.place, same, sameUpper]
    · rw [held.property, heldUpper.property, same, sameUpper]

/-- A copy of the relation is told to own, and which inverses the entities that
lead above it got. -/
theorem proposed_cases (lone : scope.Lone own property relation target)
    (parts : scope.Parts target) (held : side.Held scope.entities)
    {sides : Sides} (proposed : scope.Proposed side.place sides) :
    sides = ⟨true, none, none⟩ ∨
      ∃ lead : Side, lead.Held scope.entities ∧ scope.leads lead = true ∧
        Descends scope.entities.base? side.entity.name lead.entity.name ∧
        sides = ⟨true, none, some (scope.inverseName lead)⟩ := by
  rcases proposed with ⟨settlement, member, copy, rfl⟩
  rcases Scope.Cleared.mem_decisions_iff.mp member with
    ⟨other, heldOther, decided⟩
  cases leads : scope.leads other with
  | false =>
      cases lone.decided_of_follows heldOther leads _ decided
      exact Or.inl rfl
  | true =>
      rw [lone.decided_of_leads heldOther leads
        (parts.fresh other heldOther leads)] at decided
      rcases List.mem_cons.mp decided with equal | decided
      · cases equal
        exact Or.inl rfl
      · rcases List.mem_pair.mp decided with equal | equal
        · cases equal
          exact Or.inr ⟨other, heldOther, leads,
            (lone.copyOf_iff held heldOther).mp copy, rfl⟩
        · cases equal

theorem proposed_of_leads (lone : scope.Lone own property relation target)
    (held : side.Held scope.entities) {lead : Side}
    (heldLead : lead.Held scope.entities) (leads : scope.leads lead = true)
    (fresh : target.property? (scope.inverseName lead) = none)
    (below : Descends scope.entities.base? side.entity.name
      lead.entity.name) :
    scope.Proposed side.place ⟨true, none, some (scope.inverseName lead)⟩ := by
  have copy := (lone.copyOf_iff held heldLead).mpr below
  have told : settle lead true (some (scope.inverseName lead))
      ⟨target.name, scope.inverseName lead⟩ ∈ scope.decisions := by
    refine Scope.Cleared.mem_decisions_iff.mpr ⟨lead, heldLead, ?_⟩
    rw [lone.decided_of_leads heldLead leads fresh]
    exact List.mem_cons_of_mem _ (List.mem_cons_self ..)
  exact Scope.Cleared.proposed_of_settle told copy

/-- The sides of a copy own and name the inverse of the entity that leads above
it. -/
theorem inversedBy_of_leads (lone : scope.Lone own property relation target)
    (parts : scope.Parts target) (held : side.Held scope.entities)
    {lead : Side} (heldLead : lead.Held scope.entities)
    (leads : scope.leads lead = true)
    (below : Descends scope.entities.base? side.entity.name lead.entity.name)
    {final : Sides}
    (agreed : side.relation.sides.Agreed (scope.Proposed side.place) final) :
    final.owner = true ∧
      final.inversedBy = some (scope.inverseName lead) := by
  have told := lone.proposed_of_leads held heldLead leads
    (parts.fresh lead heldLead leads) below
  exact ⟨agreed.owner _ told, (agreed.inversedBy _).mpr (Or.inr ⟨_, told, rfl⟩)⟩

/-- At most one entity that leads is above an entity, so all that is proposed
agrees. -/
theorem exists_agreed (lone : scope.Lone own property relation target)
    (parts : scope.Parts target) (held : side.Held scope.entities) :
    ∃ final, side.relation.sides.Agreed (scope.Proposed side.place) final := by
  have one : ∃ name, ∀ lead : Side, lead.Held scope.entities →
      scope.leads lead = true →
        Descends scope.entities.base? side.entity.name lead.entity.name →
          scope.inverseName lead = name := by
    by_cases led : ∃ lead : Side, lead.Held scope.entities ∧
        scope.leads lead = true ∧
          Descends scope.entities.base? side.entity.name lead.entity.name
    · rcases led with ⟨first, heldFirst, leadsFirst, above⟩
      refine ⟨scope.inverseName first, fun lead heldLead leads below => ?_⟩
      rcases below.total above with climb | climb
      · rw [parts.apart lead first heldLead heldFirst leads leadsFirst climb]
      · rw [parts.apart first lead heldFirst heldLead leadsFirst leads climb]
    · refine ⟨"", fun lead heldLead leads below => ?_⟩
      exact absurd ⟨lead, heldLead, leads, below⟩ led
  rcases one with ⟨name, same⟩
  rcases lone.only side held with ⟨-, rfl, -⟩
  rcases mappedBy_of_isUnhinted lone.unhinted with ⟨unmapped, uninverted⟩
  refine (Sides.Agreed.owning unmapped uninverted name).exists_of_fewer ?_
  intro sides proposed
  rcases lone.proposed_cases parts held proposed with
    plain | ⟨lead, heldLead, leads, below, rfl⟩
  · exact Or.inl plain
  · rw [same lead heldLead leads below]
    exact Or.inr rfl

/-! ## When nothing is wrong -/

/-- Nothing is wrong with the copies of the relation, and what is decided for
them goes together, exactly if the inverses can be added side by side. -/
theorem parts_iff (lone : scope.Lone own property relation target) :
    scope.Cleared own ∧ scope.entities.Accepts scope.decisions ↔
      scope.Parts target := by
  constructor
  · rintro ⟨cleared, accepts⟩
    have fresh : ∀ side : Side, side.Held scope.entities →
        scope.leads side = true →
          target.property? (scope.inverseName side) = none :=
      fun side held => (lone.clears_iff held).mp (cleared.clears side held)
    have distinct := (lone.apart_iff fresh).mp accepts.apart
    refine ⟨fresh, distinct, ?_⟩
    intro lower upper held heldUpper leads leadsUpper below
    -- Both inverses are proposed for the lower copy.
    rcases accepts.agreed _ _ _ held.property held.relation with
      ⟨final, agreed⟩
    have told := lone.proposed_of_leads held held leads
      (fresh lower held leads) (.refl _)
    have toldUpper := lone.proposed_of_leads held heldUpper leadsUpper
      (fresh upper heldUpper leadsUpper) below
    have named := (agreed.inversedBy _).mpr (Or.inr ⟨_, told, rfl⟩)
    have namedUpper := (agreed.inversedBy _).mpr (Or.inr ⟨_, toldUpper, rfl⟩)
    rw [named] at namedUpper
    exact distinct lower upper held heldUpper leads leadsUpper
      (Option.some.inj namedUpper)
  · intro parts
    refine ⟨⟨lone.toCoherent, lone.dropped, fun side held =>
      (lone.clears_iff held).mpr (parts.fresh side held)⟩, ?_, ?_, ?_⟩
    · intro place other found held related
      rcases exists_side_of_property? held related with
        ⟨entity, -, heldSide, rfl⟩
      exact lone.exists_agreed parts heldSide
    · intro added member
      rcases (lone.mem_syntheses_iff parts).mp member with
        ⟨lead, held, leads, rfl⟩
      have unused := parts.fresh lead held leads
      rw [show (synthesis scope target lead).place =
        ⟨target.name, scope.inverseName lead⟩ from rfl, Entities.property?,
        lone.registered, Option.bind_some]
      exact unused
    · exact (lone.apart_iff parts.fresh).mpr parts.distinct

end Scope.Lone

end EntityCatalog.Pairing
