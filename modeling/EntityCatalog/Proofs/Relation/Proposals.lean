import EntityCatalog.Proofs.Entity.Frame
import EntityCatalog.Proofs.Relation.Agreement

/-!
# What decisions ask for

Settling a side is a proposal for every copy of it (`Proposes`), and an added
inverse is to be held by all descendants of its holder (`Synthesis.covers`).
Decisions go together if all proposals agree and no inverse meets a name in use
(`Entities.Accepts`).  Only the last condition depends on the order of the
decisions.
-/

namespace EntityCatalog

namespace Entities

/-! ## Copies -/

/-- A place that holds the same as a place above it. -/
structure CopyOf (entities : Entities) (copy place : Place) : Prop where
  name : copy.property = place.property
  below : Descends entities.base? copy.entity place.entity
  same : entities.property? copy = entities.property? place

theorem CopyOf.refl (entities : Entities) (place : Place) :
    entities.CopyOf place place :=
  ⟨rfl, .refl place.entity, rfl⟩

theorem CopyOf.trans {entities : Entities} {first second third : Place}
    (lower : entities.CopyOf first second)
    (upper : entities.CopyOf second third) :
    entities.CopyOf first third :=
  ⟨lower.name.trans upper.name, lower.below.trans upper.below,
    lower.same.trans upper.same⟩

theorem copies_eq {entities : Entities} {place : Place} {property : Property}
    (held : entities.property? place = some property) :
    entities.copies place = entities.keys.filter fun name =>
      decide (name = place.entity) ||
        (entities.isWithin name place.entity &&
          (entities.property? ⟨name, place.property⟩).any fun copy =>
            copy.declaredBy = property.declaredBy) := by
  rw [copies, held, Table.keys, List.filter_map]
  refine congrArg (List.map Entity.name) (List.filter_congr ?_)
  intro entity member
  rw [Function.comp_apply, property?, Table.find?_key member, Option.bind_some]

/-- The entities that a decision about a place reaches are those that hold a
copy of what is there. -/
theorem mem_copies_iff {entities : Entities} {own : Place → Option Property}
    (merges : entities.Merges own) {place : Place} {property : Property}
    (held : entities.property? place = some property) {name : String} :
    name ∈ entities.copies place ↔
      entities.CopyOf ⟨name, place.property⟩ place := by
  rw [copies_eq held, List.mem_filter, Bool.or_eq_true, decide_eq_true_eq,
    Bool.and_eq_true]
  constructor
  · rintro ⟨registered, rfl | ⟨within, alike⟩⟩
    · exact .refl entities place
    · rcases (Option.any_eq_true _ _).mp alike with ⟨copy, found, declared⟩
      have below := (merges.isWithin_iff registered).mp within
      have origin : copy.origin = property.origin := by
        rw [Property.origin, Property.origin, of_decide_eq_true declared,
          (merges.declared_of_held found).2.1, (merges.declared_of_held held).2.1]
      refine ⟨rfl, below, ?_⟩
      rw [found, held, merges.eq_of_origin_eq found held origin]
  · rintro ⟨-, below, same⟩
    have found := same.trans held
    have registered := mem_keys_of_property? found
    refine ⟨registered, Or.inr ⟨(merges.isWithin_iff registered).mpr below, ?_⟩⟩
    rw [found]
    simp

/-! ## What decisions ask for -/

/-- Decisions propose sides for a place, by settling what it holds a copy
of. -/
def Proposes (entities : Entities) (decisions : List Decision) (place : Place)
    (sides : Sides) : Prop :=
  ∃ settlement, .settle settlement ∈ decisions ∧
    entities.CopyOf place settlement.place ∧ settlement.sides = sides

end Entities

/-- The inverse that a decision adds. -/
def Decision.synthesis? : Decision → Option Synthesis
  | .settle _ => none
  | .synthesize synthesis => some synthesis

/-- The inverses that decisions add, in order. -/
def syntheses (decisions : List Decision) : List Synthesis :=
  decisions.filterMap Decision.synthesis?

/-- Whether an added inverse is to be held at a place. -/
def Synthesis.covers (entities : Entities) (place : Place)
    (synthesis : Synthesis) : Bool :=
  decide (synthesis.name = place.property) &&
    entities.isWithin place.entity synthesis.holder

namespace Synthesis

/-- Where an added inverse stands. -/
def place (synthesis : Synthesis) : Place :=
  ⟨synthesis.holder, synthesis.name⟩

theorem covers_iff {entities : Entities} {synthesis : Synthesis}
    {place : Place} :
    synthesis.covers entities place = true ↔
      synthesis.name = place.property ∧
        entities.isWithin place.entity synthesis.holder = true := by
  rw [covers, Bool.and_eq_true, decide_eq_true_eq]

/-- Of two inverses that are to be held at one place, one is to be held where the
other is added. -/
theorem covers_or_covers {entities : Entities} {own : Place → Option Property}
    (merges : entities.Merges own) {place : Place}
    (registered : place.entity ∈ entities.keys) {left right : Synthesis}
    (covers : left.covers entities place = true)
    (other : right.covers entities place = true) :
    right.covers entities left.place = true ∨
      left.covers entities right.place = true := by
  rcases covers_iff.mp covers with ⟨name, within⟩
  rcases covers_iff.mp other with ⟨otherName, otherWithin⟩
  have below := (merges.isWithin_iff registered).mp within
  have otherBelow := (merges.isWithin_iff registered).mp otherWithin
  have known := descends_mem merges.closed registered below
  have otherKnown := descends_mem merges.closed registered otherBelow
  rcases below.total otherBelow with climb | climb
  · exact Or.inl (covers_iff.mpr ⟨otherName.trans name.symm,
      (merges.isWithin_iff known).mpr climb⟩)
  · exact Or.inr (covers_iff.mpr ⟨name.trans otherName.symm,
      (merges.isWithin_iff otherKnown).mpr climb⟩)

end Synthesis

/-- A decision is about a relation that is held, or adds an inverse to an
entity. -/
def Entities.Addresses (entities : Entities) : Decision → Prop
  | .settle settlement =>
    ∃ property relation,
      entities.property? settlement.place = some property ∧
        property.relation? = some relation
  | .synthesize synthesis => synthesis.holder ∈ entities.keys

/-- Decisions that go together. -/
structure Entities.Accepts (entities : Entities) (decisions : List Decision) :
    Prop where
  agreed : ∀ place property relation,
    entities.property? place = some property →
      property.relation? = some relation →
        ∃ sides, relation.sides.Agreed (entities.Proposes decisions place) sides
  free : ∀ synthesis ∈ syntheses decisions,
    entities.property? synthesis.place = none
  apart : (syntheses decisions).Pairwise fun earlier later =>
    earlier.covers entities later.place = false

end EntityCatalog
