import EntityCatalog.Proofs.Relation.Verdict

/-!
# Ways of being paired

`Scope.Paired` lists what a verdict without defect can be, one case for each
way in which a relation finds its other side or does without one, with all
that is known in the case.  Whatever is to be shown of decisions is shown case
by case.
-/

namespace EntityCatalog

/-- The name that a hint gives, if it is given. -/
def Hint.slot (hint : Hint) (sides : Sides) : Option String :=
  match hint with
  | .mappedBy => sides.mappedBy
  | .inversedBy => sides.inversedBy

theorem slot_of_isUnhinted {sides : Sides}
    (unhinted : sides.isUnhinted = true) (hint : Hint) :
    hint.slot sides = none := by
  rcases Pairing.mappedBy_of_isUnhinted unhinted with ⟨unmapped, uninverted⟩
  cases hint with
  | mappedBy => exact unmapped
  | inversedBy => exact uninverted

namespace Pairing

/-! ## Other sides -/

/-- The other side that a hint names, where the two can be paired. -/
structure Scope.Answers (scope : Scope) (side : Side) (target : Entity)
    (hint : Hint) (name : String) (other : Side) (found : String) : Prop where
  entity : other.entity = target
  named : target.property? name = some other.property
  relation : other.property.relation? = some other.relation
  kind : other.relation.kind = side.relation.kind.reciprocal
  aim : scope.aim other.property other.relation = some found
  related : scope.entities.isRelated found side.entity.name = true
  agreed : objection hint side.property.name other.relation = none

/-- A possible other side of a relation without hints. -/
structure Scope.Rivals (scope : Scope) (side : Side) (target : Entity)
    (other : Side) (found : String) : Prop where
  entity : other.entity = target
  holds : other.property ∈ target.properties.items
  relation : other.property.relation? = some other.relation
  kind : other.relation.kind = side.relation.kind
  different : other.place ≠ side.place
  aim : scope.aim other.property other.relation = some found
  related : scope.entities.isRelated found side.entity.name = true

theorem Scope.rivals_of_mem {scope : Scope} {side other : Side}
    {target : Entity} (member : other ∈ scope.rivals side target) :
    ∃ found, scope.Rivals side target other found := by
  rcases List.mem_filterMap.mp member with ⟨property, holds, rival⟩
  rcases Option.bind_eq_some_iff.mp rival with ⟨relation, related, chosen⟩
  split at chosen
  · rename_i conditions
    cases chosen
    rcases conditions with ⟨kind, different, pointsBack⟩
    rcases (Option.any_eq_true _ _).mp pointsBack with ⟨found, aim, back⟩
    exact ⟨found, rfl, holds, related, kind, different, aim, back⟩
  · cases chosen

/-- What could be the other side is among the rivals. -/
theorem Scope.Rivals.mem_rivals {scope : Scope} {side other : Side}
    {target : Entity} {found : String}
    (rivals : scope.Rivals side target other found) :
    other ∈ scope.rivals side target := by
  rcases other with ⟨entity, property, relation⟩
  rcases rivals.entity with rfl
  refine List.mem_filterMap.mpr ⟨property, rivals.holds, ?_⟩
  have back : (scope.aim property relation).any
      (scope.entities.isRelated · side.entity.name) = true := by
    rw [show scope.aim property relation = some found from rivals.aim]
    exact rivals.related
  rw [Scope.rival?, show property.relation? = some relation from
    rivals.relation, Option.bind_some]
  exact if_pos ⟨rivals.kind, rivals.different, back⟩

theorem Scope.answers_of_reply {scope : Scope} {side other : Side}
    {target : Entity} {hint : Hint} {name : String}
    (reply : scope.reply side target hint name = .found other)
    (agreed : objection hint side.property.name other.relation = none) :
    ∃ found, scope.Answers side target hint name other found := by
  unfold Scope.reply at reply
  cases named : target.property? name with
  | none =>
      rw [named] at reply
      dsimp only at reply
      split at reply <;> cases reply
  | some property =>
      rw [named] at reply
      dsimp only at reply
      cases related : property.relation? with
      | none =>
          rw [related] at reply
          cases reply
      | some relation =>
          rw [related] at reply
          dsimp only at reply
          split at reply
          · rename_i kind
            cases aim : scope.aim property relation with
            | none =>
                rw [aim] at reply
                cases reply
            | some found =>
                rw [aim] at reply
                dsimp only at reply
                split at reply
                · rename_i back
                  cases reply
                  exact ⟨found, rfl, named, related, kind, aim, back, agreed⟩
                · cases reply
          · cases reply

/-! ## Verdicts without defect -/

/-- Whether a relation gets an inverse if no other side is in sight. -/
def Scope.adds (scope : Scope) (side : Side) : Bool :=
  side.relation.kind = .manyToMany && scope.config.synthesizeInverse &&
    !side.entity.isAbstract

/-- How a relation is paired, and what is then decided. -/
inductive Scope.Paired (scope : Scope) (side : Side) (target : Entity) :
    List Decision → Prop where
  | hinted (hint : Hint) (name : String) (other : Side) (found : String)
      (hints : hint.slot side.relation.sides = some name)
      (answers : scope.Answers side target hint name other found) :
      scope.Paired side target [
        settle side (hint = .inversedBy) none other.place,
        settle other (!decide (hint = .inversedBy)) (some side.property.name)
          side.place]
  /-- What a hint names is broken, and nothing is decided. -/
  | unheard (hint : Hint) (name : String)
      (hints : hint.slot side.relation.sides = some name)
      (silence : scope.reply side target hint name = .silent) :
      scope.Paired side target []
  | silent (unhinted : side.relation.sides.isUnhinted = true)
      (kind : side.relation.kind = .manyToOne ∨
        side.relation.kind = .oneToMany) :
      scope.Paired side target []
  | answered (other : Side) (found : String) (owner : Bool)
      (unhinted : side.relation.sides.isUnhinted = true)
      (kind : side.relation.kind = .oneToOne ∨
        side.relation.kind = .manyToMany)
      (rival : scope.Rivals side target other found)
      (answer : other.answer side.property.name = some owner) :
      scope.Paired side target [
        settle side owner (some other.property.name) other.place]
  | alone (unhinted : side.relation.sides.isUnhinted = true)
      (kind : side.relation.kind = .oneToOne ∨
        side.relation.kind = .manyToMany)
      (lonely : ∀ rival ∈ scope.rivals side target,
        rival.relation.sides.isUnhinted = false)
      (content : scope.adds side = false) :
      scope.Paired side target [settle side true none side.place]
  | added (name : String)
      (unhinted : side.relation.sides.isUnhinted = true)
      (kind : side.relation.kind = .manyToMany)
      (lonely : ∀ rival ∈ scope.rivals side target,
        rival.relation.sides.isUnhinted = false)
      (concrete : side.entity.isAbstract = false)
      (naming : name = scope.config.inverseNaming.inverseName
        side.entity.name side.property.name)
      (fresh : target.property? name = none) :
      scope.Paired side target [
        settle side true none side.place,
        settle side true (some name) ⟨target.name, name⟩,
        .synthesize ⟨target.name, name, side.place⟩]
  | between (other : Side) (found : String) (owner : Bool)
      (unhinted : side.relation.sides.isUnhinted = true)
      (kind : side.relation.kind = .oneToOne ∨
        side.relation.kind = .manyToMany)
      (rival : scope.Rivals side target other found)
      (otherUnhinted : other.relation.sides.isUnhinted = true)
      (only : ∀ rival ∈ scope.rivals side target,
        rival.relation.sides.isUnhinted = true → rival = other)
      (claim : owns side.relation.ownerHint other.relation.ownerHint =
        .ok owner) :
      scope.Paired side target [
        settle side owner (some other.property.name) other.place,
        settle other (!owner) (some side.property.name) side.place]

namespace Scope

variable {scope : Scope} {side : Side} {target : Entity}

theorem paired_of_hintedVerdict {hint : Hint} {name : String}
    (hints : hint.slot side.relation.sides = some name)
    (sound : (scope.hintedVerdict side target hint name).defect = none) :
    scope.Paired side target
      (scope.hintedVerdict side target hint name).decisions := by
  unfold hintedVerdict at sound ⊢
  cases reply : scope.reply side target hint name with
  | silent => exact .unheard hint name hints reply
  | failure defect =>
      rw [reply] at sound
      cases sound
  | found other =>
      rw [reply] at sound
      dsimp only at sound ⊢
      cases objected : objection hint side.property.name other.relation with
      | some ambiguity =>
          rw [objected] at sound
          cases sound
      | none =>
          rcases answers_of_reply reply objected with ⟨found, answers⟩
          exact .hinted hint name other found hints answers

theorem paired_of_decideAlone
    (unhinted : side.relation.sides.isUnhinted = true)
    (kind : side.relation.kind = .oneToOne ∨ side.relation.kind = .manyToMany)
    (lonely : ∀ rival ∈ scope.rivals side target,
      rival.relation.sides.isUnhinted = false)
    (sound : (scope.decideAlone side target).defect = none) :
    scope.Paired side target (scope.decideAlone side target).decisions := by
  unfold decideAlone at sound ⊢
  split at sound
  · cases sound
  · rename_i claims
    rw [if_neg claims]
    dsimp only at sound ⊢
    split at sound
    · rename_i adding
      rw [if_pos adding]
      simp only [Bool.and_eq_true, decide_eq_true_eq, Bool.not_eq_true'] at adding
      unfold synthesis at sound ⊢
      dsimp only at sound ⊢
      split at sound
      · cases sound
      · rename_i absent
        rw [if_neg absent]
        refine .added _ unhinted adding.1.1 lonely adding.2 rfl ?_
        rw [Table.contains_eq, Bool.not_eq_true, Option.isSome_eq_false_iff,
          Option.isNone_iff_eq_none] at absent
        exact absent
    · rename_i staying
      rw [if_neg staying]
      exact .alone unhinted kind lonely (eq_false_of_ne_true staying)

theorem paired_of_decideUnhinted
    (unhinted : side.relation.sides.isUnhinted = true)
    (kind : side.relation.kind = .oneToOne ∨ side.relation.kind = .manyToMany)
    (sound : (scope.decideUnhinted side target
      (scope.rivals side target)).defect = none) :
    scope.Paired side target (scope.decideUnhinted side target
      (scope.rivals side target)).decisions := by
  unfold decideUnhinted at sound ⊢
  dsimp only at sound ⊢
  cases answer : (scope.rivals side target).findSome? fun candidate =>
      (candidate.answer side.property.name).map fun owner =>
        (candidate, owner) with
  | some decided =>
      rcases List.exists_of_findSome?_eq_some answer with
        ⟨other, member, answered⟩
      rcases Option.map_eq_some_iff.mp answered with ⟨owner, given, rfl⟩
      rcases rivals_of_mem member with ⟨found, rival⟩
      exact .answered other found owner unhinted kind rival given
  | none =>
      rw [answer] at sound
      dsimp only at sound ⊢
      cases open_sides : (scope.rivals side target).filter
          (·.relation.sides.isUnhinted) with
      | nil =>
          rw [open_sides] at sound
          refine paired_of_decideAlone unhinted kind ?_ sound
          intro rival member
          simpa using List.filter_eq_nil_iff.mp open_sides rival member
      | cons other rest =>
          rw [open_sides] at sound
          have member : other ∈ (scope.rivals side target).filter
              (·.relation.sides.isUnhinted) := by
            rw [open_sides]
            exact List.mem_cons_self ..
          cases rest with
          | cons second others => cases sound
          | nil =>
              rcases rivals_of_mem (List.mem_filter.mp member).1 with
                ⟨found, rival⟩
              dsimp only at sound ⊢
              unfold decideBetween at sound ⊢
              cases claim : owns side.relation.ownerHint
                  other.relation.ownerHint with
              | error ambiguity =>
                  rw [claim] at sound
                  cases sound
              | ok owner =>
                  refine .between other found owner unhinted kind rival
                    (List.mem_filter.mp member).2 ?_ claim
                  intro second inside secondUnhinted
                  have kept : second ∈ (scope.rivals side target).filter
                      (·.relation.sides.isUnhinted) :=
                    List.mem_filter.mpr ⟨inside, secondUnhinted⟩
                  rw [open_sides] at kept
                  exact List.mem_singleton.mp kept

/-- A verdict without defect is one of the ways of being paired. -/
theorem paired_of_verdict
    (sound : (scope.verdict side target).defect = none) :
    scope.Paired side target (scope.verdict side target).decisions := by
  unfold verdict at sound ⊢
  cases mappedBy : side.relation.sides.mappedBy with
  | some name =>
      rw [mappedBy] at sound
      exact paired_of_hintedVerdict mappedBy sound
  | none =>
      cases inversedBy : side.relation.sides.inversedBy with
      | some name =>
          rw [mappedBy, inversedBy] at sound
          exact paired_of_hintedVerdict inversedBy sound
      | none =>
          rw [mappedBy, inversedBy] at sound
          dsimp only at sound ⊢
          have unhinted : side.relation.sides.isUnhinted = true := by
            rw [Sides.isUnhinted, mappedBy, inversedBy]
            rfl
          cases kind : side.relation.kind with
          | manyToOne => exact .silent unhinted (Or.inl kind)
          | oneToMany => exact .silent unhinted (Or.inr kind)
          | oneToOne =>
              rw [kind] at sound
              exact paired_of_decideUnhinted unhinted (Or.inl kind) sound
          | manyToMany =>
              rw [kind] at sound
              exact paired_of_decideUnhinted unhinted (Or.inr kind) sound

end Scope

end Pairing

end EntityCatalog
