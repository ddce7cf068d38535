import EntityCatalog.Relation.Settlement

/-!
# Proposals that agree

The sides of a relation are settled by proposals, one after another.
`Sides.Agreed` says what they come to without an order: every proposal has the
ownership of the result, and each slot of the result holds the name it held
before and every name that was proposed for it, so all these names are the
same.  Settling the sides once more keeps to this reading
(`Agreed.settle_iff`), and fails exactly if there is no such result.
-/

namespace EntityCatalog.Sides

/-! ## Settling once -/

/-- Filling a slot gives a slot that holds both names. -/
theorem fill_eq_ok_iff {slot name result : Option String} :
    fill slot name = .ok result ↔
      ∀ text, result = some text ↔ slot = some text ∨ name = some text := by
  constructor
  · intro filled
    cases slot <;> cases name <;> simp only [fill] at filled
    · cases filled
      simp
    · cases filled
      simp
    · cases filled
      simp
    · split at filled
      · rename_i same
        cases filled
        simp [same]
      · cases filled
  · intro holds
    cases name with
    | none =>
        have same : result = slot := Option.ext fun text => by
          simpa using holds text
        rw [fill, same]
    | some name =>
        have here : result = some name := (holds name).mpr (Or.inr rfl)
        subst here
        cases slot with
        | none => rfl
        | some present =>
            have same := (holds present).mpr (Or.inl rfl)
            cases same
            rw [fill, if_pos rfl]

/-- When settling sides again succeeds, and what it gives. -/
theorem settle_eq_iff {current proposed result : Sides}
    {decided : Option Bool} :
    current.settle decided proposed = (result, none) ↔
      (∀ owner, decided = some owner → owner = proposed.owner) ∧
        result.owner = proposed.owner ∧
        fill current.mappedBy proposed.mappedBy = .ok result.mappedBy ∧
        fill current.inversedBy proposed.inversedBy = .ok result.inversedBy := by
  unfold settle
  split
  · rename_i disagree
    rcases (Option.any_eq_true _ _).mp disagree with ⟨owner, before, differs⟩
    constructor
    · intro equal
      cases equal
    · rintro ⟨same, -⟩
      exact absurd (same owner before) (of_decide_eq_true differs)
  · rename_i agree
    have same : ∀ owner, decided = some owner → owner = proposed.owner := by
      intro owner before
      refine Decidable.byContradiction fun differs => ?_
      exact agree ((Option.any_eq_true _ _).mpr
        ⟨owner, before, decide_eq_true differs⟩)
    cases fill current.mappedBy proposed.mappedBy with
    | error other => simp
    | ok mappedBy =>
        dsimp only
        cases fill current.inversedBy proposed.inversedBy with
        | error other => simp
        | ok inversedBy =>
            rcases result with ⟨owner, mapped, inversed⟩
            constructor
            · intro equal
              cases equal
              exact ⟨same, rfl, rfl, rfl⟩
            · rintro ⟨-, owns, maps, inverts⟩
              cases owns
              cases maps
              cases inverts
              rfl

/-! ## Settling by many proposals -/

/-- What proposals for the sides of a relation come to if all of them agree. -/
structure Agreed (initial : Sides) (proposed : Sides → Prop) (final : Sides) :
    Prop where
  owner : ∀ sides, proposed sides → final.owner = sides.owner
  untouched : (∀ sides, ¬ proposed sides) → final.owner = initial.owner
  mappedBy : ∀ name, final.mappedBy = some name ↔
    initial.mappedBy = some name ∨
      ∃ sides, proposed sides ∧ sides.mappedBy = some name
  inversedBy : ∀ name, final.inversedBy = some name ↔
    initial.inversedBy = some name ∨
      ∃ sides, proposed sides ∧ sides.inversedBy = some name

/-- A slot holds what is one name at most. -/
theorem exists_slot_of_unique {all : String → Prop}
    (unique : ∀ first second, all first → all second → first = second) :
    ∃ slot : Option String, ∀ name, slot = some name ↔ all name := by
  by_cases given : ∃ name, all name
  · rcases given with ⟨name, here⟩
    refine ⟨some name, fun other => ?_⟩
    constructor
    · intro equal
      cases equal
      exact here
    · intro there
      rw [unique name other here there]
  · refine ⟨none, fun other => ?_⟩
    constructor
    · intro equal
      cases equal
    · intro there
      exact absurd ⟨other, there⟩ given

/-- A slot for some of the names that another slot holds. -/
theorem exists_slot {slot : Option String} {all : String → Prop}
    (holds : ∀ name, slot = some name ↔ all name) (fewer : String → Prop)
    (subset : ∀ name, fewer name → all name) :
    ∃ smaller : Option String, ∀ name, smaller = some name ↔ fewer name := by
  refine exists_slot_of_unique fun first second here there => ?_
  exact Option.some.inj (((holds first).mpr (subset first here)).symm.trans
    ((holds second).mpr (subset second there)))

namespace Agreed

variable {initial current final : Sides} {proposed fewer : Sides → Prop}

theorem of_nothing (initial : Sides) (nothing : ∀ sides, ¬ proposed sides) :
    Agreed initial proposed initial where
  owner := fun sides given => absurd given (nothing sides)
  untouched := fun _ => rfl
  mappedBy := fun name => by simp [nothing]
  inversedBy := fun name => by simp [nothing]

theorem congr {other : Sides → Prop} (agreed : Agreed initial proposed final)
    (same : ∀ sides, proposed sides ↔ other sides) :
    Agreed initial other final := by
  have equal : proposed = other := funext fun sides => propext (same sides)
  exact equal ▸ agreed

/-- Proposals come to one result at most. -/
theorem unique {other : Sides} (left : Agreed initial proposed final)
    (right : Agreed initial proposed other) :
    final = other := by
  have owner : final.owner = other.owner := by
    by_cases given : ∃ sides, proposed sides
    · rcases given with ⟨sides, here⟩
      rw [left.owner sides here, right.owner sides here]
    · have nothing := not_exists.mp given
      rw [left.untouched nothing, right.untouched nothing]
  have mappedBy : final.mappedBy = other.mappedBy :=
    Option.ext fun name => (left.mappedBy name).trans (right.mappedBy name).symm
  have inversedBy : final.inversedBy = other.inversedBy :=
    Option.ext fun name =>
      (left.inversedBy name).trans (right.inversedBy name).symm
  rcases final with ⟨_, _, _⟩
  rcases other with ⟨_, _, _⟩
  simp_all

/-- What comes to name nothing named nothing. -/
theorem isUnhinted (agreed : Agreed initial proposed final)
    (unhinted : final.isUnhinted = true) : initial.isUnhinted = true := by
  rw [Sides.isUnhinted, Bool.and_eq_true, Option.isNone_iff_eq_none,
    Option.isNone_iff_eq_none] at unhinted ⊢
  constructor
  · refine Option.eq_none_iff_forall_ne_some.mpr fun name given => ?_
    cases unhinted.1.symm.trans ((agreed.mappedBy name).mpr (Or.inl given))
  · refine Option.eq_none_iff_forall_ne_some.mpr fun name given => ?_
    cases unhinted.2.symm.trans ((agreed.inversedBy name).mpr (Or.inl given))

/-- Among proposals that agree any choice of them agrees. -/
theorem exists_of_fewer (agreed : Agreed initial proposed final)
    (subset : ∀ sides, fewer sides → proposed sides) :
    ∃ smaller, Agreed initial fewer smaller := by
  have names : ∀ (slot : Sides → Option String) (name : String),
      slot initial = some name ∨
          (∃ sides, fewer sides ∧ slot sides = some name) →
        slot initial = some name ∨
          ∃ sides, proposed sides ∧ slot sides = some name := by
    rintro slot name (first | ⟨sides, given, named⟩)
    · exact Or.inl first
    · exact Or.inr ⟨sides, subset sides given, named⟩
  rcases exists_slot agreed.mappedBy _ (names Sides.mappedBy) with
    ⟨mappedBy, maps⟩
  rcases exists_slot agreed.inversedBy _ (names Sides.inversedBy) with
    ⟨inversedBy, inverts⟩
  by_cases given : ∃ sides, fewer sides
  · refine ⟨⟨final.owner, mappedBy, inversedBy⟩, ?_, ?_, maps, inverts⟩
    · intro sides here
      exact agreed.owner sides (subset sides here)
    · intro nothing
      exact absurd given (not_exists.mpr nothing)
  · refine ⟨⟨initial.owner, mappedBy, inversedBy⟩, ?_, fun _ => rfl, maps,
      inverts⟩
    intro sides here
    exact absurd ⟨sides, here⟩ given

/-- Settling agreed sides once more succeeds exactly if the new proposal
agrees, too, and gives what all proposals together come to. -/
theorem settle_iff (agreed : Agreed initial proposed current)
    {decided : Option Bool} {next result : Sides}
    (known : ∀ owner, decided = some owner ↔
      ∃ sides, proposed sides ∧ sides.owner = owner) :
    current.settle decided next = (result, none) ↔
      Agreed initial (fun sides => proposed sides ∨ sides = next) result := by
  rw [settle_eq_iff, fill_eq_ok_iff, fill_eq_ok_iff]
  constructor
  · rintro ⟨same, owner, mappedBy, inversedBy⟩
    refine ⟨?_, ?_, ?_, ?_⟩
    · rintro sides (given | rfl)
      · rw [owner, ← same sides.owner ((known _).mpr ⟨sides, given, rfl⟩)]
      · exact owner
    · intro nothing
      exact absurd (Or.inr rfl) (nothing next)
    · intro name
      rw [mappedBy, agreed.mappedBy]
      simp only [or_and_right, exists_or, exists_eq_left, or_assoc]
    · intro name
      rw [inversedBy, agreed.inversedBy]
      simp only [or_and_right, exists_or, exists_eq_left, or_assoc]
  · intro together
    have owner := together.owner next (Or.inr rfl)
    refine ⟨?_, owner, ?_, ?_⟩
    · intro before here
      rcases (known before).mp here with ⟨sides, given, rfl⟩
      rw [← owner, together.owner sides (Or.inl given)]
    · intro name
      rw [together.mappedBy, agreed.mappedBy]
      simp only [or_and_right, exists_or, exists_eq_left, or_assoc]
    · intro name
      rw [together.inversedBy, agreed.inversedBy]
      simp only [or_and_right, exists_or, exists_eq_left, or_assoc]

/-- A proposal without names only decides on ownership. -/
theorem nameless (initial : Sides) (owner : Bool) :
    Agreed initial (fun sides => sides = ⟨owner, none, none⟩)
      ⟨owner, initial.mappedBy, initial.inversedBy⟩ where
  owner := by
    rintro sides rfl
    rfl
  untouched := fun nothing => absurd rfl (nothing ⟨owner, none, none⟩)
  mappedBy := fun name => by simp
  inversedBy := fun name => by simp

/-- Sides without hints are told to own, with one name or none. -/
theorem owning (unmapped : initial.mappedBy = none)
    (uninverted : initial.inversedBy = none) (name : String) :
    Agreed initial
      (fun sides => sides = ⟨true, none, none⟩ ∨ sides = ⟨true, none, some name⟩)
      ⟨true, none, some name⟩ where
  owner := by
    rintro sides (rfl | rfl)
    · rfl
    · rfl
  untouched := fun nothing => absurd (Or.inl rfl) (nothing ⟨true, none, none⟩)
  mappedBy := fun other => by simp [unmapped]
  inversedBy := fun other => by simp [uninverted]

end Agreed

end EntityCatalog.Sides
