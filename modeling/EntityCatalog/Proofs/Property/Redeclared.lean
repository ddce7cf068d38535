import EntityCatalog.Proofs.Property.Changes
import EntityCatalog.Proofs.Property.Declared
import EntityCatalog.Relation.Settlement

/-!
# Properties declared as they were settled

The sides that a relation came to have can be declared in its options, in place
of what these said of the other side and of ownership
(`Options.redeclared`).  If the sides fit the kind of the relation, no rule for
options is broken, and what is read is the property as it was before it was
settled, with the names it was settled with (`Property.redeclared`).  An inverse
that was added can be declared, too (`Property.declaration`).
-/

namespace EntityCatalog

/-- The sides as they are declared for a relation of some kind: before pairing
only many-to-one sides own. -/
def Sides.declared (sides : Sides) (kind : RelationKind) : Sides :=
  { sides with owner := kind = .manyToOne }

/-! ## Options -/

namespace Options

/-- The options with declared sides, saying nothing of ownership. -/
def withSides (options : Options) (sides : Sides) : Options :=
  { options with
    owner := none
    mappedBy := sides.mappedBy
    inversedBy := sides.inversedBy }

/-- The options of a relation with the sides that a property came to have. -/
def redeclared (options : Options) (property : Property) : Options :=
  match property.relation? with
  | none => options
  | some relation => options.withSides relation.sides

/-- Sides that fit the kind of a relation can be declared in its options. -/
theorem firstBroken_withSides {options : Options} {kind : RelationKind}
    (passed : options.firstBroken (.relation kind) = none) {sides : Sides}
    (lawful : (sides.declared kind).Lawful kind) :
    (options.withSides sides).firstBroken (.relation kind) = none := by
  have silent : (options.rules (.relation kind)).find? Prod.fst = none :=
    Option.map_eq_none_iff.mp passed
  have unbroken := List.find?_eq_none.mp silent
  refine Option.map_eq_none_iff.mpr (List.find?_eq_none.mpr ?_)
  simp only [rules, List.forall_mem_cons] at unbroken ⊢
  rcases unbroken with
    ⟨items, -, -, -, -, -, -, -, -, deleteRule, updateRule, rest⟩
  rcases lawful with ⟨-, manyToOne, oneToMany, noInverse, oneHint⟩
  dsimp only [Sides.declared] at manyToOne oneToMany noInverse oneHint
  -- Only the rules on the other side and on ownership look at what is new.
  refine ⟨items, ?_, ?_, ?_, ?_, ?_, ?_, ?_, ?_, deleteRule, updateRule, rest⟩
  · cases kind <;> simp [withSides, PropertyKind.isRelation, manyToOne]
  · rcases oneHint with absent | absent <;> simp [withSides, absent]
  · simp [withSides]
  · simp [withSides]
  · simp [withSides]
  · cases kind <;> simp [withSides, oneToMany]
  · cases kind <;> simp [withSides, PropertyKind.isRelation, noInverse]
  · simp [withSides]

end Options

/-! ## Properties -/

namespace Property

/-- The property without a word on ownership and without the mark of having been
added. -/
def unclaimed (property : Property) : Property :=
  match property.nature with
  | .relation part =>
    { property with
      nature := .relation { part with ownerHint := none }
      synthesized := false }
  | _ => { property with synthesized := false }

/-- The property with its target still to be looked up, unclaimed. -/
def reopened (property : Property) : Property :=
  (property.withTarget none).unclaimed

/-- The property as it is before pairing, if it is declared with the names of
its sides. -/
def redeclared (property : Property) : Property :=
  match property.relation? with
  | none => property.reopened
  | some relation =>
    property.reopened.withSides (relation.sides.declared relation.kind)

/-- The declaration of an inverse that was added. -/
def declaration (property : Property) : Options :=
  { kind := some (.relation .manyToMany)
    entity := property.targetName?.map .name
    mappedBy := property.mappedBy? }

section

variable (property : Property)

@[simp]
theorem name_unclaimed : property.unclaimed.name = property.name := by
  unfold unclaimed
  split <;> rfl

@[simp]
theorem declaredBy_unclaimed :
    property.unclaimed.declaredBy = property.declaredBy := by
  unfold unclaimed
  split <;> rfl

@[simp]
theorem primary_unclaimed : property.unclaimed.primary = property.primary := by
  unfold unclaimed
  split <;> rfl

@[simp]
theorem kind_unclaimed : property.unclaimed.kind = property.kind := by
  rcases property with ⟨name, nature⟩
  cases nature <;> rfl

@[simp]
theorem target?_unclaimed : property.unclaimed.target? = property.target? := by
  rcases property with ⟨name, nature⟩
  cases nature <;> rfl

/-- Items can be filled in before or after. -/
theorem withItems_unclaimed (items : Option (List EnumItem)) :
    property.unclaimed.withItems items =
      (property.withItems items).unclaimed := by
  rcases property with ⟨name, nature⟩
  cases nature <;> rfl

@[simp]
theorem name_reopened : property.reopened.name = property.name := by
  rw [reopened, name_unclaimed, name_withTarget]

@[simp]
theorem declaredBy_reopened :
    property.reopened.declaredBy = property.declaredBy := by
  rw [reopened, declaredBy_unclaimed, declaredBy_withTarget]

@[simp]
theorem origin_reopened : property.reopened.origin = property.origin := by
  rw [origin, origin, name_reopened, declaredBy_reopened]

theorem target?_reopened :
    property.reopened.target? =
      property.target?.map ({ · with entity := none }) := by
  rcases property with ⟨name, nature⟩
  cases nature <;> rfl

/-- A property without a target has none to look up. -/
theorem reopened_of_target?_eq_none (pointless : property.target? = none) :
    property.reopened = property.unclaimed := by
  rcases property with ⟨name, nature⟩
  cases nature <;> first | rfl | cases pointless

/-- Filled in, a target is the same again. -/
theorem withTarget_reopened (entity : String) :
    property.reopened.withTarget (some entity) =
      (property.withTarget (some entity)).unclaimed := by
  rcases property with ⟨name, nature⟩
  cases nature <;> rfl

@[simp]
theorem target?_redeclared :
    property.redeclared.target? = property.reopened.target? := by
  rw [redeclared]
  split
  · rfl
  · rw [target?_withSides]

end

variable {property other : Property} {entity name : String}
  {options : Options}

/-- The sides that a declared relation came to have can be declared, if they fit
its kind. -/
theorem ofOptions_redeclared
    (read : (ofOptions entity name options).toOption = some property)
    {sides : Sides}
    (lawful : ∀ relation, property.relation? = some relation →
      (sides.declared relation.kind).Lawful relation.kind)
    (shown : other.relation?.map (·.sides) =
      (property.withSides sides).relation?.map (·.sides)) :
    (ofOptions entity name (options.redeclared other)).toOption =
      some (property.withSides sides).redeclared := by
  rw [relation?_withSides] at shown
  rcases toOption_ofOptions_eq_some_iff.mp read with
    ⟨nature, told, passed, rfl⟩
  cases nature with
  | relation kind target =>
      rcases Option.map_eq_some_iff.mp shown with ⟨relation, related, same⟩
      have options_eq : options.redeclared other = options.withSides sides := by
        rw [Options.redeclared, related]
        exact congrArg options.withSides same
      rw [options_eq]
      exact toOption_ofOptions_eq_some_iff.mpr ⟨.relation kind target, told,
        Options.firstBroken_withSides passed (lawful _ rfl), rfl⟩
  | _ =>
      have options_eq : options.redeclared other = options := by
        rw [Options.redeclared, Option.map_eq_none_iff.mp shown]
      rw [options_eq]
      exact read

/-- An inverse can be declared as it was added. -/
theorem ofOptions_declaration (synthesis : Synthesis)
    (aims : property.targetName? = some synthesis.source.entity)
    (mapped : property.mappedBy? = some synthesis.source.property) :
    (ofOptions synthesis.holder synthesis.name property.declaration).toOption =
      some synthesis.property.redeclared := by
  rw [declaration, aims, mapped]
  rfl

/-- Settled again, a redeclared relation is as it was, but for its target. -/
theorem withSides_redeclared {relation : Relation}
    (related : property.relation? = some relation) :
    property.redeclared.withSides relation.sides = property.reopened := by
  rw [redeclared, related]
  dsimp only
  rw [withSides_withSides]
  rcases property with ⟨name, nature⟩
  cases nature <;> cases related
  rfl

/-- What is no relation is redeclared as it is. -/
theorem redeclared_of_relation?_eq_none (unrelated : property.relation? = none) :
    property.redeclared = property.reopened := by
  rw [redeclared, unrelated]

end Property

end EntityCatalog
