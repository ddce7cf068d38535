import EntityCatalog.Proofs.Property.Changes
import EntityCatalog.Proofs.Property.Declared

/-!
# Hints of declared properties

The options of a relation may name its other side and say whether it owns.  A
property that was declared bears the hints of its options, whatever its kind: on
anything but a relation the rules for options allow none
(`Property.bears_of_ofOptions`).  They also exclude hints that contradict each
other (`Relation.Consistent`).
-/

namespace EntityCatalog

/-- Ownership as declared. -/
def Property.ownerHint? (property : Property) : Option Bool :=
  property.relation?.bind (·.ownerHint)

/-- A property with the hints of some options. -/
structure Property.Bears (property : Property) (options : Options) : Prop where
  mappedBy : property.mappedBy? = options.mappedBy
  inversedBy : property.inversedBy? = options.inversedBy
  owner : property.ownerHint? = options.owner

/-- Hints of a relation that do not contradict each other. -/
structure Relation.Consistent (relation : Relation) : Prop where
  owning : relation.ownerHint = some true → relation.sides.mappedBy = none
  inverse : relation.ownerHint = some false → relation.sides.inversedBy = none
  manyToOne : relation.kind = .manyToOne → relation.ownerHint ≠ some false

namespace Options

variable {options : Options}

/-- Options that break no rule do not contradict themselves. -/
theorem consistent_of_firstBroken {kind : RelationKind}
    (passed : options.firstBroken (.relation kind) = none) :
    (options.owner = some true → options.mappedBy = none) ∧
      (options.owner = some false → options.inversedBy = none) ∧
      (kind = .manyToOne → options.owner ≠ some false) := by
  have silent : (options.rules (.relation kind)).find? Prod.fst = none :=
    Option.map_eq_none_iff.mp passed
  have unbroken := List.find?_eq_none.mp silent
  simp only [rules, List.forall_mem_cons] at unbroken
  rcases unbroken with ⟨-, -, -, owning, inverse, manyToOne, -⟩
  refine ⟨?_, ?_, ?_⟩
  · intro claims
    simpa [claims] using owning
  · intro declines
    simpa [declines] using inverse
  · rintro rfl
    simpa using manyToOne

/-- Options of what is no relation have no hints, if they break no rule. -/
theorem unhinted_of_firstBroken {kind : PropertyKind}
    (passed : options.firstBroken kind = none)
    (plain : kind.isRelation = false) :
    options.mappedBy = none ∧ options.inversedBy = none ∧
      options.owner = none := by
  have silent : (options.rules kind).find? Prod.fst = none :=
    Option.map_eq_none_iff.mp passed
  have unbroken := List.find?_eq_none.mp silent
  simp only [rules, List.forall_mem_cons, plain, Bool.false_and, Bool.not_false,
    Bool.true_and, Bool.true_or, Bool.and_true] at unbroken
  rcases unbroken with ⟨-, mappedBy, -, -, -, -, -, inverse, owner, -⟩
  exact ⟨by simpa using mappedBy, by simpa using inverse, by simpa using owner⟩

end Options

namespace Property

variable {entity name : String} {options : Options} {property : Property}

/-- A property read off options bears their hints. -/
theorem bears_of_ofOptions
    (read : (ofOptions entity name options).toOption = some property) :
    property.Bears options := by
  rcases exists_nature_of_ofOptions read with ⟨nature, passed, rfl⟩
  cases nature with
  | relation kind target => exact ⟨rfl, rfl, rfl⟩
  | _ =>
      rcases Options.unhinted_of_firstBroken passed rfl with
        ⟨mappedBy, inversedBy, owner⟩
      exact ⟨mappedBy.symm, inversedBy.symm, owner.symm⟩

/-- The hints of a property read off options are consistent. -/
theorem consistent_of_ofOptions
    (read : (ofOptions entity name options).toOption = some property)
    {relation : Relation} (related : property.relation? = some relation) :
    relation.Consistent := by
  rcases exists_nature_of_ofOptions read with ⟨nature, passed, rfl⟩
  cases nature with
  | relation kind target =>
      cases related
      rcases Options.consistent_of_firstBroken passed with
        ⟨owning, inverse, manyToOne⟩
      exact ⟨owning, inverse, manyToOne⟩
  | _ => cases related

end Property

end EntityCatalog
