import EntityCatalog.Proofs.Property.Core
import EntityCatalog.Proofs.Property.Declared
import EntityCatalog.Relation.Settlement

/-!
# Well-formed properties

What is left of some twenty options once they have passed all rules can be said
without an order.  The options give exactly the parts that the kind needs
(`Options.Fits`), the marks of the property go together with its kind
(`Property.Marked`), and so do the sides of a relation (`Sides.Fits`).  The marks
belong to the core of a property, so that no stage of a resolution touches them; the
shape follows the marks of any property (`Property.shape_follows`).
-/

namespace EntityCatalog

/-! ## Options -/

namespace Options

/-- Options that give exactly the parts that a property of some kind has. -/
structure Fits (options : Options) (kind : PropertyKind) : Prop where
  typeName : options.typeName.isSome = true ↔ kind = .scalar
  items : options.items.isSome = true ↔ kind = .enumeration
  entity : options.entity.isSome = true ↔ kind.hasTarget = true
  columnPrefix : options.columnPrefix.isSome = true → kind = .embedded
  embedded : kind = .embedded →
    options.owner = none ∧ options.mappedBy = none ∧ options.inversedBy = none

theorem unbroken_of_firstBroken {options : Options} {kind : PropertyKind}
    (passed : options.firstBroken kind = none) :
    ∀ rule ∈ options.rules kind, ¬ rule.1 = true :=
  List.find?_eq_none.mp (Option.map_eq_none_iff.mp passed)

/-- Options that say what a property is give a type, a target or items, as its
kind needs. -/
theorem parts_of_nature {options : Options} {nature : DeclaredNature}
    (told : options.nature = .ok nature) :
    (options.typeName.isSome = true ↔ nature.kind = .scalar) ∧
      (options.entity.isSome = true ↔ nature.kind.hasTarget = true) ∧
      (nature.kind = .enumeration → options.items.isSome = true) := by
  unfold Options.nature at told
  split at told
  · rename_i typed untargeted _
    unfold scalarNature at told
    split at told <;> cases told
    all_goals
      rw [typed, untargeted]
      simp [DeclaredNature.kind, PropertyKind.hasTarget]
  · rename_i untyped targeted _
    unfold targetNature at told
    rw [untyped, targeted]
    split at told <;> cases told
    all_goals simp [DeclaredNature.kind, PropertyKind.hasTarget]
  · rename_i untyped untargeted _
    unfold enumNature at told
    rw [untyped, untargeted]
    split at told
    · cases told
    · split at told
      · rename_i items given
        cases told
        simp [DeclaredNature.kind, PropertyKind.hasTarget, given]
      · cases told
  · cases told
  · cases told

theorem fits_of_passed {options : Options} {nature : DeclaredNature}
    (told : options.nature = .ok nature)
    (passed : options.firstBroken nature.kind = none) :
    options.Fits nature.kind := by
  have unbroken := unbroken_of_firstBroken passed
  simp only [rules, List.forall_mem_cons] at unbroken
  rcases unbroken with ⟨items, mappedBy, -, -, -, -, -, inversedBy, owner, -, -,
    -, -, -, -, columnPrefix, -⟩
  rcases parts_of_nature told with ⟨typed, targeted, enumerated⟩
  refine ⟨typed, ⟨fun given => ?_, enumerated⟩, targeted, fun given => ?_,
    fun embedded => ?_⟩
  · simpa [given] using items
  · simpa [given] using columnPrefix
  · rw [embedded] at mappedBy inversedBy owner
    exact ⟨by simpa [PropertyKind.isRelation] using owner,
      by simpa [PropertyKind.isRelation] using mappedBy,
      by simpa [PropertyKind.isRelation] using inversedBy⟩

end Options

/-! ## Marks -/

namespace Property

/-- A property whose marks go together with its kind. -/
structure Marked (property : Property) : Prop where
  array : property.array = true → property.isRelation = false
  primary : property.primary = true →
    property.nullable = false ∧ property.isCollection = false
  mapToKey : property.mapToKey = true →
    property.kind = .relation .manyToOne ∨ property.kind = .relation .oneToOne
  fixedOrder : ∀ relation, property.relation? = some relation →
    relation.fixedOrder = true → property.kind = .relation .manyToMany
  generated : property.isCollection = true →
    property.default = none ∧ property.onCreate = none
  setNull : ∀ relation, property.relation? = some relation →
    relation.deleteRule = some .setNull ∨
        relation.updateRule = some .setNull →
      property.nullable = true

/-- A property that was declared has marks that go together. -/
theorem marked_of_passed {entity name : String} {options : Options}
    {nature : DeclaredNature}
    (passed : options.firstBroken nature.kind = none) :
    (declare entity name options nature).Marked := by
  have unbroken := Options.unbroken_of_firstBroken passed
  simp only [Options.rules, List.forall_mem_cons] at unbroken
  rcases unbroken with ⟨-, -, -, -, -, -, -, -, -, -, -, -, fixedOrder, mapToKey,
    array, -, primary, default, onCreate, nullableKey, setNull, -⟩
  have kind : (declare entity name options nature).kind = nature.kind := by
    cases nature <;> rfl
  have nullable : (declare entity name options nature).nullable =
      options.nullable.getD false :=
    rfl
  refine ⟨fun marked => ?_, fun marked => ⟨?_, ?_⟩, fun marked => ?_, ?_,
    fun collection => ⟨?_, ?_⟩, ?_⟩
  · change options.array = true at marked
    rw [isRelation, kind]
    simpa [marked] using array
  · change options.primary = true at marked
    rw [nullable]
    cases given : options.nullable with
    | none => rfl
    | some allowed => simpa [marked, given] using nullableKey
  · change options.primary = true at marked
    rw [isCollection, kind]
    simpa [marked] using primary
  · change options.mapToKey = true at marked
    rw [kind]
    have allowed : ¬ (nature.kind ≠ .relation .manyToOne ∧
        nature.kind ≠ .relation .oneToOne) := by
      simpa [marked] using mapToKey
    exact (Decidable.not_and_iff_or_not.mp allowed).imp Decidable.not_not.mp
      Decidable.not_not.mp
  · intro relation related marked
    rw [kind]
    cases nature with
    | relation relationKind target =>
        cases related
        change options.fixedOrder = true at marked
        simpa [marked] using fixedOrder
    | _ => cases related
  · rw [isCollection, kind] at collection
    change options.default = none
    simpa [collection] using default
  · rw [isCollection, kind] at collection
    change options.onCreate = none
    simpa [collection] using onCreate
  · intro relation related rule
    rw [nullable]
    cases nature with
    | relation relationKind target =>
        cases related
        change options.deleteRule = some .setNull ∨
          options.updateRule = some .setNull at rule
        have allowed : options.nullable = some true := by
          refine Decidable.byContradiction fun forbidden => ?_
          simp [forbidden, rule] at setNull
        rw [allowed]
        rfl
    | _ => cases related

/-- The marks are a matter of the core. -/
theorem Marked.of_core {property other : Property} (marked : other.Marked)
    (same : property.core = other.core) : property.Marked := by
  have kind : property.kind = other.kind := by
    rw [← kind_core, same, kind_core]
  have nullable : property.nullable = other.nullable := by
    rw [← nullable_core, same, nullable_core]
  refine ⟨?_, ?_, ?_, ?_, ?_, ?_⟩
  · rw [← array_core, same, array_core, isRelation, kind]
    exact marked.array
  · rw [← primary_core, same, primary_core, nullable, isCollection, kind]
    exact marked.primary
  · rw [← mapToKey_core, same, mapToKey_core, kind]
    exact marked.mapToKey
  · intro relation related ordered
    rcases exists_relation_of_core same related with
      ⟨first, here, fixedOrder, -⟩
    rw [kind]
    exact marked.fixedOrder first here (fixedOrder.trans ordered)
  · rw [← default_core, same, default_core, ← onCreate_core, same,
      onCreate_core, isCollection, kind]
    exact marked.generated
  · intro relation related rule
    rcases exists_relation_of_core same related with
      ⟨first, here, -, deleteRule, updateRule⟩
    rw [nullable]
    rw [← deleteRule, ← updateRule] at rule
    exact marked.setNull first here rule

/-- An inverse that is added has no marks. -/
theorem marked_of_synthesis (synthesis : Synthesis) :
    Marked synthesis.property where
  array := nofun
  primary := nofun
  mapToKey := nofun
  fixedOrder := by
    intro relation related ordered
    cases related
    cases ordered
  generated := fun _ => ⟨rfl, rfl⟩
  setNull := by
    intro relation related rule
    cases related
    rcases rule with rule | rule <;> cases rule

end Property

/-! ## Shapes -/

namespace Shape

/-- A base shape is not wrapped. -/
theorem plain_base (kind : PropertyKind) (type : Option ScalarType) :
    (base kind type).isNullable = false ∧
      (base kind type).isOptional = false ∧
      (base kind type).isReference = false := by
  unfold base
  cases kind with
  | relation kind => cases kind <;> exact ⟨rfl, rfl, rfl⟩
  | _ => exact ⟨rfl, rfl, rfl⟩

/-- A wrapped base shape shows the marks that it was wrapped by. -/
theorem marks_wrap {shape : Shape} (unmarked : shape.isNullable = false ∧
      shape.isOptional = false ∧ shape.isReference = false)
    (kind : PropertyKind) (marks : ShapeMarks) :
    (shape.wrap kind marks).isNullable = marks.nullable ∧
      (shape.wrap kind marks).isOptional = marks.optional ∧
      (shape.wrap kind marks).isReference =
        (marks.reference && !kind.isCollection) := by
  rcases unmarked with ⟨nullable, optional, reference⟩
  rcases marks with ⟨array, lazily, left, null⟩
  unfold wrap
  dsimp only
  generalize (lazily && !kind.isCollection) = handled
  refine ⟨?_, ?_, ?_⟩ <;>
    cases array <;> cases handled <;> cases left <;> cases null <;>
    first | rfl | assumption

end Shape

/-- The shape of a property follows its marks. -/
theorem Property.shape_follows (property : Property) :
    property.shape.isNullable = property.nullable ∧
      property.shape.isOptional = property.isGenerated ∧
      property.shape.isReference =
        (property.reference && !property.isCollection) :=
  Shape.marks_wrap (Shape.plain_base ..) _ _

/-! ## Sides -/

/-- Sides that a relation of some kind may have in the end. -/
structure Sides.Fits (kind : RelationKind) (sides : Sides) : Prop where
  manyToOne : kind = .manyToOne →
    sides.owner = true ∧ sides.mappedBy = none
  oneToMany : kind = .oneToMany →
    sides.owner = false ∧ sides.mappedBy ≠ none ∧ sides.inversedBy = none

/-! ## Properties -/

/-- A property all parts of which go together. -/
structure Property.WellFormed (property : Property) : Prop
    extends property.Marked where
  scalar : property.scalarType?.isSome = true ↔ property.kind = .scalar
  enumeration : property.enumeration?.isSome = true ↔
    property.kind = .enumeration
  target : property.target?.isSome = true ↔ property.kind.hasTarget = true
  manyToOne : property.kind = .relation .manyToOne →
    property.owner = true ∧ property.mappedBy? = none
  oneToMany : property.kind = .relation .oneToMany →
    property.owner = false ∧ property.mappedBy? ≠ none ∧
      property.inversedBy? = none
  embedded : property.kind = .embedded →
    property.owner = false ∧ property.mappedBy? = none ∧
      property.inversedBy? = none
  columnPrefix : (property.embedding?.bind (·.columnPrefix)).isSome = true →
    property.kind = .embedded
  shape : property.shape.isNullable = property.nullable ∧
    property.shape.isOptional = property.isGenerated ∧
    property.shape.isReference =
      (property.reference && !property.isCollection)

/-- Marks and sides that fit make a property well-formed. -/
theorem Property.wellFormed_of_marked {property : Property}
    (marked : property.Marked)
    (fits : ∀ relation, property.relation? = some relation →
      relation.sides.Fits relation.kind) :
    property.WellFormed where
  toMarked := marked
  shape := property.shape_follows
  scalar := by
    unfold scalarType? kind
    cases property.nature <;> simp [Nature.kind]
  enumeration := by
    unfold enumeration? kind
    cases property.nature <;> simp [Nature.kind]
  target := by
    unfold target? kind
    cases property.nature <;> simp [Nature.kind, PropertyKind.hasTarget]
  manyToOne := by
    intro kind
    rcases exists_relation_of_kind kind with ⟨relation, related, single⟩
    rw [owner_of_relation? related, mappedBy?_of_relation? related]
    exact (fits relation related).manyToOne single
  oneToMany := by
    intro kind
    rcases exists_relation_of_kind kind with ⟨relation, related, many⟩
    rw [owner_of_relation? related, mappedBy?_of_relation? related,
      inversedBy?_of_relation? related]
    exact (fits relation related).oneToMany many
  embedded := by
    intro kind
    have unrelated : property.relation? = none := by
      cases related : property.relation? with
      | none => rfl
      | some relation =>
          rw [kind_of_relation? related] at kind
          cases kind
    rw [owner, mappedBy?, inversedBy?, unrelated]
    exact ⟨rfl, rfl, rfl⟩
  columnPrefix := by
    unfold embedding? kind
    cases property.nature <;> simp [Nature.kind]

end EntityCatalog
