import EntityCatalog.Property.Basic

/-!
# Changes of properties

The resolution changes a property in three ways: it settles the sides of a
relation, it fills in a target, and it fills in the items of an enum.  Each
change leaves everything else as it is.
-/

namespace EntityCatalog.Property

theorem target?_of_relation? {property : Property} {relation : Relation}
    (related : property.relation? = some relation) :
    property.target? = some relation.target := by
  unfold relation? at related
  unfold target?
  split at related
  · rename_i part nature
    cases related
    rw [nature]
  · cases related

theorem kind_of_relation? {property : Property} {relation : Relation}
    (related : property.relation? = some relation) :
    property.kind = .relation relation.kind := by
  unfold relation? at related
  unfold kind
  split at related
  · rename_i part nature
    cases related
    rw [nature]
    rfl
  · cases related

theorem owner_of_relation? {property : Property} {relation : Relation}
    (related : property.relation? = some relation) :
    property.owner = relation.sides.owner := by
  rw [owner, related, Option.any_some]

theorem mappedBy?_of_relation? {property : Property} {relation : Relation}
    (related : property.relation? = some relation) :
    property.mappedBy? = relation.sides.mappedBy := by
  rw [mappedBy?, related, Option.bind_some]

theorem inversedBy?_of_relation? {property : Property} {relation : Relation}
    (related : property.relation? = some relation) :
    property.inversedBy? = relation.sides.inversedBy := by
  rw [inversedBy?, related, Option.bind_some]

theorem exists_relation_of_kind {property : Property} {kind : RelationKind}
    (related : property.kind = .relation kind) :
    ∃ relation, property.relation? = some relation ∧ relation.kind = kind := by
  unfold Property.kind at related
  unfold relation?
  cases nature : property.nature with
  | relation part =>
      rw [nature] at related
      cases related
      exact ⟨part, rfl, rfl⟩
  | _ =>
      rw [nature] at related
      cases related

theorem exists_relation_of_isRelation {property : Property}
    (related : property.isRelation = true) :
    ∃ relation, property.relation? = some relation := by
  unfold isRelation PropertyKind.isRelation at related
  split at related
  · rename_i kind equal
    rcases exists_relation_of_kind equal with ⟨relation, here, -⟩
    exact ⟨relation, here⟩
  · cases related

/-- Only enums have an enum part. -/
theorem enumeration?_eq_none {property : Property}
    (other : property.kind ≠ .enumeration) : property.enumeration? = none := by
  cases nature : property.nature with
  | enumeration part => exact absurd (congrArg Nature.kind nature) other
  | _ => rw [enumeration?, nature]

theorem kind_of_enumeration? {property : Property} {part : Enumeration}
    (enumerated : property.enumeration? = some part) :
    property.kind = .enumeration :=
  Decidable.byContradiction fun other => by
    rw [enumeration?_eq_none other] at enumerated
    cases enumerated

theorem exists_enumeration_of_kind {property : Property}
    (enumerated : property.kind = .enumeration) :
    ∃ part, property.enumeration? = some part := by
  rw [kind] at enumerated
  cases nature : property.nature with
  | enumeration part => exact ⟨part, by rw [enumeration?, nature]⟩
  | _ =>
      rw [nature] at enumerated
      cases enumerated

theorem relation?_of_enumeration? {property : Property} {part : Enumeration}
    (enumerated : property.enumeration? = some part) :
    property.relation? = none := by
  rw [enumeration?] at enumerated
  rw [relation?]
  cases nature : property.nature with
  | relation =>
      rw [nature] at enumerated
      cases enumerated
  | _ => rfl

/-- What has a target points at it. -/
theorem exists_target_of_hasTarget {property : Property}
    (pointing : property.kind.hasTarget = true) :
    ∃ target, property.target? = some target := by
  rw [kind] at pointing
  cases nature : property.nature with
  | embedded part | relation part => exact ⟨part.target, by rw [target?, nature]⟩
  | scalar | enumeration =>
      rw [nature] at pointing
      cases pointing

/-- A column points nowhere. -/
theorem target?_of_scalar {property : Property}
    (column : property.kind = .scalar) : property.target? = none := by
  rw [kind] at column
  cases nature : property.nature with
  | scalar type => rw [target?, nature]
  | _ =>
      rw [nature] at column
      cases column

/-! ## Sides -/

section

variable (property : Property) (sides : Sides)

@[simp]
theorem relation?_withSides :
    (property.withSides sides).relation? =
      property.relation?.map ({ · with sides := sides }) := by
  unfold withSides relation?
  cases nature : property.nature <;> simp [nature]

@[simp]
theorem kind_withSides : (property.withSides sides).kind = property.kind := by
  unfold withSides kind
  cases nature : property.nature <;> simp [nature, Nature.kind]

@[simp]
theorem target?_withSides :
    (property.withSides sides).target? = property.target? := by
  unfold withSides target?
  cases nature : property.nature <;> simp [nature]

@[simp]
theorem declaredBy_withSides :
    (property.withSides sides).declaredBy = property.declaredBy := by
  unfold withSides
  split <;> rfl

@[simp]
theorem synthesized_withSides :
    (property.withSides sides).synthesized = property.synthesized := by
  unfold withSides
  split <;> rfl

@[simp]
theorem primary_withSides :
    (property.withSides sides).primary = property.primary := by
  unfold withSides
  split <;> rfl

@[simp]
theorem enumeration?_withSides :
    (property.withSides sides).enumeration? = property.enumeration? := by
  unfold withSides enumeration?
  cases nature : property.nature <;> simp [nature]

@[simp]
theorem origin_withSides :
    (property.withSides sides).origin = property.origin := by
  simp [origin]

/-- Settled again, a property keeps nothing of its first sides. -/
@[simp]
theorem withSides_withSides (other : Sides) :
    (property.withSides sides).withSides other = property.withSides other := by
  unfold withSides
  cases nature : property.nature <;> simp [nature]

end

theorem withSides_of_relation?_eq_none {property : Property}
    (unrelated : property.relation? = none) (sides : Sides) :
    property.withSides sides = property := by
  unfold relation? at unrelated
  unfold withSides
  cases nature : property.nature with
  | relation part =>
      rw [nature] at unrelated
      cases unrelated
  | _ => rfl

theorem withSides_sides {property : Property} {relation : Relation}
    (related : property.relation? = some relation) :
    property.withSides relation.sides = property := by
  rcases property with ⟨_, nature⟩
  cases nature <;> cases related
  rfl

/-! ## Targets -/

section

variable (property : Property) (entity : Option String)

@[simp]
theorem relation?_withTarget :
    (property.withTarget entity).relation? =
      property.relation?.map fun relation =>
        { relation with target := { relation.target with entity := entity } } := by
  unfold withTarget relation?
  cases nature : property.nature <;> simp [nature]

@[simp]
theorem kind_withTarget : (property.withTarget entity).kind = property.kind := by
  unfold withTarget kind
  cases nature : property.nature <;> simp [nature, Nature.kind]

@[simp]
theorem declaredBy_withTarget :
    (property.withTarget entity).declaredBy = property.declaredBy := by
  unfold withTarget
  split <;> rfl

@[simp]
theorem synthesized_withTarget :
    (property.withTarget entity).synthesized = property.synthesized := by
  unfold withTarget
  split <;> rfl

@[simp]
theorem primary_withTarget :
    (property.withTarget entity).primary = property.primary := by
  unfold withTarget
  split <;> rfl

/-- A known target is filled in already. -/
theorem withTarget_targetName? {property : Property} {entity : String}
    (known : property.targetName? = some entity) :
    property.withTarget (some entity) = property := by
  rcases property with ⟨name, nature⟩
  cases nature with
  | scalar | enumeration => cases known
  | embedded part =>
      rcases part with ⟨⟨declared, _⟩, columnPrefix⟩
      cases known
      rfl
  | relation part =>
      rcases part with ⟨kind, ⟨declared, _⟩⟩
      cases known
      rfl

@[simp]
theorem enumeration?_withTarget :
    (property.withTarget entity).enumeration? = property.enumeration? := by
  unfold withTarget enumeration?
  cases nature : property.nature <;> simp [nature]

end

/-! ## Items of enums -/

/-- Only an enum has items to fill in. -/
theorem withItems_of_enumeration?_eq_none {property : Property}
    (plain : property.enumeration? = none) (items : Option (List EnumItem)) :
    property.withItems items = property := by
  unfold withItems
  split
  · rename_i part nature
    rw [enumeration?, nature] at plain
    cases plain
  · rfl

/-! ## Properties without the items of enums -/

/-- The property without the items of an enum, which only an evaluation
gives. -/
def outline (property : Property) : Property :=
  property.withItems none

section

variable (property : Property)

@[simp]
theorem outline_withItems (items : Option (List EnumItem)) :
    (property.withItems items).outline = property.outline := by
  unfold outline withItems
  cases nature : property.nature <;> simp [nature]

@[simp]
theorem name_outline : property.outline.name = property.name :=
  property.name_withItems none

@[simp]
theorem relation?_outline : property.outline.relation? = property.relation? := by
  unfold outline withItems relation?
  cases nature : property.nature <;> simp [nature]

@[simp]
theorem target?_outline : property.outline.target? = property.target? := by
  unfold outline withItems target?
  cases nature : property.nature <;> simp [nature]

@[simp]
theorem kind_outline : property.outline.kind = property.kind := by
  unfold outline withItems kind
  cases nature : property.nature <;> simp [nature, Nature.kind]

@[simp]
theorem enumeration?_outline :
    property.outline.enumeration? =
      property.enumeration?.map ({ · with items := none }) := by
  unfold outline withItems enumeration?
  cases nature : property.nature <;> simp [nature]

@[simp]
theorem default_outline : property.outline.default = property.default := by
  unfold outline withItems
  split <;> rfl

@[simp]
theorem array_outline : property.outline.array = property.array := by
  unfold outline withItems
  split <;> rfl

@[simp]
theorem declaredBy_outline :
    property.outline.declaredBy = property.declaredBy := by
  unfold outline withItems
  split <;> rfl

@[simp]
theorem origin_outline : property.outline.origin = property.origin := by
  simp [origin]

@[simp]
theorem synthesized_outline :
    property.outline.synthesized = property.synthesized := by
  unfold outline withItems
  split <;> rfl

@[simp]
theorem primary_outline : property.outline.primary = property.primary := by
  unfold outline withItems
  split <;> rfl

end

end EntityCatalog.Property
