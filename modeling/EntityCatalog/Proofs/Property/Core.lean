import EntityCatalog.Entity.Completion
import EntityCatalog.Proofs.Property.Changes

/-!
# What a resolution leaves alone

A resolution settles the sides of a relation, fills in the entity that a target
means and fills in the items of an enum.  Everything else about a property is its
core (`Property.core`), which no stage changes, so that a property of a graph has
the core of what was declared.
-/

namespace EntityCatalog

namespace Property

/-- The property without what a resolution finds out: which side of a relation it
is, which entity it points at, and the items of an enum. -/
def core (property : Property) : Property :=
  ((property.withSides ⟨false, none, none⟩).withTarget none).withItems none

section

variable (property : Property)

@[simp]
theorem core_withSides (sides : Sides) :
    (property.withSides sides).core = property.core := by
  rcases property with ⟨name, nature⟩
  cases nature <;> rfl

@[simp]
theorem core_withTarget (entity : Option String) :
    (property.withTarget entity).core = property.core := by
  rcases property with ⟨name, nature⟩
  cases nature <;> rfl

@[simp]
theorem core_withItems (items : Option (List EnumItem)) :
    (property.withItems items).core = property.core := by
  rcases property with ⟨name, nature⟩
  cases nature <;> rfl

/-- What is not in the core is the sides, the target and the items. -/
theorem exists_of_core {property other : Property}
    (same : property.core = other.core) :
    ∃ sides target items, property =
      ((other.withSides sides).withTarget target).withItems items := by
  rcases property with ⟨name, nature⟩
  rcases other with ⟨otherName, otherNature⟩
  cases nature with
  | scalar type =>
      cases otherNature <;> cases same
      exact ⟨⟨false, none, none⟩, none, none, rfl⟩
  | enumeration part =>
      rcases part with ⟨declared, items⟩
      cases otherNature <;> cases same
      exact ⟨⟨false, none, none⟩, none, items, rfl⟩
  | embedded part =>
      rcases part with ⟨⟨declared, entity⟩, columnPrefix⟩
      cases otherNature with
      | embedded otherPart =>
          rcases otherPart with ⟨⟨otherDeclared, otherEntity⟩, otherPrefix⟩
          cases same
          exact ⟨⟨false, none, none⟩, entity, none, rfl⟩
      | _ => cases same
  | relation part =>
      rcases part with ⟨kind, ⟨declared, entity⟩, sides⟩
      cases otherNature with
      | relation otherPart =>
          rcases otherPart with ⟨otherKind, ⟨otherDeclared, otherEntity⟩, _⟩
          cases same
          exact ⟨sides, entity, none, rfl⟩
      | _ => cases same

/-! ## Parts of the core -/

@[simp]
theorem name_core : property.core.name = property.name := by
  simp [core]

@[simp]
theorem kind_core : property.core.kind = property.kind := by
  rcases property with ⟨name, nature⟩
  cases nature <;> rfl

@[simp]
theorem nullable_core : property.core.nullable = property.nullable := by
  rcases property with ⟨name, nature⟩
  cases nature <;> rfl

@[simp]
theorem array_core : property.core.array = property.array := by
  rcases property with ⟨name, nature⟩
  cases nature <;> rfl

@[simp]
theorem primary_core : property.core.primary = property.primary := by
  rcases property with ⟨name, nature⟩
  cases nature <;> rfl

@[simp]
theorem mapToKey_core : property.core.mapToKey = property.mapToKey := by
  rcases property with ⟨name, nature⟩
  cases nature <;> rfl

@[simp]
theorem default_core : property.core.default = property.default := by
  rcases property with ⟨name, nature⟩
  cases nature <;> rfl

@[simp]
theorem onCreate_core : property.core.onCreate = property.onCreate := by
  rcases property with ⟨name, nature⟩
  cases nature <;> rfl

@[simp]
theorem onUpdate_core : property.core.onUpdate = property.onUpdate := by
  rcases property with ⟨name, nature⟩
  cases nature <;> rfl

@[simp]
theorem declaredBy_core : property.core.declaredBy = property.declaredBy := by
  rcases property with ⟨name, nature⟩
  cases nature <;> rfl

@[simp]
theorem synthesized_core :
    property.core.synthesized = property.synthesized := by
  rcases property with ⟨name, nature⟩
  cases nature <;> rfl

/-- Of a relation only the sides and the entity it points at are not in the
core. -/
theorem relation?_core :
    property.core.relation? = property.relation?.map fun relation =>
      { relation with
        sides := ⟨false, none, none⟩
        target := { relation.target with entity := none } } := by
  rcases property with ⟨name, nature⟩
  cases nature <;> rfl

end

/-- Relations with one core have the same rules and the same order. -/
theorem exists_relation_of_core {property other : Property}
    (same : property.core = other.core) {relation : Relation}
    (related : property.relation? = some relation) :
    ∃ first, other.relation? = some first ∧
      first.fixedOrder = relation.fixedOrder ∧
      first.deleteRule = relation.deleteRule ∧
      first.updateRule = relation.updateRule := by
  have alike := congrArg Property.relation? same
  rw [relation?_core, relation?_core, related, Option.map_some] at alike
  rcases Option.map_eq_some_iff.mp alike.symm with ⟨first, here, equal⟩
  simp only [Relation.mk.injEq] at equal
  rcases equal with ⟨-, -, -, -, deleteRule, updateRule, -, fixedOrder⟩
  exact ⟨first, here, fixedOrder, deleteRule, updateRule⟩

end Property

/-- Completion leaves the core of every property alone. -/
@[simp]
theorem Completion.core_complete (progress : Completion.Progress)
    (property : Property) :
    (progress.complete property).core = property.core := by
  unfold Progress.complete
  split
  · rfl
  · simp
  all_goals (split <;> simp)

end EntityCatalog
