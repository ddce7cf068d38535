import EntityCatalog.Entity.OfSchema
import EntityCatalog.Proofs.Property.Changes
import EntityCatalog.Proofs.Table.Lookups
import Mathlib.Data.List.Basic

/-!
# References spelled anew

A spelling gives every reference another form, such as a name in place of a
schema.  Spelling the reference of a property anew changes what it declares as
its target and nothing else, and it can be done before or after the options are
read (`Property.ofOptions_respell`): no rule for options looks at the form of a
reference.
-/

namespace EntityCatalog

variable (spell : EntityRef → EntityRef)

/-! ## Properties -/

/-- The target with its reference spelled anew. -/
def Target.respell (target : Target) : Target :=
  { target with declared := spell target.declared }

/-- The relation with its reference spelled anew. -/
def Relation.respell (relation : Relation) : Relation :=
  { relation with target := relation.target.respell spell }

@[simp]
theorem Relation.kind_respell (relation : Relation) :
    (relation.respell spell).kind = relation.kind :=
  rfl

@[simp]
theorem Relation.sides_respell (relation : Relation) :
    (relation.respell spell).sides = relation.sides :=
  rfl

/-- The nature with its reference spelled anew. -/
def Nature.respell : Nature → Nature
  | .embedded part => .embedded { part with target := part.target.respell spell }
  | .relation part => .relation (part.respell spell)
  | other => other

namespace Property

/-- The property with its reference spelled anew. -/
def respell (property : Property) : Property :=
  { property with nature := property.nature.respell spell }

section

variable (property : Property)

@[simp]
theorem name_respell : (property.respell spell).name = property.name :=
  rfl

@[simp]
theorem origin_respell : (property.respell spell).origin = property.origin :=
  rfl

@[simp]
theorem kind_respell : (property.respell spell).kind = property.kind := by
  cases nature : property.nature <;>
    simp only [kind, respell, nature, Nature.respell] <;> rfl

@[simp]
theorem relation?_respell :
    (property.respell spell).relation? =
      property.relation?.map (·.respell spell) := by
  cases nature : property.nature <;>
    simp only [relation?, respell, nature, Nature.respell] <;> rfl

@[simp]
theorem target?_respell :
    (property.respell spell).target? =
      property.target?.map (·.respell spell) := by
  cases nature : property.nature <;>
    simp only [target?, respell, nature, Nature.respell] <;> rfl

@[simp]
theorem targetName?_respell :
    (property.respell spell).targetName? = property.targetName? := by
  rw [targetName?, targetName?, target?_respell]
  cases property.target? <;> rfl

@[simp]
theorem respell_id : property.respell id = property := by
  cases property with
  | mk name nature => cases nature <;> rfl

theorem respell_withSides (sides : Sides) :
    (property.withSides sides).respell spell =
      (property.respell spell).withSides sides := by
  cases property with
  | mk name nature => cases nature <;> rfl

theorem respell_withTarget (entity : Option String) :
    (property.withTarget entity).respell spell =
      (property.respell spell).withTarget entity := by
  cases property with
  | mk name nature => cases nature <;> rfl

theorem respell_withItems (items : Option (List EnumItem)) :
    (property.withItems items).respell spell =
      (property.respell spell).withItems items := by
  cases property with
  | mk name nature => cases nature <;> rfl

end

end Property

/-! ## Options -/

/-- What options say, with its reference spelled anew. -/
def DeclaredNature.respell : DeclaredNature → DeclaredNature
  | .embedded target => .embedded (spell target)
  | .relation kind target => .relation kind (spell target)
  | other => other

namespace Options

/-- The options with their reference spelled anew. -/
def respell (options : Options) : Options :=
  { options with entity := options.entity.map spell }

variable (options : Options)

@[simp]
theorem kind_respell : (options.respell spell).kind = options.kind :=
  rfl

theorem targetNature_respell (reference : EntityRef) :
    (options.respell spell).targetNature (spell reference) =
      (options.targetNature reference).map (·.respell spell) := by
  rw [targetNature, targetNature, kind_respell]
  cases options.kind with
  | none => rfl
  | some kind => cases kind <;> rfl

theorem scalarNature_respell (typeName : String) :
    (options.respell spell).scalarNature typeName =
      (options.scalarNature typeName).map (·.respell spell) := by
  rw [scalarNature, scalarNature, kind_respell]
  cases options.kind with
  | none => rfl
  | some kind => cases kind <;> rfl

theorem enumNature_respell :
    (options.respell spell).enumNature =
      options.enumNature.map (·.respell spell) := by
  have items : (options.respell spell).items = options.items := rfl
  rw [enumNature, enumNature, kind_respell, items]
  split
  · rfl
  · cases options.items <;> rfl

theorem nature_respell :
    (options.respell spell).nature =
      options.nature.map (·.respell spell) := by
  have typeName : (options.respell spell).typeName = options.typeName := rfl
  have entity : (options.respell spell).entity = options.entity.map spell := rfl
  have marked : (options.respell spell).marksEnum = options.marksEnum := rfl
  rw [nature, nature, typeName, entity, marked]
  cases options.typeName with
  | none =>
      cases options.entity with
      | none =>
          cases options.marksEnum with
          | false => rfl
          | true => exact options.enumNature_respell spell
      | some reference =>
          cases options.marksEnum with
          | false => exact options.targetNature_respell spell reference
          | true => rfl
  | some name =>
      cases options.entity with
      | none =>
          cases options.marksEnum with
          | false => exact options.scalarNature_respell spell name
          | true => rfl
      | some reference => rfl

end Options

/-- Options that are spelled anew become the property spelled anew, or what was
wrong with them still is. -/
theorem Property.ofOptions_respell (entity name : String)
    (options : Options) :
    ofOptions entity name (options.respell spell) =
      (ofOptions entity name options).map (·.respell spell) := by
  rw [ofOptions, ofOptions, Options.nature_respell]
  cases options.nature with
  | error misuse => rfl
  | ok nature =>
      have kind : (nature.respell spell).kind = nature.kind := by
        cases nature <;> rfl
      -- No rule looks at the reference.
      have rules : (options.respell spell).firstBroken nature.kind =
          options.firstBroken nature.kind :=
        rfl
      dsimp only [Except.map]
      rw [kind, rules]
      cases options.firstBroken nature.kind with
      | some misuse => rfl
      | none => cases nature <;> rfl

/-! ## Schemas -/

/-- The schema with all its references spelled anew. -/
def Schema.respell (schema : Schema) : Schema :=
  { schema with
    base := schema.base.map spell
    properties := schema.properties.map
      (fun (name, options) => (name, options.respell spell)) fun _ => rfl }

namespace Schema

@[simp]
theorem name_respell (schema : Schema) :
    (schema.respell spell).name = schema.name :=
  rfl

/-- The schemas with all their references spelled anew. -/
def respellAll (schemas : Table Schema.name) : Table Schema.name :=
  schemas.map (·.respell spell) (name_respell spell)

theorem respellAll_id (schemas : Table Schema.name) :
    respellAll id schemas = schemas := by
  refine Table.map_eq_self _ (name_respell id) fun schema => ?_
  have options : ∀ entry : String × Options,
      (entry.1, entry.2.respell id) = entry := by
    rintro ⟨name, options⟩
    rw [Options.respell, Option.map_id_fun, id]
  have properties : schema.properties.map
      (fun (name, options) => (name, options.respell id)) (fun _ => rfl) =
        schema.properties :=
    Table.map_eq_self _ _ options
  rw [respell, properties, Option.map_id_fun, id]

variable (schema : Schema)

theorem declared_respell :
    (schema.respell spell).declared =
      schema.declared.map fun (name, outcome) =>
        (name, outcome.map (·.respell spell)) := by
  simp only [declared, respell, Table.items_map, List.map_map]
  refine List.map_congr_left fun entry _ => ?_
  exact congrArg (Prod.mk entry.1) (Property.ofOptions_respell spell ..)

theorem ownProperties_respell :
    (schema.respell spell).ownProperties =
      schema.ownProperties.map (·.respell spell) := by
  rw [ownProperties, ownProperties, declared_respell, List.filterMap_map,
    List.map_filterMap]
  refine List.filterMap_congr fun entry _ => ?_
  rcases entry with ⟨name, outcome⟩
  cases outcome <;> rfl

/-- Whether options fit together does not depend on how references are
spelled. -/
theorem misuses_respell : (schema.respell spell).misuses = schema.misuses := by
  rw [misuses, misuses, declared_respell, List.filterMap_map]
  refine List.filterMap_congr fun entry _ => ?_
  rcases entry with ⟨name, outcome⟩
  cases outcome <;> rfl

end Schema

end EntityCatalog
