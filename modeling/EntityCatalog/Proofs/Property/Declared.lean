import EntityCatalog.Property.OfOptions
import EntityCatalog.Entity.OfSchema
import EntityCatalog.Proofs.Table.Lookups

/-!
# What declared properties satisfy

A property read off options has passed every rule for options on its kind.
For its relation this means that the hints fit the kind: a many-to-one side
names no owner, a one-to-many side names one and no inverse, and no side names
both.  Nothing is known of any target yet.

`Schema.property?` is what a schema itself declares under a name.
-/

namespace EntityCatalog

/-! ## Rules that were passed -/

namespace Options

/-- A relation whose options break no rule has hints that fit its kind. -/
theorem hints_of_firstBroken {options : Options} {kind : RelationKind}
    (passed : options.firstBroken (.relation kind) = none) :
    (kind = .manyToOne → options.mappedBy = none) ∧
      (kind = .oneToMany → options.mappedBy ≠ none) ∧
      (kind = .oneToMany → options.inversedBy = none) ∧
      (options.mappedBy = none ∨ options.inversedBy = none) := by
  have silent : (options.rules (.relation kind)).find? Prod.fst = none :=
    Option.map_eq_none_iff.mp passed
  have unbroken := List.find?_eq_none.mp silent
  simp only [rules, List.forall_mem_cons] at unbroken
  rcases unbroken with ⟨-, mappedBy, both, -, -, -, collection, inverse, -⟩
  refine ⟨?_, ?_, ?_, ?_⟩
  · rintro rfl
    simpa [PropertyKind.isRelation] using mappedBy
  · rintro rfl
    simpa using collection
  · rintro rfl
    simpa using inverse
  · cases named : options.mappedBy with
    | none => exact Or.inl rfl
    | some name => exact Or.inr (by simpa [named] using both)

/-- Only the reference of options becomes a target. -/
theorem entity_of_nature {options : Options} {nature : DeclaredNature}
    (told : options.nature = .ok nature) {entity name : String}
    {target : Target}
    (pointed : (Property.declare entity name options nature).target? =
      some target) :
    options.entity = some target.declared := by
  unfold Options.nature at told
  split at told
  · -- A scalar has no target.
    unfold scalarNature at told
    split at told <;> cases told
    all_goals cases pointed
  · rename_i reference _ given _
    unfold targetNature at told
    rw [given]
    split at told <;> cases told
    all_goals (cases pointed; rfl)
  · unfold enumNature at told
    split at told
    · cases told
    · split at told <;> cases told
      cases pointed
  · cases told
  · cases told

end Options

/-- What the rules for options leave possible for the sides of a relation. -/
structure Sides.Lawful (kind : RelationKind) (sides : Sides) : Prop where
  owner : sides.owner = decide (kind = .manyToOne)
  manyToOne : kind = .manyToOne → sides.mappedBy = none
  oneToMany : kind = .oneToMany → sides.mappedBy ≠ none
  noInverse : kind = .oneToMany → sides.inversedBy = none
  oneHint : sides.mappedBy = none ∨ sides.inversedBy = none

/-- What a property that was declared satisfies, before anything is linked. -/
structure Property.Lawful (property : Property) : Prop where
  open_target : ∀ target, property.target? = some target → target.entity = none
  sides : ∀ relation, property.relation? = some relation →
    relation.sides.Lawful relation.kind
  declared : property.synthesized = false

namespace Property

/-- A property is read off options if they say what it is and break no rule. -/
theorem toOption_ofOptions_eq_some_iff {entity name : String}
    {options : Options} {property : Property} :
    (ofOptions entity name options).toOption = some property ↔
      ∃ nature, options.nature = .ok nature ∧
        options.firstBroken nature.kind = none ∧
        property = declare entity name options nature := by
  unfold ofOptions
  constructor
  · intro read
    split at read
    · cases read
    · rename_i nature told
      split at read
      · cases read
      · rename_i passed
        cases read
        exact ⟨nature, told, passed, rfl⟩
  · rintro ⟨nature, told, passed, rfl⟩
    simp only [told, passed]
    rfl

/-- What is read off options is the property that some nature makes of them, and
no rule for that nature is broken. -/
theorem exists_nature_of_ofOptions {entity name : String} {options : Options}
    {property : Property}
    (read : (ofOptions entity name options).toOption = some property) :
    ∃ nature, options.firstBroken nature.kind = none ∧
      property = declare entity name options nature := by
  rcases toOption_ofOptions_eq_some_iff.mp read with ⟨nature, -, passed, same⟩
  exact ⟨nature, passed, same⟩

/-- A property read off options points with their reference. -/
theorem entity_of_ofOptions {entity name : String} {options : Options}
    {property : Property}
    (read : (ofOptions entity name options).toOption = some property)
    {target : Target} (pointed : property.target? = some target) :
    options.entity = some target.declared := by
  rcases toOption_ofOptions_eq_some_iff.mp read with ⟨nature, told, -, rfl⟩
  exact Options.entity_of_nature told pointed

/-- A property read off options has the given origin and is lawful. -/
theorem of_ofOptions {entity name : String} {options : Options}
    {property : Property}
    (read : (ofOptions entity name options).toOption = some property) :
    property.name = name ∧ property.declaredBy = entity ∧ property.Lawful := by
  rcases exists_nature_of_ofOptions read with ⟨nature, passed, rfl⟩
  refine ⟨rfl, rfl, ?_, ?_, rfl⟩
  · intro target pointed
    cases nature <;> cases pointed <;> rfl
  · intro relation related
    cases nature with
    | relation kind target =>
        cases related
        rcases Options.hints_of_firstBroken passed with
          ⟨manyToOne, oneToMany, noInverse, oneHint⟩
        exact ⟨rfl, manyToOne, oneToMany, noInverse, oneHint⟩
    | _ => cases related

end Property

/-! ## Declarations of a schema -/

namespace Schema

/-- What a schema declares under a name, if its options fit together. -/
def property? (schema : Schema) (name : String) : Option Property :=
  (schema.properties.find? name).bind fun entry =>
    (Property.ofOptions schema.name entry.1 entry.2).toOption

theorem lawful_of_property? {schema : Schema} {name : String} {property : Property}
    (found : schema.property? name = some property) :
    property.name = name ∧ property.declaredBy = schema.name ∧
      property.Lawful := by
  rcases Option.bind_eq_some_iff.mp found with ⟨entry, member, read⟩
  rcases Table.find?_eq_some member with ⟨_, rfl⟩
  exact Property.of_ofOptions read

theorem ownProperties_eq (schema : Schema) :
    schema.ownProperties = schema.properties.items.filterMap fun entry =>
      (Property.ofOptions schema.name entry.1 entry.2).toOption := by
  simp only [ownProperties, declared, List.filterMap_map, Function.comp_def]

theorem mem_ownProperties_iff {schema : Schema} {property : Property} :
    property ∈ schema.ownProperties ↔
      schema.property? property.name = some property := by
  rw [ownProperties_eq, List.mem_filterMap, property?,
    Option.bind_eq_some_iff]
  constructor
  · rintro ⟨entry, member, read⟩
    refine ⟨entry, ?_, read⟩
    rw [(Property.of_ofOptions read).1]
    exact Table.find?_key member
  · rintro ⟨entry, found, read⟩
    exact ⟨entry, (Table.find?_eq_some found).1, read⟩

/-- No schema declares a name twice. -/
theorem nodup_ownProperties (schema : Schema) :
    (schema.ownProperties.map Property.name).Nodup := by
  rw [ownProperties_eq]
  refine schema.properties.distinct.sublist ?_
  induction schema.properties.items with
  | nil => exact List.Sublist.slnil
  | cons entry rest induction =>
      rw [List.filterMap_cons, List.map_cons]
      split
      · exact induction.cons entry.1
      · rename_i property read
        rw [List.map_cons, (Property.of_ofOptions read).1]
        exact induction.cons_cons entry.1

theorem find?_ownProperties (schema : Schema) (name : String) :
    (schema.ownProperties.find? fun property => decide (property.name = name)) =
      schema.property? name := by
  let own : Properties := ⟨schema.ownProperties, schema.nodup_ownProperties⟩
  apply Option.ext
  intro property
  have found : own.find? name = some property ↔
      property ∈ schema.ownProperties ∧ property.name = name :=
    Table.find?_eq_some_iff
  rw [show (schema.ownProperties.find? _) = own.find? name from rfl, found,
    mem_ownProperties_iff]
  constructor
  · rintro ⟨declared, rfl⟩
    exact declared
  · intro declared
    have named := (lawful_of_property? declared).1
    rw [named]
    exact ⟨declared, rfl⟩

/-- Nothing is wrong with a schema exactly if all its options fit together. -/
theorem misuses_eq_nil_iff {schema : Schema} :
    schema.misuses = [] ↔
      ∀ name options, schema.properties.find? name = some (name, options) →
        ∃ property, (Property.ofOptions schema.name name options).toOption =
          some property := by
  rw [misuses, List.filterMap_eq_nil_iff, declared, List.forall_mem_map]
  constructor
  · intro fits name options found
    have fit := fits _ (Table.find?_eq_some found).1
    dsimp only at fit
    cases read : Property.ofOptions schema.name name options with
    | ok property => exact ⟨property, rfl⟩
    | error misuse =>
        rw [read] at fit
        cases fit
  · rintro fits ⟨name, options⟩ member
    rcases fits name options (Table.find?_key member) with ⟨property, read⟩
    dsimp only
    cases outcome : Property.ofOptions schema.name name options with
    | ok other => rfl
    | error misuse =>
        rw [outcome] at read
        cases read

/-- If all options fit together, a property is read off those that are given. -/
theorem exists_read {schema : Schema} (fits : schema.misuses = [])
    {entry : String × Options} (member : entry ∈ schema.properties.items) :
    ∃ property, (Property.ofOptions schema.name entry.1 entry.2).toOption =
      some property :=
  misuses_eq_nil_iff.mp fits entry.1 entry.2 (Table.find?_key member)

/-- If all options fit together, a schema declares all its names, in order. -/
theorem keys_ownProperties {schema : Schema}
    (fits : schema.misuses = []) :
    schema.ownProperties.map Property.name = schema.properties.keys := by
  have reads : ∀ entry ∈ schema.properties.items, ∃ property,
      (Property.ofOptions schema.name entry.1 entry.2).toOption =
        some property :=
    fun entry member => exists_read fits member
  rw [ownProperties_eq, Table.keys]
  generalize schema.properties.items = entries at reads
  induction entries with
  | nil => rfl
  | cons entry rest induction =>
      rcases List.forall_mem_cons.mp reads with ⟨⟨property, read⟩, later⟩
      rw [List.filterMap_cons]
      simp only [read]
      rw [List.map_cons, List.map_cons, induction later,
        (Property.of_ofOptions read).1]

end Schema

end EntityCatalog
