import EntityCatalog.Entity.Preparation
import EntityCatalog.Proofs.Graph.Ownership

/-!
# Nulls in prepared records

A prepared record holds, under the name of a property, the value of the field
that the property had in its turn (`find?_of_prepare`).  A value that was
supplied is checked against the property, so it is null only where null may be
stored.  What a hook or a default fills in is not checked: a property that is
not nullable is null in a prepared record exactly if it was left out and its
hook, or its default, gave null (`prepared_null_iff`).
-/

namespace EntityCatalog

/-! ## Fields in turn -/

section

variable (fill : Property → Tally → Field × Tally) (record : Record)

/-- The field of one property: assigned from the record, else filled in. -/
def fieldOf (property : Property) (tally : Tally) : Field × Tally :=
  match record.find? property.name with
  | some (_, value) => (property.assign value, tally)
  | none => fill property tally

theorem fieldsOf_cons (property : Property) (rest : List Property)
    (tally : Tally) :
    fieldsOf fill record (property :: rest) tally =
      ((property.name, (fieldOf fill record property tally).1) ::
          (fieldsOf fill record rest (fieldOf fill record property tally).2).1,
        (fieldsOf fill record rest
          (fieldOf fill record property tally).2).2) :=
  rfl

/-- Every property has one field, under its name. -/
theorem names_fieldsOf (properties : List Property) (tally : Tally) :
    (fieldsOf fill record properties tally).1.map Prod.fst =
      properties.map Property.name := by
  induction properties generalizing tally with
  | nil => rfl
  | cons property rest induction =>
      rw [fieldsOf_cons, List.map_cons, List.map_cons, induction]

/-- A property has its turn once those before it had theirs. -/
theorem mem_fieldsOf (before after : List Property) (property : Property)
    (tally : Tally) :
    (property.name, (fieldOf fill record property
        (fieldsOf fill record before tally).2).1) ∈
      (fieldsOf fill record (before ++ property :: after) tally).1 := by
  induction before generalizing tally with
  | nil => exact List.mem_cons_self ..
  | cons first rest induction =>
      rw [List.cons_append, fieldsOf_cons, fieldsOf_cons]
      exact List.mem_cons_of_mem _ (induction _)

end

/-! ## Prepared records -/

/-- The values among some fields. -/
def valuesOf (fields : List (String × Field)) : List (String × Value) :=
  fields.filterMap fun (name, field) => field.value?.map (name, ·)

theorem valuesOf_cons (name : String) (field : Field)
    (rest : List (String × Field)) :
    valuesOf ((name, field) :: rest) =
      (field.value?.map (name, ·)).toList ++ valuesOf rest := by
  cases field <;> rfl

theorem names_valuesOf (fields : List (String × Field)) :
    ((valuesOf fields).map Prod.fst).Sublist (fields.map Prod.fst) := by
  induction fields with
  | nil => exact .slnil
  | cons first rest induction =>
      rw [valuesOf_cons, List.map_append, List.map_cons]
      cases first.2.value? with
      | none => exact induction.cons first.1
      | some value => exact induction.cons_cons first.1

/-- The value under a name is that of the one field of the name. -/
theorem find?_valuesOf {fields : List (String × Field)}
    (distinct : (fields.map Prod.fst).Nodup) {name : String} {field : Field}
    (member : (name, field) ∈ fields) :
    (valuesOf fields).find? (fun entry => decide (entry.1 = name)) =
      field.value?.map (name, ·) := by
  induction fields with
  | nil => cases member
  | cons first rest induction =>
      rcases first with ⟨firstName, firstField⟩
      rcases List.nodup_cons.mp distinct with ⟨fresh, later⟩
      rw [valuesOf_cons, List.find?_append]
      rcases List.mem_cons.mp member with same | inside
      · cases same
        have missing : (valuesOf rest).find?
            (fun entry => decide (entry.1 = name)) = none := by
          rw [List.find?_eq_none]
          intro entry held
          rw [decide_eq_true_eq]
          rintro rfl
          exact fresh ((names_valuesOf rest).subset
            (List.mem_map_of_mem held))
        rw [missing]
        cases field.value? <;> simp
      · have different : firstName ≠ name := by
          rintro rfl
          exact fresh (List.mem_map.mpr ⟨_, inside, rfl⟩)
        rw [induction later inside]
        cases firstField.value? <;> simp [different]

namespace Entity

variable (entity : Entity) (fill : Property → Tally → Field × Tally)
  (record : Record)

/-- The evaluations made when a property of an entity has its turn. -/
def turnOf (property : Property) (tally : Tally) : Tally :=
  (fieldsOf fill record
    (entity.properties.items.takeWhile fun other =>
      decide (other.name ≠ property.name)) tally).2

variable {entity fill record} {prepared : Record} {tally : Tally}

/-- A prepared record holds the values of the fields. -/
theorem find?_of_prepare {property : Property}
    (held : property ∈ entity.properties.items)
    (accepted : (entity.prepare fill record tally).1 = .ok prepared) :
    prepared.find? property.name =
      (fieldOf fill record property
        (entity.turnOf fill record property tally)).1.value?.map
          (property.name, ·) := by
  have distinct : ((fieldsOf fill record entity.properties.items
      tally).1.map Prod.fst).Nodup := by
    rw [names_fieldsOf]
    exact entity.properties.distinct
  rcases Table.exists_items_eq held with ⟨after, split⟩
  have member := mem_fieldsOf fill record
    (entity.properties.items.takeWhile fun other =>
      decide (other.name ≠ property.name)) after property tally
  rw [← split] at member
  rw [turnOf, ← find?_valuesOf distinct member]
  unfold prepare at accepted
  dsimp only at accepted
  split at accepted
  · cases accepted
    exact Table.find?_ofList (distinct.sublist (names_valuesOf _)) property.name
  · cases accepted

end Entity

/-! ## Nulls -/

namespace Property

variable (sources : Sources) (property : Property) (tally : Tally)

/-- The value that a property generates when it is left out on create: the
answer of its hook, else its default. -/
def generated? : Option Value :=
  match property.onCreate with
  | some hook => some (sources.evaluateHook hook tally).1
  | none => property.default

/-- The value that a property generates when it is left out of an update: the
answer of its hook. -/
def renewed? : Option Value :=
  property.onUpdate.map fun hook => (sources.evaluateHook hook tally).1

variable {sources property tally}

theorem value?_fillOnCreate (required : property.nullable = false) :
    (property.fillOnCreate sources tally).1.value? =
      if property.isWritable then property.generated? sources tally
      else none := by
  unfold fillOnCreate generated?
  cases property.isWritable with
  | false => rfl
  | true =>
      cases property.onCreate with
      | some hook => rfl
      | none =>
          cases property.default with
          | some value => rfl
          | none => cases optional : property.isOptionalOnInput <;>
              simp [required, Field.value?]

theorem value?_fillOnUpdate :
    (property.fillOnUpdate sources tally).1.value? =
      property.renewed? sources tally := by
  unfold fillOnUpdate renewed?
  cases property.onUpdate <;> rfl

/-- What is assigned to a property that is not nullable is not null. -/
theorem assign_ne_null (required : property.nullable = false) (value : Value) :
    (property.assign value).value? ≠ some .null := by
  unfold assign
  rw [required]
  cases value <;> cases property.isWritable <;>
    simp [Value.isNull, Field.value?]

/-- The field of a property that is not nullable is null only where the
property was left out and null was filled in. -/
theorem null_fieldOf_iff {fill : Property → Tally → Field × Tally}
    {record : Record} (required : property.nullable = false) :
    (fieldOf fill record property tally).1.value? = some .null ↔
      record.find? property.name = none ∧
        (fill property tally).1.value? = some .null := by
  unfold fieldOf
  cases record.find? property.name with
  | none => simp
  | some entry => simp [assign_ne_null required entry.2]

end Property

/-! ## Notes -/

/-- Notes have a state that must not be null, though its default and the hook
for updates are. -/
def notes : Registry :=
  (Registry.registerAll {} [
    { name := "Note"
      properties := .ofList [
        ("id", { Options.typed "integer" with primary := true }),
        ("state", { Options.typed "string" with
          default := some .null
          onUpdate := some ⟨0⟩ })] }]).1

/-- The graph of the notes. -/
def notesGraph : Graph :=
  match (notes.finalize shopSources .empty).outcome with
  | .ok graph => graph
  | .error _ => default

theorem reachable_notes : Registry.Reachable shopSources notes :=
  (Registry.Reachable.new {}).registerAll _

theorem finalize_notes :
    (notes.finalize shopSources .empty).outcome = .ok notesGraph :=
  rfl

/-! ## Prepared nulls -/

/-- A prepared record holds null for a property that is not nullable exactly if
the property was left out and generated null in its turn: on create if it can
be assigned and its hook, or without one its default, gives null, and on update
if its hook does. -/
theorem prepared_null_iff {sources : Sources} {entity : Entity}
    {property : Property} (held : property ∈ entity.properties.items)
    (required : property.nullable = false) (record : Record) (tally : Tally) :
    (∀ prepared, (entity.prepareCreate sources record tally).1 = .ok prepared →
      (prepared.find? property.name = some (property.name, .null) ↔
        record.find? property.name = none ∧ property.isWritable = true ∧
          property.generated? sources
            (entity.turnOf (Property.fillOnCreate sources) record property
              tally) = some .null)) ∧
    ∀ prepared, (entity.prepareUpdate sources record tally).1 = .ok prepared →
      (prepared.find? property.name = some (property.name, .null) ↔
        record.find? property.name = none ∧
          property.renewed? sources
            (entity.turnOf (Property.fillOnUpdate sources) record property
              tally) = some .null) := by
  have named : ∀ field : Field,
      field.value?.map (property.name, ·) = some (property.name, .null) ↔
        field.value? = some .null := by
    intro field
    cases field.value? <;> simp
  constructor
  · intro prepared accepted
    rw [Entity.find?_of_prepare held accepted, named,
      Property.null_fieldOf_iff required,
      Property.value?_fillOnCreate required]
    refine and_congr_right fun _ => ?_
    cases property.isWritable <;> simp
  · intro prepared accepted
    rw [Entity.find?_of_prepare held accepted, named,
      Property.null_fieldOf_iff required, Property.value?_fillOnUpdate]

/-- A note that is created or updated without a state gets null for one. -/
theorem prepared_null_iff_notes :
    Registry.Reachable shopSources notes ∧
      (notes.finalize shopSources .empty).outcome = .ok notesGraph ∧
      ∃ entity property, notesGraph.entity? "Note" = some entity ∧
        property ∈ entity.properties.items ∧ property.name = "state" ∧
        property.nullable = false ∧
        (∃ prepared,
          (entity.prepareCreate shopSources .empty .empty).1 = .ok prepared ∧
            prepared.find? property.name = some (property.name, .null)) ∧
        ∃ prepared,
          (entity.prepareUpdate shopSources .empty .empty).1 = .ok prepared ∧
            prepared.find? property.name = some (property.name, .null) := by
  have present : ∃ entity property created changed,
      notesGraph.entity? "Note" = some entity ∧
      entity.property? "state" = some property ∧
      property.nullable = false ∧ property.isWritable = true ∧
      (∀ tally, property.generated? shopSources tally = some .null) ∧
      (∀ tally, property.renewed? shopSources tally = some .null) ∧
      (entity.prepareCreate shopSources .empty .empty).1 = .ok created ∧
      (entity.prepareUpdate shopSources .empty .empty).1 = .ok changed :=
    ⟨_, _, _, _, rfl, rfl, rfl, rfl, fun _ => rfl, fun _ => rfl, rfl, rfl⟩
  rcases present with ⟨entity, property, created, changed, known, found,
    required, writable, generated, renewed, creates, changes⟩
  rcases Table.find?_eq_some found with ⟨held, named⟩
  rcases prepared_null_iff held required .empty .empty with
    ⟨create, update⟩
  exact ⟨reachable_notes, finalize_notes, entity, property, known, held, named,
    required,
    ⟨created, creates, (create _ creates).mpr ⟨rfl, writable, generated _⟩⟩,
    changed, changes, (update _ changes).mpr ⟨rfl, renewed _⟩⟩

end EntityCatalog
