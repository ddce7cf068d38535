import EntityCatalog.Proofs.Graph.Assignable

/-!
# Offences of records

What a record offends against can be told from the record and the properties
alone, before any hook is called.  Preparation accepts exactly the records
without an offence, and refuses any other with all of its offences, in the order
of the properties and then of the record (`prepare_judges`).  Only a null for a
property that can neither be null nor be assigned offends twice and is reported
once.  Hooks are called whether or not a record is refused.
-/

namespace EntityCatalog

/-- What a record is prepared for. -/
inductive Purpose where
  | create
  | update
  deriving DecidableEq, Repr

/-! ## Offences -/

/-- What is wrong with a record for an entity, and under which name. -/
inductive Entity.Offends (entity : Entity) (record : Record)
    (purpose : Purpose) : String → FieldFault → Prop where
  | unknown {name : String} (supplied : name ∈ record.keys)
      (foreign : name ∉ entity.properties.keys) :
      Offends entity record purpose name .unknown
  | notWritable {name : String} {property : Property}
      (held : entity.property? name = some property)
      (supplied : name ∈ record.keys) (fixed : property.isWritable = false) :
      Offends entity record purpose name .notWritable
  | null {name : String} {property : Property}
      (held : entity.property? name = some property)
      (supplied : record.find? name = some (name, .null))
      (required : property.nullable = false) :
      Offends entity record purpose name .null
  | missing {name : String} {property : Property}
      (held : entity.property? name = some property)
      (left : name ∉ record.keys) (creates : purpose = .create)
      (writable : property.isWritable = true)
      (required : property.isOptionalOnInput = false) :
      Offends entity record purpose name .missing

/-- An offence that is reported: a null for a property that cannot be assigned
is not reported as a null too. -/
def Entity.Reported (entity : Entity) (record : Record) (purpose : Purpose)
    (name : String) (fault : FieldFault) : Prop :=
  entity.Offends record purpose name fault ∧
    ¬ (fault = .null ∧ entity.Offends record purpose name .notWritable)

/-- Faults that report the offences of a record. -/
structure Entity.Reports (entity : Entity) (record : Record)
    (purpose : Purpose) (faults : List (String × FieldFault)) : Prop where
  exact : ∀ name fault,
    (name, fault) ∈ faults ↔ entity.Reported record purpose name fault
  once : (faults.map Prod.fst).Nodup
  /-- Those of properties come first, in the order of the properties, and the
  names that no property has follow in the order of the record. -/
  ordered : ∃ (known : List (String × FieldFault)) (unknown : List String),
    faults = known ++ unknown.map (·, .unknown) ∧
      (known.map Prod.fst).Sublist entity.properties.keys ∧
      unknown.Sublist record.keys ∧
      ∀ name ∈ unknown, name ∉ entity.properties.keys

/-- What preparation says of a record. -/
structure Entity.Judges (entity : Entity) (record : Record) (purpose : Purpose)
    (result : Except RecordFaults Record) : Prop where
  accepts : (∃ prepared, result = .ok prepared) ↔
    ∀ name fault, ¬ entity.Offends record purpose name fault
  refuses : ∀ found, result = .error found →
    found.entity = entity.name ∧ entity.Reports record purpose found.faults

theorem Value.eq_null_of_isNull {value : Value} (null : value.isNull = true) :
    value = .null := by
  cases value with
  | null => rfl
  | _ => cases null

namespace Property

/-- The hook that is called for a property that is left out. -/
def hookFor (property : Property) : Purpose → Option Hook
  | .create => if property.isWritable then property.onCreate else none
  | .update => property.onUpdate

/-- Whether an evaluation is made for a property: it is left out, and the
evaluation is that of its hook. -/
def calls (record : Record) (purpose : Purpose) (evaluation : Evaluation)
    (property : Property) : Bool :=
  !record.contains property.name &&
    decide ((property.hookFor purpose).map (fun hook =>
      Evaluation.hook hook.source) = some evaluation)

/-- Whether a property must not be left out. -/
def isRequired (property : Property) : Purpose → Bool
  | .create => property.isWritable && !property.isOptionalOnInput
  | .update => false

theorem isRequired_iff {property : Property} {purpose : Purpose} :
    property.isRequired purpose = true ↔
      purpose = .create ∧ property.isWritable = true ∧
        property.isOptionalOnInput = false := by
  cases purpose <;> simp [isRequired]

theorem fault?_assign (property : Property) (value : Value) :
    (property.assign value).fault? =
      if property.isWritable = false then some .notWritable
      else if value.isNull = true ∧ property.nullable = false then some .null
      else none := by
  unfold assign
  cases property.isWritable <;> cases property.nullable <;>
    cases value.isNull <;> rfl

/-- The fault of a property of a record. -/
def faultIn (record : Record) (purpose : Purpose) (property : Property) :
    Option FieldFault :=
  match record.find? property.name with
  | some (_, value) => (property.assign value).fault?
  | none => if property.isRequired purpose then some .missing else none

end Property

/-- How often preparation makes an evaluation: once for each property that has
the hook and is left out. -/
def Entity.calls (entity : Entity) (record : Record) (purpose : Purpose)
    (evaluation : Evaluation) : Nat :=
  entity.properties.items.countP (Property.calls record purpose evaluation)

/-! ## What is left out -/

/-- How a property that is left out for a purpose is filled in. -/
structure FillsFor (purpose : Purpose)
    (fill : Property → Tally → Field × Tally) : Prop where
  fault : ∀ property tally, (fill property tally).1.fault? =
    if property.isRequired purpose then some .missing else none
  tally : ∀ property tally, (fill property tally).2 =
    (property.hookFor purpose).elim tally fun hook =>
      tally.record (.hook hook.source)

/-- What has a hook or a default need not be given. -/
theorem Property.isOptionalOnInput_of_isGenerated {property : Property}
    (generated : property.isGenerated = true) :
    property.isOptionalOnInput = true := by
  simp [isOptionalOnInput, generated]

theorem fillsFor_create (sources : Sources) :
    FillsFor .create (Property.fillOnCreate sources) where
  fault := by
    intro property tally
    unfold Property.fillOnCreate Property.isRequired
    cases property.isWritable with
    | false => rfl
    | true =>
        cases hook : property.onCreate with
        | some source =>
            have generated : property.isGenerated = true := by
              simp [Property.isGenerated, hook]
            rw [Property.isOptionalOnInput_of_isGenerated generated]
            rfl
        | none =>
            cases default : property.default with
            | some value =>
                have generated : property.isGenerated = true := by
                  simp [Property.isGenerated, default]
                rw [Property.isOptionalOnInput_of_isGenerated generated]
                rfl
            | none =>
                cases nullable : property.nullable <;>
                  cases optional : property.isOptionalOnInput <;>
                  simp_all [Property.isOptionalOnInput, Field.fault?]
  tally := by
    intro property tally
    unfold Property.fillOnCreate Property.hookFor
    cases property.isWritable with
    | false => rfl
    | true =>
        cases property.onCreate with
        | some hook => rfl
        | none =>
            cases property.default with
            | some value => rfl
            | none =>
                cases property.nullable <;>
                  cases property.isOptionalOnInput <;> rfl

theorem fillsFor_update (sources : Sources) :
    FillsFor .update (Property.fillOnUpdate sources) where
  fault := by
    intro property tally
    unfold Property.fillOnUpdate
    cases property.onUpdate <;> rfl
  tally := by
    intro property tally
    unfold Property.fillOnUpdate Property.hookFor
    cases property.onUpdate <;> rfl

/-! ## Fields in turn -/

section

variable {purpose : Purpose} {fill : Property → Tally → Field × Tally}
  {record : Record}

theorem fault?_fieldOf (fills : FillsFor purpose fill) (property : Property)
    (tally : Tally) :
    (fieldOf fill record property tally).1.fault? =
      property.faultIn record purpose := by
  unfold fieldOf Property.faultIn
  cases record.find? property.name with
  | none => exact fills.fault property tally
  | some entry => rfl

/-- Which fields are at fault does not depend on what hooks answer. -/
theorem faults_fieldsOf (fills : FillsFor purpose fill)
    (properties : List Property) (tally : Tally) :
    ((fieldsOf fill record properties tally).1.filterMap fun (name, field) =>
        field.fault?.map (name, ·)) =
      properties.filterMap fun property =>
        (property.faultIn record purpose).map (property.name, ·) := by
  induction properties generalizing tally with
  | nil => rfl
  | cons property rest induction =>
      rw [fieldsOf_cons, List.filterMap_cons, List.filterMap_cons]
      dsimp only
      rw [fault?_fieldOf fills, induction]

theorem count_fieldOf (fills : FillsFor purpose fill) (property : Property)
    (tally : Tally) (evaluation : Evaluation) :
    (fieldOf fill record property tally).2.count evaluation =
      tally.count evaluation +
        if property.calls record purpose evaluation then 1 else 0 := by
  unfold fieldOf Property.calls
  rw [Table.contains_eq]
  cases record.find? property.name with
  | some entry => simp
  | none =>
      dsimp only
      rw [fills.tally]
      cases property.hookFor purpose with
      | none => simp
      | some hook => simp [Tally.count_record]

/-- Every property that is left out has its hook called in its turn. -/
theorem count_fieldsOf (fills : FillsFor purpose fill)
    (properties : List Property) (tally : Tally) (evaluation : Evaluation) :
    (fieldsOf fill record properties tally).2.count evaluation =
      tally.count evaluation +
        properties.countP (Property.calls record purpose evaluation) := by
  induction properties generalizing tally with
  | nil => rfl
  | cons property rest induction =>
      rw [fieldsOf_cons, List.countP_cons]
      dsimp only
      rw [induction, count_fieldOf fills]
      omega

end

/-! ## Faults and offences -/

namespace Entity

variable {entity : Entity} {record : Record} {purpose : Purpose}
  {name : String} {fault : FieldFault}

/-- The faults that are found in a record. -/
def faultsIn (entity : Entity) (record : Record) (purpose : Purpose) :
    List (String × FieldFault) :=
  (entity.properties.items.filterMap fun property =>
      (property.faultIn record purpose).map (property.name, ·)) ++
    (entity.unknownNames record).map (·, .unknown)

theorem mem_unknownNames_iff :
    name ∈ entity.unknownNames record ↔
      name ∈ record.keys ∧ name ∉ entity.properties.keys := by
  rw [unknownNames, List.mem_filter, Bool.not_eq_true', ← Bool.not_eq_true,
    Table.contains_iff_mem_keys]

section

variable {property : Property} (held : entity.property? name = some property)

include held

theorem reported_of_faultIn
    (faulty : property.faultIn record purpose = some fault) :
    entity.Reported record purpose name fault := by
  rcases (Table.find?_eq_some held).2 with rfl
  unfold Property.faultIn at faulty
  cases given : record.find? property.name with
  | none =>
      rw [given] at faulty
      rcases Option.ite_none_right_eq_some.mp faulty with ⟨required, same⟩
      cases same
      rcases Property.isRequired_iff.mp required with
        ⟨creates, writable, demanded⟩
      exact ⟨.missing held (Table.find?_eq_none_iff.mp given) creates writable
        demanded, fun both => nomatch both.1⟩
  | some entry =>
      rcases entry with ⟨other, value⟩
      cases (Table.find?_eq_some given).2
      rw [given] at faulty
      dsimp only at faulty
      rw [Property.fault?_assign] at faulty
      split at faulty
      · rename_i fixed
        cases faulty
        exact ⟨.notWritable held (Table.mem_keys_of_find? given) fixed,
          fun both => nomatch both.1⟩
      · rename_i writable
        rcases Option.ite_none_right_eq_some.mp faulty with
          ⟨⟨null, required⟩, same⟩
        cases same
        rw [Value.eq_null_of_isNull null] at given
        refine ⟨.null held given required, fun both => ?_⟩
        -- Only what can be assigned is asked for null.
        cases both.2 with
        | notWritable heldToo _ fixed =>
            rw [held] at heldToo
            cases heldToo
            exact writable fixed

theorem faultIn_of_reported
    (reported : entity.Reported record purpose name fault) :
    property.faultIn record purpose = some fault := by
  rcases (Table.find?_eq_some held).2 with rfl
  rcases reported with ⟨offends, single⟩
  unfold Property.faultIn
  cases offends with
  | unknown _ foreign =>
      exact absurd (Table.mem_keys_of_find? held) foreign
  | notWritable heldToo supplied fixed =>
      rw [held] at heldToo
      cases heldToo
      rcases Table.mem_keys_iff.mp supplied with ⟨entry, given⟩
      rw [given]
      dsimp only
      rw [Property.fault?_assign, if_pos fixed]
  | null heldToo supplied required =>
      rw [held] at heldToo
      cases heldToo
      have writable : property.isWritable ≠ false := fun fixed =>
        single ⟨rfl, .notWritable held (Table.mem_keys_of_find? supplied) fixed⟩
      rw [supplied]
      dsimp only
      rw [Property.fault?_assign, if_neg writable, if_pos ⟨rfl, required⟩]
  | missing heldToo left creates writable required =>
      rw [held] at heldToo
      cases heldToo
      rw [Table.find?_eq_none_iff.mpr left]
      exact if_pos (Property.isRequired_iff.mpr ⟨creates, writable, required⟩)

/-- The fault of a property is the offence that is reported. -/
theorem faultIn_eq_some_iff :
    property.faultIn record purpose = some fault ↔
      entity.Reported record purpose name fault :=
  ⟨reported_of_faultIn held, faultIn_of_reported held⟩

end

/-- The faults that are found are the offences that are reported. -/
theorem mem_faultsIn_iff :
    (name, fault) ∈ entity.faultsIn record purpose ↔
      entity.Reported record purpose name fault := by
  rw [faultsIn, List.mem_append, List.mem_filterMap, List.mem_map]
  constructor
  · rintro (⟨property, member, faulty⟩ | ⟨other, listed, same⟩)
    · rcases Option.map_eq_some_iff.mp faulty with ⟨found, here, same⟩
      cases same
      exact (faultIn_eq_some_iff (Table.find?_key member)).mp here
    · cases same
      rcases mem_unknownNames_iff.mp listed with ⟨supplied, foreign⟩
      exact ⟨.unknown supplied foreign, fun both => nomatch both.1⟩
  · intro reported
    cases held : entity.property? name with
    | some property =>
        refine Or.inl ⟨property, (Table.find?_eq_some held).1, ?_⟩
        rw [(faultIn_eq_some_iff held).mpr reported,
          (Table.find?_eq_some held).2, Option.map_some]
    | none =>
        -- Without a property of the name there is one offence only.
        cases reported.1 with
        | unknown supplied foreign =>
            exact Or.inr ⟨name, mem_unknownNames_iff.mpr ⟨supplied, foreign⟩, rfl⟩
        | notWritable known | null known | missing known =>
            rw [held] at known
            cases known

/-- Whatever offends is reported, if not as itself. -/
theorem Offends.exists_reported
    (offends : entity.Offends record purpose name fault) :
    ∃ fault, entity.Reported record purpose name fault := by
  by_cases both : fault = .null ∧ entity.Offends record purpose name .notWritable
  · exact ⟨.notWritable, both.2, fun again => nomatch again.1⟩
  · exact ⟨fault, offends, both⟩

theorem reports_faultsIn :
    entity.Reports record purpose (entity.faultsIn record purpose) := by
  have known : ((entity.properties.items.filterMap fun property =>
      (property.faultIn record purpose).map (property.name, ·)).map
        Prod.fst).Sublist entity.properties.keys := by
    rw [List.map_filterMap]
    refine Table.sublist_filterMap fun property name named => ?_
    rcases Option.map_eq_some_iff.mp named with ⟨entry, here, rfl⟩
    rcases Option.map_eq_some_iff.mp here with ⟨fault, -, rfl⟩
    rfl
  have unknown : (entity.unknownNames record).Sublist record.keys :=
    List.filter_sublist
  have names : ((entity.unknownNames record).map
      fun name => (name, FieldFault.unknown)).map Prod.fst =
        entity.unknownNames record := by
    rw [List.map_map]
    exact List.map_id _
  refine ⟨fun _ _ => mem_faultsIn_iff, ?_, _, _, rfl, known, unknown,
    fun name listed => (mem_unknownNames_iff.mp listed).2⟩
  rw [faultsIn, List.map_append, names]
  refine List.nodup_append.mpr ⟨entity.properties.distinct.sublist known,
    record.distinct.sublist unknown, fun name inside other listed same => ?_⟩
  subst same
  exact (mem_unknownNames_iff.mp listed).2 (known.subset inside)

/-- Whether or not a record is accepted, every property has had its turn. -/
theorem tally_prepare (entity : Entity)
    (fill : Property → Tally → Field × Tally) (record : Record)
    (tally : Tally) :
    (entity.prepare fill record tally).2 =
      (fieldsOf fill record entity.properties.items tally).2 := by
  unfold prepare
  dsimp only
  split <;> rfl

/-- Preparation judges a record by its offences, whatever hooks answer. -/
theorem judges_of_fillsFor {fill : Property → Tally → Field × Tally}
    (fills : FillsFor purpose fill) (tally : Tally) :
    entity.Judges record purpose (entity.prepare fill record tally).1 := by
  have faultless : entity.faultsIn record purpose = [] ↔
      ∀ name fault, ¬ entity.Offends record purpose name fault := by
    rw [List.eq_nil_iff_forall_not_mem]
    constructor
    · intro none name fault offends
      rcases offends.exists_reported with ⟨fault, reported⟩
      exact none _ (mem_faultsIn_iff.mpr reported)
    · rintro none ⟨name, fault⟩ listed
      exact none name fault (mem_faultsIn_iff.mp listed).1
  unfold prepare
  dsimp only
  rw [faults_fieldsOf fills, ← faultsIn]
  split
  · rename_i empty
    exact ⟨iff_of_true ⟨_, rfl⟩ (faultless.mp (List.isEmpty_iff.mp empty)),
      fun _ refused => nomatch refused⟩
  · rename_i faulty
    refine ⟨iff_of_false (fun ⟨_, accepted⟩ => nomatch accepted) fun none =>
      faulty (List.isEmpty_iff.mpr (faultless.mpr none)), fun found refused => ?_⟩
    cases refused
    exact ⟨rfl, reports_faultsIn⟩

end Entity

/-! ## Records that are judged -/

/-- Preparation accepts the records without an offence and reports the offences
of all others.  Whether or not it accepts, it calls the hooks of what is left
out, each once for each property that has it: on create those of the properties
that can be assigned, and on update those of all. -/
theorem prepare_judges (sources : Sources) (entity : Entity) (record : Record)
    (tally : Tally) :
    (entity.Judges record .create
        (entity.prepareCreate sources record tally).1 ∧
      ∀ evaluation,
        (entity.prepareCreate sources record tally).2.count evaluation =
          tally.count evaluation + entity.calls record .create evaluation) ∧
    entity.Judges record .update
        (entity.prepareUpdate sources record tally).1 ∧
      ∀ evaluation,
        (entity.prepareUpdate sources record tally).2.count evaluation =
          tally.count evaluation + entity.calls record .update evaluation := by
  refine ⟨⟨Entity.judges_of_fillsFor (fillsFor_create sources) tally,
    fun evaluation => ?_⟩,
    Entity.judges_of_fillsFor (fillsFor_update sources) tally,
    fun evaluation => ?_⟩
  · rw [Entity.prepareCreate, Entity.tally_prepare]
    exact count_fieldsOf (fillsFor_create sources) _ tally evaluation
  · rw [Entity.prepareUpdate, Entity.tally_prepare]
    exact count_fieldsOf (fillsFor_update sources) _ tally evaluation

/-- An article whose tags are null. -/
def taglessArticle : Record :=
  .ofList [("title", .string "News"), ("tags", .null)]

/-- Tags cannot be assigned and cannot be null.  An article whose tags are null
offends twice and is refused with one fault. -/
theorem reports_one_of_taglessArticle :
    Registry.Reachable shopSources magazine ∧
      (magazine.finalize shopSources .empty).outcome = .ok magazineGraph ∧
      ∃ entity ∈ magazineGraph.entities.items, entity.name = "Article" ∧
      ∃ found,
        (entity.prepareCreate shopSources taglessArticle .empty).1 =
          .error found ∧
        found.faults = [("tags", .notWritable)] ∧
        ¬ ∀ name fault, (name, fault) ∈ found.faults ↔
          entity.Offends taglessArticle .create name fault := by
  have present : ∃ entity property found,
      magazineGraph.entity? "Article" = some entity ∧
      entity.property? "tags" = some property ∧
      property.nullable = false ∧
      (entity.prepareCreate shopSources taglessArticle .empty).1 =
        .error found ∧
      found.faults = [("tags", .notWritable)] :=
    ⟨_, _, _, rfl, rfl, rfl, rfl, rfl⟩
  rcases present with
    ⟨entity, property, found, known, held, required, refused, faults⟩
  rcases Table.find?_eq_some known with ⟨member, named⟩
  refine ⟨reachable_magazine, finalize_magazine, entity, member, named, found,
    refused, faults, fun every => ?_⟩
  have listed := (every "tags" .null).mpr (.null held rfl required)
  rw [faults] at listed
  cases listed with
  | tail _ inside => cases inside

end EntityCatalog
