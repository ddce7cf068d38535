import EntityCatalog.Proofs.Json.Records
import EntityCatalog.Proofs.Schema.Groups

/-!
# Portable declarations

A declaration is portable when it can be made by a document as well as by a
program: entities are referred to by name, items and defaults are literals,
rules are texts, and there are no hooks.  `PortableSchema.schema` is what the
program builds, property by property.

What a document may say is a relation.  `PortableSchema.Spelled` admits the
members of an object in any order, leaves it open whether what is absent is
written or left out, and keeps repeated properties.  Whatever it says decodes
to the schema that the program builds (`PortableSchema.Spelled.decode`).
-/

namespace EntityCatalog

open Json

/-! ## Literals -/

/-- A value that documents and programs write alike. -/
inductive Literal where
  | bool (value : Bool)
  | integer (value : Int64)
  | string (value : String)
  deriving DecidableEq, Repr

namespace Literal

/-- The value of a literal. -/
def value : Literal → Value
  | .bool value => .bool value
  | .integer value => .integer value
  | .string value => .string value

/-- A literal in documents. -/
def json : Literal → Json
  | .bool value => .bool value
  | .integer value => .integer value.toInt
  | .string value => .string value

theorem inRange_toInt (number : Int64) : InRange number.toInt := by
  have lower := number.le_toInt
  have upper := number.toInt_lt
  simp only [InRange, Nat.pow_eq, Nat.reducePow]
  constructor <;> omega

theorem whole_json (literal : Literal) : Whole literal.json := by
  cases literal with
  | bool value => exact .bool value
  | integer value => exact .integer (inRange_toInt value)
  | string value => exact .string value

theorem decode_json (depth : Nat) (literal : Literal) :
    Value.decode depth literal.json.node = .ok literal.value := by
  cases literal with
  | bool value => cases depth <;> rfl
  | string value => cases depth <;> rfl
  | integer value =>
      have read : Value.decode depth (Json.integer value.toInt).node =
          .ok (Value.ofInteger value.toInt) := by
        cases depth <;> rfl
      have small : Int64.minValue.toInt ≤ value.toInt ∧
          value.toInt ≤ Int64.maxValue.toInt :=
        ⟨value.minValue_le_toInt, value.toInt_le⟩
      rw [json, read, Value.ofInteger, if_pos small, Int64.ofInt_toInt]
      rfl

end Literal

/-! ## Options -/

/-- The options of a property as a document can give them. -/
structure PortableOptions where
  kind : Option PropertyKind := none
  typeName : Option String := none
  entity : Option String := none
  isEnum : Bool := false
  items : Option (List Literal) := none
  nullable : Option Bool := none
  array : Bool := false
  reference : Bool := false
  primary : Bool := false
  mapToKey : Bool := false
  default : Option Literal := none
  owner : Option Bool := none
  mappedBy : Option String := none
  inversedBy : Option String := none
  deleteRule : Option String := none
  updateRule : Option String := none
  checkTime : Option CheckTime := none
  fixedOrder : Bool := false
  columnPrefix : Option String := none
  deriving DecidableEq, Repr

/-- The members of an object say what all members say, where those that say
only what is so by default may be left out.  Their order is free. -/
structure Spelled (byDefault full members : List (String × Json)) : Prop where
  distinct : (members.map Prod.fst).Nodup
  said : members ⊆ full
  /-- What is not written is so by default. -/
  complete : ∀ member ∈ full, member ∈ members ∨ member ∈ byDefault

/-- With those that were left out, the members are all of them. -/
theorem Spelled.exists_perm {byDefault full members : List (String × Json)}
    (spelled : Spelled byDefault full members)
    (distinct : (full.map Prod.fst).Nodup) :
    ∃ skipped, (skipped ++ members).Perm full ∧ skipped ⊆ byDefault := by
  let written : String × Json → Bool := fun member =>
    decide (member.1 ∈ members.map Prod.fst)
  refine ⟨full.filter fun member => !written member, ?_, ?_⟩
  · have same : (full.filter written).Perm members := by
      rw [List.perm_ext_iff_of_nodup (distinct.of_map.filter _)
        spelled.distinct.of_map]
      intro member
      rw [List.mem_filter, decide_eq_true_eq]
      constructor
      · rintro ⟨here, key⟩
        rcases List.mem_map.1 key with ⟨other, there, equal⟩
        have found := spelled.said there
        rwa [List.inj_on_of_nodup_map distinct here found equal.symm]
      · exact fun here => ⟨spelled.said here, List.mem_map_of_mem here⟩
    exact (same.symm.append_left _).trans
      (List.perm_append_comm.trans (List.filter_append_perm written full))
  · intro member skipped
    rcases List.mem_filter.1 skipped with ⟨here, unwritten⟩
    refine (spelled.complete member here).resolve_left fun there => ?_
    simp [written, List.mem_map_of_mem there] at unwritten

namespace PortableOptions

/-- The options that a program builds. -/
def options (portable : PortableOptions) : Options where
  kind := portable.kind
  typeName := portable.typeName
  entity := portable.entity.map .name
  isEnum := portable.isEnum
  items := portable.items.map fun items => .literal (items.map Literal.value)
  nullable := portable.nullable
  array := portable.array
  reference := portable.reference
  primary := portable.primary
  mapToKey := portable.mapToKey
  default := portable.default.map Literal.value
  owner := portable.owner
  mappedBy := portable.mappedBy
  inversedBy := portable.inversedBy
  deleteRule := portable.deleteRule.map ReferentialAction.ofText
  updateRule := portable.updateRule.map ReferentialAction.ofText
  checkTime := portable.checkTime
  fixedOrder := portable.fixedOrder
  columnPrefix := portable.columnPrefix

/-- The options as members of an object, what is absent included. -/
def members (portable : PortableOptions) : List (String × Json) := [
  ("kind", .orNull (fun kind => .string kind.tag) portable.kind),
  ("type", .orNull .string portable.typeName),
  ("entity", .orNull .string portable.entity),
  ("enum", .bool portable.isEnum),
  ("items", .orNull (fun items => .array (items.map Literal.json))
    portable.items),
  ("nullable", .orNull .bool portable.nullable),
  ("array", .bool portable.array),
  ("ref", .bool portable.reference),
  ("primary", .bool portable.primary),
  ("mapToPk", .bool portable.mapToKey),
  ("default", .orNull Literal.json portable.default),
  ("owner", .orNull .bool portable.owner),
  ("mappedBy", .orNull .string portable.mappedBy),
  ("inversedBy", .orNull .string portable.inversedBy),
  ("deleteRule", .orNull .string portable.deleteRule),
  ("updateRule", .orNull .string portable.updateRule),
  ("deferMode", .orNull (fun time => .string time.text) portable.checkTime),
  ("fixedOrder", .bool portable.fixedOrder),
  ("prefix", .orNull .string portable.columnPrefix)]

/-- A document says what the options are. -/
def Spelled (portable : PortableOptions) (document : Json) : Prop :=
  ∃ members, document = .object members ∧
    EntityCatalog.Spelled (PortableOptions.members {}) portable.members members

/-! ### Fields -/

@[simp]
theorem decode_kinds (depth : Nat) (kind : Option PropertyKind) :
    decodeOption PropertyKind.decode depth
      (orNull (fun kind => .string kind.tag) kind).node = .ok kind := by
  have reads : ∀ kind : PropertyKind,
      PropertyKind.decode depth (Json.string kind.tag).node = .ok kind := by
    simp [PropertyKind.decode, decodeVariant, node]
  simpa using decode_orNull id (by simp [node]) reads kind

@[simp]
theorem decode_times (depth : Nat) (time : Option CheckTime) :
    decodeOption CheckTime.decode depth
      (orNull (fun time => .string time.text) time).node = .ok time := by
  have reads : ∀ time : CheckTime,
      CheckTime.decode depth (Json.string time.text).node = .ok time := by
    simp [CheckTime.decode, decodeVariant, node]
  simpa using decode_orNull id (by simp [node]) reads time

@[simp]
theorem decode_rules (depth : Nat) (rule : Option String) :
    decodeOption ReferentialAction.decode depth (orNull .string rule).node =
      .ok (rule.map ReferentialAction.ofText) :=
  decode_orNull _ (by simp [node]) (fun _ => rfl) rule

@[simp]
theorem decode_references (depth : Nat) (entity : Option String) :
    decodeOption EntityRef.decode depth (orNull .string entity).node =
      .ok (entity.map .name) :=
  decode_orNull _ (by simp [node]) (fun _ => rfl) entity

@[simp]
theorem decode_literals (depth : Nat) (literal : Option Literal) :
    decodeOption Value.decode depth (orNull Literal.json literal).node =
      .ok (literal.map Literal.value) := by
  have shown : ∀ literal : Literal, literal.json.node ≠ .null := by
    intro literal
    cases literal <;> simp [Literal.json, node]
  exact decode_orNull _ shown (Literal.decode_json depth) literal

@[simp]
theorem decode_items (depth : Nat) (items : Option (List Literal)) :
    decodeOption EnumItems.decode (depth + 1)
      (orNull (fun items => .array (items.map Literal.json)) items).node =
        .ok (items.map fun items => .literal (items.map Literal.value)) := by
  refine decode_orNull _ (by simp [node]) (fun items => ?_) items
  have decoded : decodeList Value.decode (depth + 1)
      (Json.array (items.map Literal.json)).node =
        .ok (items.map Literal.value) := by
    refine decodeList_node ?_
    rw [List.forall₂_map_left_iff, List.forall₂_map_right_iff,
      List.forall₂_same]
    exact fun literal _ => literal.decode_json depth
  rw [EnumItems.decode, decoded]
  rfl

/-! ### Records -/

theorem independent_format : Options.format.Independent := by
  simp only [RecordFormat.Independent, Options.format, Options.field,
    List.pairwise_cons, List.forall_mem_cons, List.Pairwise.nil,
    List.not_mem_nil, false_imp_iff, implies_true, and_true]
  repeat' apply And.intro
  all_goals exact Field.separate_of fun _ _ _ => rfl

theorem reads_members (depth : Nat) (portable : PortableOptions) :
    ∀ member ∈ portable.members,
      ∃ set, Options.format.Reads (depth + 1) member set := by
  simp [members, RecordFormat.Reads, Options.format, Options.field, Except.map]

theorem nodup_members (portable : PortableOptions) :
    (portable.members.map Prod.fst).Nodup := by
  simp [members]

/-- The members set what the program builds. -/
theorem foldl_members (depth : Nat) (portable : PortableOptions) :
    portable.members.foldl (Options.format.apply (depth + 1))
      Options.format.initial = portable.options := by
  simp [members, RecordFormat.apply, Options.format, Options.field, Except.map,
    options]

/-- The members of default options set what is there anyhow. -/
theorem apply_default (depth : Nat) :
    ∀ member ∈ members {},
      Options.format.apply (depth + 1) Options.format.initial member =
        Options.format.initial := by
  simp [members, RecordFormat.apply, Options.format, Options.field, Except.map]

/-- What a document says decodes to the options that a program builds. -/
theorem Spelled.decode {portable : PortableOptions} {document : Json}
    (spelled : portable.Spelled document) (depth : Nat) :
    Options.format.decode (depth + 2) document.node = .ok portable.options := by
  rcases spelled with ⟨members, rfl, spelled⟩
  rcases spelled.exists_perm portable.nodup_members with ⟨skipped, same, skips⟩
  rw [independent_format.decode_of_perm same (portable.reads_members depth)
    portable.nodup_members
    (fun member here => apply_default depth member (skips here))
    (by simp [Options.format, Options.field]), foldl_members]

theorem Spelled.whole {portable : PortableOptions} {document : Json}
    (spelled : portable.Spelled document) : Whole document := by
  rcases spelled with ⟨members, rfl, spelled⟩
  have items : ∀ items : List Literal, Whole (.array (items.map Literal.json)) :=
    fun items => whole_map fun literal _ => literal.whole_json
  have all : ∀ member ∈ portable.members, Whole member.2 := by
    simp [PortableOptions.members, whole_orNull, Whole.string, Whole.bool, items,
      Literal.whole_json]
  exact .object fun member here => all member (spelled.said here)

end PortableOptions

/-! ## Schemas -/

/-- The declaration of an entity as a document can make it. -/
structure PortableSchema where
  name : String
  base : Option String := none
  isAbstract : Bool := false
  embeddable : Bool := false
  keyless : Bool := false
  /-- The properties in the order in which they are declared, possibly
  several of one name. -/
  properties : List (String × PortableOptions) := []
  deriving DecidableEq, Repr

namespace PortableSchema

/-- The schema that a program builds, one property after another. -/
def schema (portable : PortableSchema) : Schema :=
  portable.properties.foldl
    (fun schema (name, declared) => schema.withProperty name declared.options)
    { name := portable.name
      base := portable.base.map .name
      isAbstract := portable.isAbstract
      embeddable := portable.embeddable
      keyless := portable.keyless }

/-- The members of an object that need not be there, given the properties. -/
def optionalMembers (portable : PortableSchema)
    (properties : List (String × Json)) : List (String × Json) := [
  ("extends", .orNull .string portable.base),
  ("abstract", .bool portable.isAbstract),
  ("embeddable", .bool portable.embeddable),
  ("keyless", .bool portable.keyless),
  ("properties", .object properties)]

/-- The schema as members of an object, what is absent included. -/
def members (portable : PortableSchema) (properties : List (String × Json)) :
    List (String × Json) :=
  ("name", .string portable.name) :: portable.optionalMembers properties

/-- A document says what the schema is: it has a member for every property
that is declared, in that order. -/
def Spelled (portable : PortableSchema) (document : Json) : Prop :=
  ∃ properties members, document = .object members ∧
    List.Forall₂ (fun declared property =>
        property.1 = declared.1 ∧ declared.2.Spelled property.2)
      portable.properties properties ∧
    EntityCatalog.Spelled (optionalMembers { name := "" } [])
      (portable.members properties) members

theorem foldl_withProperty (declared : List (String × PortableOptions))
    (schema : Schema) :
    declared.foldl
        (fun schema (name, declared) =>
          schema.withProperty name declared.options) schema =
      { schema with
        properties := schema.properties.insertAll
          (declared.map fun (name, declared) => (name, declared.options)) } := by
  rw [← Schema.foldl_withProperty, List.foldl_map]

theorem independent_format : Schema.format.Independent := by
  simp only [RecordFormat.Independent, Schema.format, List.pairwise_cons,
    List.forall_mem_cons, List.Pairwise.nil, List.not_mem_nil, false_imp_iff,
    implies_true, and_true]
  repeat' apply And.intro
  all_goals exact Field.separate_of fun _ _ _ => rfl

/-- The members of a default schema set what is there anyhow. -/
theorem apply_default (depth : Nat) :
    ∀ member ∈ optionalMembers { name := "" } [],
      Schema.format.apply (depth + 1) Schema.format.initial member =
        Schema.format.initial := by
  have empty : decodeTable Options.format.decode (depth + 1)
      (Json.object []).node = .ok .empty :=
    rfl
  simp [optionalMembers, RecordFormat.apply, Schema.format, Except.map, empty]

theorem name_mem_of_spelled {portable : PortableSchema}
    {properties members : List (String × Json)}
    (spelled : EntityCatalog.Spelled (optionalMembers { name := "" } [])
      (portable.members properties) members) :
    "name" ∈ members.map Prod.fst := by
  have here := spelled.complete _ (List.mem_cons_self ..)
  refine List.mem_map_of_mem (here.resolve_right fun byDefault => ?_)
  simp [optionalMembers] at byDefault

/-- What a document says decodes to the schema that a program builds. -/
theorem Spelled.decode {portable : PortableSchema} {document : Json}
    (spelled : portable.Spelled document) (depth : Nat) :
    Schema.format.decode (depth + 4) document.node = .ok portable.schema := by
  rcases spelled with ⟨properties, members, rfl, each, spelled⟩
  have table : decodeTable Options.format.decode (depth + 3)
      (Json.object properties).node =
        .ok (.ofList (portable.properties.map fun (name, declared) =>
          (name, declared.options))) := by
    refine decodeTable_node ?_
    rw [List.forall₂_map_right_iff]
    exact each.flip.imp fun _ _ said => ⟨said.1, said.2.decode depth⟩
  have distinct : ((portable.members properties).map Prod.fst).Nodup := by
    simp [PortableSchema.members, optionalMembers]
  have reads : ∀ member ∈ portable.members properties,
      ∃ set, Schema.format.Reads (depth + 3) member set := by
    simp [PortableSchema.members, optionalMembers, RecordFormat.Reads,
      Schema.format, Except.map, table]
  have built : (portable.members properties).foldl
      (Schema.format.apply (depth + 3)) Schema.format.initial =
        portable.schema := by
    rw [schema, foldl_withProperty]
    simp [PortableSchema.members, optionalMembers, RecordFormat.apply,
      Schema.format, Except.map, table, Table.ofList]
  have named := name_mem_of_spelled spelled
  rcases spelled.exists_perm distinct with ⟨skipped, same, skips⟩
  rw [independent_format.decode_of_perm same reads distinct
    (fun member here => apply_default (depth + 2) member (skips here))
    (by simpa [Schema.format] using named), built]

theorem Spelled.whole {portable : PortableSchema} {document : Json}
    (spelled : portable.Spelled document) : Whole document := by
  rcases spelled with ⟨properties, members, rfl, each, spelled⟩
  have declared : Whole (.object properties) :=
    .object (forall_mem_of_forall₂ each fun _ _ said => said.2.whole)
  have all : ∀ member ∈ portable.members properties, Whole member.2 := by
    simp [PortableSchema.members, optionalMembers, whole_orNull, Whole.string,
      Whole.bool, declared]
  exact .object fun member here => all member (spelled.said here)

end PortableSchema

/-! ## Documents -/

/-- A text is a document that says what the declarations are: it spells, with
blanks around it, an object whose one member lists them in order. -/
def Declares (declarations : List PortableSchema) (text : String) : Prop :=
  ∃ documents before spelling after,
    List.Forall₂ PortableSchema.Spelled declarations documents ∧
    Json.Spells (.object [("entities", .array documents)]) spelling ∧
    Json.Blank before ∧ Json.Blank after ∧
    text.toList = before ++ (spelling ++ after)

/-- What is written for the documents of declarations declares them, with
either spacing. -/
theorem declares_write {declarations : List PortableSchema}
    {documents : List Json}
    (said : List.Forall₂ PortableSchema.Spelled declarations documents)
    (spacing : Json.Spacing) :
    Declares declarations (String.ofList
      ((Json.object [("entities", .array documents)]).write spacing)) := by
  have whole : Whole (.object [("entities", .array documents)]) := by
    refine .object ?_
    rw [List.forall_mem_singleton]
    exact .array (forall_mem_of_forall₂ said fun _ _ spelled =>
      PortableSchema.Spelled.whole spelled)
  exact ⟨documents, [], _, [], said, spells_write whole spacing, blank_nil,
    blank_nil, by simp⟩

/-- A document decodes to the schemas that a program builds. -/
theorem Declares.listOfText {declarations : List PortableSchema}
    {text : String} (declares : Declares declarations text) :
    Schema.listOfText text = .ok (declarations.map PortableSchema.schema) := by
  rcases declares with
    ⟨documents, before, spelling, after, said, spells, leading, trailing, here⟩
  have list : decodeList Schema.format.decode 126
      (Json.array documents).node =
        .ok (declarations.map PortableSchema.schema) := by
    refine decodeList_node ?_
    rw [List.forall₂_map_right_iff]
    exact said.flip.imp fun _ _ spelled =>
      PortableSchema.Spelled.decode spelled 121
  rw [Schema.listOfText, decodeText_of_spells here leading spells trailing,
    nestingLimit, RecordFormat.decode_node]
  case reads =>
      simp [RecordFormat.Reads, Schema.documentFormat, Except.map, list]
  case distinct => simp
  case complete => simp [Schema.documentFormat]
  simp [RecordFormat.apply, Schema.documentFormat, Except.map, list]

end EntityCatalog
