import EntityCatalog.Json.Decode
import EntityCatalog.Proofs.Json.Spelling
import Mathlib.Data.List.Nodup
import Mathlib.Data.List.Pairwise
import Mathlib.Data.List.Perm.Basic

/-!
# Decoding what was spelled

A list decodes item by item and a table entry by entry.  A record decodes
member by member: each member sets one field (`RecordFormat.apply`), and the
object gives the record that its members set in turn (`decode_node`).  Where
fields are set independently of each other (`RecordFormat.Independent`) the
order of the members does not matter, and members that set what is there
anyhow may be left out (`decode_of_perm`).
-/

namespace EntityCatalog.Json

/-! ## Scalars -/

@[simp]
theorem decodeString_node (depth : Nat) (text : String) :
    decodeString depth (Json.string text).node = .ok text :=
  rfl

@[simp]
theorem decodeBool_node (depth : Nat) (value : Bool) :
    decodeBool depth (Json.bool value).node = .ok value :=
  rfl

/-- What is there in documents, or `null`. -/
def orNull {Item : Type} (write : Item → Json) : Option Item → Json
  | some item => write item
  | none => .null

theorem whole_orNull {Item : Type} {write : Item → Json}
    (whole : ∀ item, Whole (write item)) (item : Option Item) :
    Whole (.orNull write item) := by
  cases item with
  | none => exact .null
  | some item => exact whole item

/-- What may be absent is read where it was written. -/
theorem decode_orNull {Item Value : Type} {write : Item → Json}
    (means : Item → Value) {decode : Decoder Value} {depth : Nat}
    (shown : ∀ item, (write item).node ≠ .null)
    (reads : ∀ item, decode depth (write item).node = .ok (means item))
    (item : Option Item) :
    decodeOption decode depth (orNull write item).node =
      .ok (item.map means) := by
  cases item with
  | none => rfl
  | some item =>
      rw [orNull, decodeOption.eq_def]
      split
      · exact absurd ‹_› (shown item)
      · rw [reads]
        rfl

@[simp]
theorem decode_strings (depth : Nat) (text : Option String) :
    decodeOption decodeString depth (orNull .string text).node = .ok text := by
  simpa using decode_orNull id (by simp [node]) (decodeString_node depth) text

@[simp]
theorem decode_bools (depth : Nat) (value : Option Bool) :
    decodeOption decodeBool depth (orNull .bool value).node = .ok value := by
  simpa using decode_orNull id (by simp [node]) (decodeBool_node depth) value

theorem ofString?_eq (text : Option String) :
    Json.ofString? text = orNull .string text := by
  cases text <;> rfl

/-! ## Lists and tables -/

theorem whole_map {Item : Type} {write : Item → Json} {items : List Item}
    (each : ∀ item ∈ items, Whole (write item)) :
    Whole (.array (items.map write)) := by
  refine .array fun value here => ?_
  rcases List.mem_map.1 here with ⟨item, member, rfl⟩
  exact each item member

/-- What follows on the right of every pair holds of the whole right list. -/
theorem forall_mem_of_forall₂ {Left Right : Type} {Pair : Left → Right → Prop}
    {Holds : Right → Prop} {lefts : List Left} {rights : List Right}
    (each : List.Forall₂ Pair lefts rights)
    (holds : ∀ left right, Pair left right → Holds right) :
    ∀ right ∈ rights, Holds right := by
  induction each with
  | nil => simp
  | cons first _ induction =>
      exact List.forall_mem_cons.2 ⟨holds _ _ first, induction⟩

section Containers

variable {Value : Type} {decode : Decoder Value} {depth : Nat}

theorem decodeList_node {items : List Json} {values : List Value}
    (each : List.Forall₂ (fun item value => decode depth item.node = .ok value)
      items values) :
    decodeList decode (depth + 1) (Json.array items).node = .ok values := by
  change decodeItems (decode depth) true (nodes items) = .ok values
  induction each with
  | nil => rfl
  | cons first _ induction =>
      rw [nodes, decodeItems, first, induction]
      rfl

/-- An array decodes to what its items were written for. -/
theorem decodeList_map {write : Value → Json} {values : List Value}
    (each : ∀ value ∈ values, decode depth (write value).node = .ok value) :
    decodeList decode (depth + 1) (Json.array (values.map write)).node =
      .ok values := by
  refine decodeList_node ?_
  rw [List.forall₂_map_left_iff, List.forall₂_same]
  exact each

/-- An object with free keys decodes when its entries do; the last entry of a
key counts. -/
theorem decodeTable_node {members : List (String × Json)}
    {entries : List (String × Value)}
    (each : List.Forall₂ (fun member entry =>
      member.1 = entry.1 ∧ decode depth member.2.node = .ok entry.2)
      members entries) :
    decodeTable decode (depth + 1) (Json.object members).node =
      .ok (Table.ofList entries) := by
  have decoded : decodeEntries (decode depth) true (memberNodes members) =
      .ok entries := by
    induction each with
    | nil => rfl
    | @cons member entry _ _ first _ induction =>
        obtain ⟨key, value⟩ := member
        obtain ⟨rfl, reads⟩ := first
        rw [memberNodes, decodeEntries, reads, induction]
        rfl
  change (decodeEntries (decode depth) true (memberNodes members)).map _ = _
  rw [decoded]
  rfl

end Containers

/-! ## Fields -/

namespace Field

variable {Record : Type}

/-- Two fields can be set in either order. -/
def Separate (left right : Field Record) : Prop :=
  ∀ (depth : Nat) (first second : Node) (setFirst setSecond : Record → Record),
    left.decode depth first = .ok setFirst →
    right.decode depth second = .ok setSecond →
    ∀ record, setSecond (setFirst record) = setFirst (setSecond record)

instance : Std.Symm (@Separate Record) where
  symm _ _ separate depth first second setFirst setSecond decodesFirst
      decodesSecond record :=
    (separate depth second first setSecond setFirst decodesSecond
      decodesFirst record).symm

@[simp]
theorem name_of {Value : Type} (name : String) (absence : Absence)
    (decode : Decoder Value) (set : Value → Record → Record) :
    (Field.of name absence decode set).name = name :=
  rfl

@[simp]
theorem absence_of {Value : Type} (name : String) (absence : Absence)
    (decode : Decoder Value) (set : Value → Record → Record) :
    (Field.of name absence decode set).absence = absence :=
  rfl

@[simp]
theorem decode_of {Value : Type} (name : String) (absence : Absence)
    (decode : Decoder Value) (set : Value → Record → Record) (depth : Nat)
    (item : Node) :
    (Field.of name absence decode set).decode depth item =
      (decode depth item).map set :=
  rfl

theorem decode_of_eq_ok_iff {Value : Type} {name : String} {absence : Absence}
    {decode : Decoder Value} {put : Value → Record → Record} {depth : Nat}
    {item : Node} {set : Record → Record} :
    (Field.of name absence decode put).decode depth item = .ok set ↔
      ∃ value, decode depth item = .ok value ∧ set = put value := by
  rw [decode_of]
  cases decode depth item <;> simp [Except.map, eq_comm]

/-- Fields whose setters commute can be set in either order. -/
theorem separate_of {Left Right : Type} {leftName rightName : String}
    {leftAbsence rightAbsence : Absence} {decodeLeft : Decoder Left}
    {decodeRight : Decoder Right} {setLeft : Left → Record → Record}
    {setRight : Right → Record → Record}
    (commute : ∀ left right record,
      setRight right (setLeft left record) =
        setLeft left (setRight right record)) :
    Separate (Field.of leftName leftAbsence decodeLeft setLeft)
      (Field.of rightName rightAbsence decodeRight setRight) := by
  intro depth first second setFirst setSecond decodesFirst decodesSecond record
  rcases decode_of_eq_ok_iff.1 decodesFirst with ⟨left, -, rfl⟩
  rcases decode_of_eq_ok_iff.1 decodesSecond with ⟨right, -, rfl⟩
  exact commute left right record

end Field

/-! ## Records -/

namespace RecordFormat

variable {Record : Type}

/-- What a member does to a record: it sets the field that has its key.  A
member that is no field, or does not decode, does nothing. -/
def apply (format : RecordFormat Record) (depth : Nat) (record : Record)
    (member : String × Json) : Record :=
  match format.fields.find? fun field => field.name = member.1 with
  | some field =>
    match field.decode depth member.2.node with
    | .ok set => set record
    | .error _ => record
  | none => record

/-- A member has the key of a field and decodes as its value, which sets the
field. -/
def Reads (format : RecordFormat Record) (depth : Nat)
    (member : String × Json) (set : Record → Record) : Prop :=
  ∃ field, format.fields.find? (fun field => field.name = member.1) =
      some field ∧
    field.decode depth member.2.node = .ok set

variable {format : RecordFormat Record} {depth : Nat}

theorem Reads.apply {member : String × Json} {set : Record → Record}
    (reads : format.Reads depth member set) (record : Record) :
    format.apply depth record member = set record := by
  rcases reads with ⟨field, found, decodes⟩
  simp only [RecordFormat.apply, found, decodes]

/-- Members with different keys of fields set them in turn. -/
theorem decodeMembers_memberNodes {members : List (String × Json)}
    (reads : ∀ member ∈ members, ∃ set, format.Reads depth member set)
    {seen : List String}
    (distinct : ((members.map Prod.fst).reverse ++ seen).Nodup)
    (record : Record) :
    format.decodeMembers depth true seen record (memberNodes members) =
      .ok ((members.map Prod.fst).reverse ++ seen,
        members.foldl (format.apply depth) record) := by
  induction members generalizing seen record with
  | nil => rfl
  | cons member rest induction =>
      obtain ⟨key, value⟩ := member
      rcases reads (key, value) (List.mem_cons_self ..) with ⟨set, readsKey⟩
      rcases readsKey with ⟨field, found, decodes⟩
      have others : ((rest.map Prod.fst).reverse ++ key :: seen).Nodup := by
        simpa using distinct
      have fresh : key ∉ seen :=
        (List.nodup_cons.1 (List.nodup_append.1 others).2.1).1
      have applied := Reads.apply ⟨field, found, decodes⟩ record
      simp only [memberNodes, decodeMembers, found, decodes, if_neg fresh,
        List.foldl_cons, applied]
      rw [induction (fun other here => reads other (List.mem_cons_of_mem _ here))
        others]
      simp

/-- An object whose members have different keys of fields, and no required
field missing, decodes to the record that they set in turn. -/
theorem decode_node {members : List (String × Json)}
    (reads : ∀ member ∈ members, ∃ set, format.Reads depth member set)
    (distinct : (members.map Prod.fst).Nodup)
    (complete : ∀ field ∈ format.fields, field.absence = .required →
      field.name ∈ members.map Prod.fst) :
    format.decode (depth + 1) (Json.object members).node =
      .ok (members.foldl (format.apply depth) format.initial) := by
  have apart : ((members.map Prod.fst).reverse ++ []).Nodup := by
    rwa [List.append_nil, List.nodup_reverse]
  have decoded := decodeMembers_memberNodes reads apart format.initial
  have met : format.firstMissing (members.map Prod.fst).reverse = none := by
    simpa [firstMissing] using complete
  rw [List.append_nil] at decoded
  simp only [node, decode, decoded, bind, Except.bind, met]

/-! ## The order of members -/

/-- Any two fields can be set in either order. -/
def Independent (format : RecordFormat Record) : Prop :=
  format.fields.Pairwise Field.Separate

theorem Independent.perm (independent : format.Independent)
    {members others : List (String × Json)} (same : members.Perm others)
    (reads : ∀ member ∈ members, ∃ set, format.Reads depth member set)
    (distinct : (members.map Prod.fst).Nodup) (record : Record) :
    members.foldl (format.apply depth) record =
      others.foldl (format.apply depth) record := by
  refine same.foldl_eq' ?_ record
  intro first inFirst second inSecond record
  -- Two members with one key are one member, others belong to two fields.
  by_cases equal : first.1 = second.1
  · rw [List.inj_on_of_nodup_map distinct inFirst inSecond equal]
  · rcases reads first inFirst with ⟨setFirst, readsFirst⟩
    rcases reads second inSecond with ⟨setSecond, readsSecond⟩
    simp only [readsFirst.apply, readsSecond.apply]
    rcases readsFirst with ⟨left, foundLeft, decodesLeft⟩
    rcases readsSecond with ⟨right, foundRight, decodesRight⟩
    have different : left ≠ right := by
      rintro rfl
      have named := List.find?_some foundLeft
      have alsoNamed := List.find?_some foundRight
      simp only [decide_eq_true_eq] at named alsoNamed
      exact equal (named.symm.trans alsoNamed)
    have separate : left.Separate right :=
      independent.forall (List.mem_of_find?_eq_some foundLeft)
        (List.mem_of_find?_eq_some foundRight) different
    exact separate depth _ _ _ _ decodesLeft decodesRight record

/-- An object decodes to the same record whatever the order of its members,
and members that set what is there anyhow may be left out. -/
theorem Independent.decode_of_perm (independent : format.Independent)
    {members skipped full : List (String × Json)}
    (same : (skipped ++ members).Perm full)
    (reads : ∀ member ∈ full, ∃ set, format.Reads depth member set)
    (distinct : (full.map Prod.fst).Nodup)
    (idle : ∀ member ∈ skipped,
      format.apply depth format.initial member = format.initial)
    (complete : ∀ field ∈ format.fields, field.absence = .required →
      field.name ∈ members.map Prod.fst) :
    format.decode (depth + 1) (Json.object members).node =
      .ok (full.foldl (format.apply depth) format.initial) := by
  have readsAll : ∀ member ∈ skipped ++ members,
      ∃ set, format.Reads depth member set :=
    fun member here => reads member (same.mem_iff.1 here)
  have distinctAll : ((skipped ++ members).map Prod.fst).Nodup :=
    (same.map Prod.fst).nodup_iff.2 distinct
  have nothing : skipped.foldl (format.apply depth) format.initial =
      format.initial := by
    clear same readsAll distinctAll
    induction skipped with
    | nil => rfl
    | cons member rest induction =>
        rw [List.foldl_cons, idle member (List.mem_cons_self ..)]
        exact induction fun other here =>
          idle other (List.mem_cons_of_mem _ here)
  rw [decode_node (fun member here => readsAll member (by simp [here]))
    ((List.nodup_append.1 (List.map_append ▸ distinctAll)).2.1) complete,
    ← independent.perm same readsAll distinctAll, List.foldl_append, nothing]

end RecordFormat

end EntityCatalog.Json
