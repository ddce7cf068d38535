import EntityCatalog.Proofs.Graph.Plain
import EntityCatalog.Proofs.Snapshot.Codec
import EntityCatalog.Proofs.Snapshot.Documents

/-!
# What fingerprints tell apart

The graphs of two registries have equal snapshots exactly if they agree up to
what is shown alike, and if nothing in them can be read in two ways, exactly if
they agree.  With a faithful codec whose digest does not collide on the two, the
same holds of their fingerprints (`Registry.snapshot_eq_iff_agree`).  The types
of a graph are no obstacle, nor is anything that a document declares by literals
(`Registry.snapshot_eq_iff_of_portable`).
-/

namespace EntityCatalog

/-! ## Graphs of registries -/

namespace Registry

/-- The graphs of two registries have equal snapshots exactly if they agree up to
what is shown alike, and if they are plain, exactly if they agree.  The
fingerprint of the one is that of the other exactly if their snapshots are
equal, whatever codec is used, as long as it is faithful and its digest does not
collide on the two. -/
theorem snapshot_eq_iff_agree {sources others : Sources}
    {first second : Registry} (reachable : Reachable sources first)
    (alsoReachable : Reachable others second) {tally other : Tally}
    {left right : Graph}
    (frozen : (first.finalize sources tally).outcome = .ok left)
    (alsoFrozen : (second.finalize others other).outcome = .ok right) :
    (left.snapshot = right.snapshot ↔ Graph.Agree .shown left right) ∧
      (left.Plain → right.Plain →
        (left.snapshot = right.snapshot ↔ Graph.Agree .exact left right)) ∧
      ∀ codec : Snapshot.Codec, codec.Faithful →
        ¬codec.Collides left.snapshot right.snapshot →
        ∀ text, left.fingerprint codec = .ok text →
          (right.fingerprint codec = .ok text ↔
            left.snapshot = right.snapshot) := by
  have typed := reachable.typed frozen
  have alsoTyped := alsoReachable.typed alsoFrozen
  refine ⟨Graph.snapshot_eq_iff typed alsoTyped,
    Graph.snapshot_eq_iff_of_plain typed alsoTyped, ?_⟩
  intro codec faithful apart text given
  exact (Snapshot.fingerprint_eq_ok_iff faithful given).trans
    (or_iff_left apart)

/-- The graphs of registries that documents can declare have equal snapshots
exactly if they agree. -/
theorem snapshot_eq_iff_of_portable {sources others : Sources}
    {first second : Registry} (reachable : Reachable sources first)
    (alsoReachable : Reachable others second)
    (portable : ∀ schema ∈ first.schemas.items,
      ∃ declaration : PortableSchema, schema = declaration.schema)
    (alsoPortable : ∀ schema ∈ second.schemas.items,
      ∃ declaration : PortableSchema, schema = declaration.schema)
    {tally other : Tally} {left right : Graph}
    (frozen : (first.finalize sources tally).outcome = .ok left)
    (alsoFrozen : (second.finalize others other).outcome = .ok right) :
    left.snapshot = right.snapshot ↔ Graph.Agree .exact left right :=
  Graph.snapshot_eq_iff_of_plain (reachable.typed frozen)
    (alsoReachable.typed alsoFrozen)
    (reachable.plain_of_portable frozen portable)
    (alsoReachable.plain_of_portable alsoFrozen alsoPortable)

end Registry

/-! ## Documents as bytes -/

/-- The digits of a byte. -/
def byteDigits (byte : UInt8) : List Char :=
  [Nat.digitChar (byte.toNat / 16), Nat.digitChar (byte.toNat % 16)]

/-- The digits of some bytes. -/
def hexadecimal (bytes : ByteArray) : String :=
  .ofList (bytes.data.toList.flatMap byteDigits)

/-- The low thirty-two bytes of the number that has the bytes as its digits. -/
def checksum (bytes : List UInt8) : ByteArray :=
  let sum := bytes.foldl (fun sum byte => 257 * sum + byte.toNat + 1) 0
  ((List.range 32).map fun place => UInt8.ofNat (sum >>> (8 * place))).toByteArray

/-- The codec that stores documents without blanks. -/
def documentCodec : Snapshot.Codec where
  encode snapshot := .ok snapshot.toJson.compact.toUTF8
  decode bytes :=
    match String.fromUTF8? bytes with
    | none => .error "no text"
    | some text =>
      match Snapshot.ofText text with
      | .ok snapshot => .ok snapshot
      | .error _ => .error "no snapshot"
  digest bytes := checksum bytes.data.toList
  hexadecimal := hexadecimal

theorem byteDigits_injective : Function.Injective byteDigits := by
  have digit : ∀ left < 16, ∀ right < 16,
      Nat.digitChar left = Nat.digitChar right → left = right := by
    decide
  intro left right same
  have low := left.toNat_lt
  have alsoLow := right.toNat_lt
  injection same with high rest
  injection rest with little
  have quotient := digit _ (by omega) _ (by omega) high
  have remainder := digit _ (by omega) _ (by omega) little
  exact UInt8.toNat_inj.mp (by omega)

theorem hexadecimal_injective : Function.Injective hexadecimal := by
  have digits : ∀ left right : List UInt8,
      left.flatMap byteDigits = right.flatMap byteDigits → left = right := by
    intro left
    induction left with
    | nil => rintro (_ | ⟨byte, rest⟩) same <;> first | rfl | cases same
    | cons byte rest ih =>
        rintro (_ | ⟨other, others⟩) same
        · cases same
        · have parts := List.append_inj same rfl
          rw [byteDigits_injective parts.1, ih others parts.2]
  intro left right same
  exact ByteArray.ext (Array.toList_inj.mp (digits _ _ (String.ofList_injective same)))

theorem fromUTF8?_toUTF8 (text : String) :
    String.fromUTF8? text.toUTF8 = some text := by
  rw [String.fromUTF8?, String.toUTF8_eq_toByteArray,
    dif_pos text.isValidUTF8]
  rfl

theorem faithful_documentCodec : documentCodec.Faithful where
  decodes {snapshot bytes} encoded := by
    have read : Snapshot.ofText snapshot.toJson.compact = .ok snapshot :=
      snapshot.ofText_write none
    obtain rfl : snapshot.toJson.compact.toUTF8 = bytes :=
      Except.ok.inj encoded
    simp only [documentCodec, fromUTF8?_toUTF8, read]
  spells := hexadecimal_injective

/-- Two snapshots collide only if the checksums of their documents are equal. -/
theorem Snapshot.checksum_eq_of_collides {left right : Snapshot}
    (collides : documentCodec.Collides left right) :
    checksum ((left.toJson.write none).flatMap String.utf8EncodeChar) =
      checksum ((right.toJson.write none).flatMap String.utf8EncodeChar) := by
  have bytes (snapshot : Snapshot) : snapshot.toJson.compact.toUTF8.data.toList =
      (snapshot.toJson.write none).flatMap String.utf8EncodeChar := by
    rw [String.toUTF8_eq_toByteArray, Json.compact, String.toByteArray_ofList,
      List.utf8Encode, List.toList_data_toByteArray]
  obtain ⟨first, second, encoded, alsoEncoded, -, same⟩ := collides
  cases encoded
  cases alsoEncoded
  rw [← bytes, ← bytes]
  exact same

/-! ## Parcels -/

/-- Parcels, whose weight is a double with the given default. -/
def parcels (value : Value) : Registry :=
  (Registry.registerAll {} [
    { name := "Parcel"
      properties := .ofList [
        ("id", { Options.typed "integer" with primary := true }),
        ("weight", { Options.typed "double" with default := some value })] }]).1

/-- The key of parcels. -/
def parcelKey : Property where
  name := "id"
  nature := .scalar .integer
  primary := true
  declaredBy := "Parcel"

/-- The weight of parcels. -/
def parcelWeight (value : Value) : Property where
  name := "weight"
  nature := .scalar .double
  default := some value
  declaredBy := "Parcel"

/-- What parcels are resolved to. -/
def parcelsGraph (value : Value) : Graph :=
  ⟨.ofList [
    { name := "Parcel"
      primaryKeys := ["id"]
      properties := .ofList [parcelKey, parcelWeight value] }]⟩

/-- A deferred reference that answers with itself. -/
def parcelSources : Sources where
  reference source _ := .deferred source
  mapping _ _ := []
  hook _ _ := .null

theorem finalize_parcels :
    ∀ value ∈ [Value.integer 1, .float 1.0, .integer 2],
      ((parcels value).finalize parcelSources .empty).outcome =
        .ok (parcelsGraph value) := by
  rw [List.forall_mem_cons, List.forall_mem_cons, List.forall_mem_singleton]
  exact ⟨rfl, rfl, rfl⟩

theorem portable_parcels (whole : Int64) :
    ∀ schema ∈ (parcels (.integer whole)).schemas.items,
      ∃ declaration : PortableSchema, schema = declaration.schema := by
  refine List.forall_mem_singleton.mpr ⟨{
    name := "Parcel"
    properties := [
      ("id", { typeName := some "integer", primary := true }),
      ("weight",
        { typeName := some "double", default := some (.integer whole) })] }, ?_⟩
  rfl

theorem agree_parcelsGraph_iff {likeness : Likeness} {value other : Value} :
    Graph.Agree likeness (parcelsGraph value) (parcelsGraph other) ↔
      likeness.value value other := by
  constructor
  · intro agree
    cases agree with
    | cons entity _ =>
        cases entity.properties with
        | cons _ rest =>
            cases rest with
            | cons weight _ =>
                cases weight.default
                assumption
  · intro alike
    have key : Property.Agree likeness parcelKey parcelKey := by
      constructor
      case default | deleteRule | updateRule => exact .none
      case items => exact .nil
      all_goals rfl
    have weight :
        Property.Agree likeness (parcelWeight value) (parcelWeight other) := by
      constructor
      case default => exact .some alike
      case deleteRule | updateRule => exact .none
      case items => exact .nil
      all_goals rfl
    have properties := List.Forall₂.cons key (.cons weight .nil)
    exact .cons ⟨rfl, rfl, rfl, rfl, rfl, rfl, properties⟩ .nil

theorem shows_one : FloatLayout.Shows 1.0 1 :=
  ⟨false, 2 ^ 52, -52, rfl, by decide, by decide +kernel⟩

theorem not_collides_parcels :
    ¬documentCodec.Collides (parcelsGraph (.integer 1)).snapshot
      (parcelsGraph (.integer 2)).snapshot := by
  intro collides
  have same := congrArg ByteArray.data (Snapshot.checksum_eq_of_collides collides)
  revert same
  decide +kernel

/-- A default of one and one of the double one have the same fingerprint, while a
default of two has another snapshot and another fingerprint. -/
theorem snapshot_eq_iff_agree_parcels :
    (parcelsGraph (.integer 1)).snapshot =
        (parcelsGraph (.float 1.0)).snapshot ∧
      (parcelsGraph (.integer 1)).fingerprint documentCodec =
        (parcelsGraph (.float 1.0)).fingerprint documentCodec ∧
      ¬Graph.Agree .exact (parcelsGraph (.integer 1))
        (parcelsGraph (.float 1.0)) ∧
      (parcelsGraph (.integer 1)).snapshot ≠
        (parcelsGraph (.integer 2)).snapshot ∧
      (parcelsGraph (.integer 1)).fingerprint documentCodec ≠
        (parcelsGraph (.integer 2)).fingerprint documentCodec := by
  have reachable (value : Value) :
      Registry.Reachable parcelSources (parcels value) :=
    (Registry.Reachable.new {}).registerAll _
  have one := finalize_parcels (.integer 1) (by simp)
  have double := finalize_parcels (.float 1.0) (by simp)
  have two := finalize_parcels (.integer 2) (by simp)
  have confused := Registry.snapshot_eq_iff_agree (reachable (.integer 1))
    (reachable (.float 1.0)) one double
  have distinct := Registry.snapshot_eq_iff_agree (reachable (.integer 1))
    (reachable (.integer 2)) one two
  have same : (parcelsGraph (.integer 1)).snapshot =
      (parcelsGraph (.float 1.0)).snapshot :=
    confused.1.mpr (agree_parcelsGraph_iff.mpr (.whole shows_one))
  have differ : (parcelsGraph (.integer 1)).snapshot ≠
      (parcelsGraph (.integer 2)).snapshot := by
    intro equal
    have agree := (distinct.2.1
      ((reachable _).plain_of_portable one (portable_parcels 1))
      ((reachable _).plain_of_portable two (portable_parcels 2))).mp equal
    cases agree_parcelsGraph_iff.mp agree
  have apart : ¬documentCodec.Collides (parcelsGraph (.integer 1)).snapshot
      (parcelsGraph (.float 1.0)).snapshot := by
    rw [← same]
    exact Snapshot.Codec.not_collides_self _
  refine ⟨same, ?_, ?_, differ, fun equal => ?_⟩
  · exact ((confused.2.2 documentCodec faithful_documentCodec apart _ rfl).mpr
      same).symm
  · intro agree
    cases agree_parcelsGraph_iff.mp agree
  · exact differ ((distinct.2.2 documentCodec faithful_documentCodec
      not_collides_parcels _ rfl).mp equal.symm)

end EntityCatalog
