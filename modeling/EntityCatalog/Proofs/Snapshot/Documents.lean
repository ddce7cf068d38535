import EntityCatalog.Proofs.Json.Records
import EntityCatalog.Snapshot.Format

/-!
# Snapshots and their documents

No snapshot is changed by being written as a document and read again, whatever
the spacing (`Snapshot.ofText_write`, `Snapshot.ofText_toText`).  The reading is
that of `RecordFormat`, so each record is met by the members it was written
with: every field has one, and its value decodes to what was written.
-/

namespace EntityCatalog

open Json

/-! ## Parts of records -/

theorem decode_ofStrings (depth : Nat) (texts : List String) :
    decodeList decodeString (depth + 1) (Json.ofStrings texts).node =
      .ok texts :=
  decodeList_map fun _ _ => rfl

theorem whole_ofStrings (texts : List String) : Whole (.ofStrings texts) :=
  whole_map fun text _ => .string text

/-! ## Records -/

namespace PropertySnapshot

theorem whole_toJson (property : PropertySnapshot) : Whole property.toJson := by
  refine .object ?_
  simp [ofString?_eq, whole_orNull, whole_ofStrings, Whole.string, Whole.bool]

theorem decode_toJson (depth : Nat) (property : PropertySnapshot) :
    format.decode (depth + 2) property.toJson.node = .ok property := by
  have items := decode_ofStrings depth property.items
  rw [toJson, RecordFormat.decode_node]
  case reads =>
      simp [RecordFormat.Reads, format, text, text?, mark, ofString?_eq,
        items, Except.map]
  case distinct => simp
  case complete => simp [format, text, text?, mark]
  simp [RecordFormat.apply, format, text, text?, mark, ofString?_eq, items,
    Except.map]

end PropertySnapshot

namespace EntitySnapshot

theorem whole_toJson (entity : EntitySnapshot) : Whole entity.toJson := by
  have properties :
      Whole (.array (entity.properties.map PropertySnapshot.toJson)) :=
    whole_map fun property _ => property.whole_toJson
  refine .object ?_
  simp [ofString?_eq, whole_orNull, whole_ofStrings, properties, Whole.string, Whole.bool]

theorem decode_toJson (depth : Nat) (entity : EntitySnapshot) :
    format.decode (depth + 4) entity.toJson.node = .ok entity := by
  have keys := decode_ofStrings (depth + 2) entity.primaryKeys
  have properties : decodeList PropertySnapshot.format.decode (depth + 3)
      (Json.array (entity.properties.map PropertySnapshot.toJson)).node =
        .ok entity.properties :=
    decodeList_map fun property _ => property.decode_toJson depth
  rw [toJson, RecordFormat.decode_node]
  case reads =>
      simp [RecordFormat.Reads, format, ofString?_eq, keys, properties,
        Except.map]
  case distinct => simp
  case complete => simp [format]
  simp [RecordFormat.apply, format, ofString?_eq, keys, properties,
    Except.map]

end EntitySnapshot

namespace Snapshot

theorem whole_toJson (snapshot : Snapshot) : Whole snapshot.toJson := by
  have entities :
      Whole (.array (snapshot.entities.map EntitySnapshot.toJson)) :=
    whole_map fun entity _ => entity.whole_toJson
  refine .object ?_
  simpa using entities

theorem decode_toJson (depth : Nat) (snapshot : Snapshot) :
    format.decode (depth + 6) snapshot.toJson.node = .ok snapshot := by
  have entities : decodeList EntitySnapshot.format.decode (depth + 5)
      (Json.array (snapshot.entities.map EntitySnapshot.toJson)).node =
        .ok snapshot.entities :=
    decodeList_map fun entity _ => entity.decode_toJson depth
  rw [toJson, RecordFormat.decode_node]
  case reads => simp [RecordFormat.Reads, format, entities, Except.map]
  case distinct => simp
  case complete => simp [format]
  simp [RecordFormat.apply, format, entities, Except.map]

/-- A snapshot is read from its document, whatever the spacing. -/
theorem ofText_write (snapshot : Snapshot) (spacing : Spacing) :
    ofText (String.ofList (snapshot.toJson.write spacing)) = .ok snapshot := by
  have spells := spells_write snapshot.whole_toJson spacing
  have here : (String.ofList (snapshot.toJson.write spacing)).toList =
      [] ++ (snapshot.toJson.write spacing ++ []) := by
    simp
  rw [ofText, decodeText_of_spells here blank_nil spells blank_nil]
  exact snapshot.decode_toJson 121

/-- Writing a snapshot as a document and reading it again gives the same
snapshot. -/
theorem ofText_toText (snapshot : Snapshot) :
    ofText snapshot.toText = .ok snapshot :=
  snapshot.ofText_write (some 0)

end Snapshot

end EntityCatalog
