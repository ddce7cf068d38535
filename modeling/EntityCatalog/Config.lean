import EntityCatalog.Json.Decode
import EntityCatalog.Text.LowerCase

/-!
# Configuration of the resolution

Which entities need a primary key, whether an unanswered many-to-many relation
gets an inverse, how that inverse is called, and how many deferred references
are followed for one target.
-/

namespace EntityCatalog

/-- How the inverse of a many-to-many relation is named. -/
inductive InverseNaming where
  /-- The entity's name, starting in lower case, and the property's name. -/
  | entityAndProperty
  | suffix (text : String)
  deriving DecidableEq, Repr, Inhabited

namespace InverseNaming

/-- The name of the inverse of a property of an entity. -/
def inverseName (naming : InverseNaming) (entity property : String) : String :=
  match naming with
  | .entityAndProperty => Text.lowerFirst entity ++ "_" ++ property
  | .suffix text => property ++ text

/-- A naming of a document. -/
def decode : Json.Decoder InverseNaming :=
  Json.decodeVariant fun
    | "entity_and_property" => some (.unit .entityAndProperty)
    | "suffix" => some (.carrying fun depth node =>
        (Json.decodeString depth node).map .suffix)
    | _ => none

end InverseNaming

/-- What the resolution demands and supplies. -/
structure Config where
  requirePrimaryKey : Bool := true
  synthesizeInverse : Bool := true
  inverseNaming : InverseNaming := .entityAndProperty
  /-- How many deferred references in a row are followed for one target. -/
  maxDeferredDepth : Nat := 32
  deriving DecidableEq, Repr, Inhabited

namespace Config

/-- Like the default configuration, but primary keys are not demanded. -/
def lenient : Config := { requirePrimaryKey := false }

/-- Set how many deferred references are followed, at least one. -/
def withMaxDeferredDepth (config : Config) (depth : Nat) : Config :=
  { config with maxDeferredDepth := max depth 1 }

/-- The form of a configuration in documents. -/
def format : Json.RecordFormat Config where
  initial := {}
  strict := false
  fields := [
    .of "require_primary_key" .defaulted Json.decodeBool
      fun value config => { config with requirePrimaryKey := value },
    .of "synthesize_many_to_many_inverse" .defaulted Json.decodeBool
      fun value config => { config with synthesizeInverse := value },
    .of "inverse_naming" .defaulted InverseNaming.decode
      fun value config => { config with inverseNaming := value },
    .of "max_thunk_depth" .defaulted Json.decodeNatural
      fun value config => { config with maxDeferredDepth := value }]

/-- The configuration that a text describes. -/
def ofText (text : String) : Except Json.DecodeError Config :=
  Json.decodeText format.decode text

end Config

end EntityCatalog
