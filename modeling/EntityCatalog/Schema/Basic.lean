import EntityCatalog.Schema.Options

/-!
# Declarations of entities

A schema declares one entity: its name, the entity it extends, three marks and
the options of its properties.  Properties can be declared one by one or by
spreading a group, an ordered set of properties that several schemas may use.
A property declared again keeps its place and takes the new options.
-/

namespace EntityCatalog

/-- Options by property name, in declaration order. -/
abbrev Group := Table (Prod.fst : String × Options → String)

/-- The declaration of one entity. -/
structure Schema where
  name : String
  base : Option EntityRef := none
  isAbstract : Bool := false
  embeddable : Bool := false
  keyless : Bool := false
  properties : Group := .empty

instance : Inhabited Schema := ⟨{ name := "" }⟩

namespace Schema

/-- Declare a property. -/
def withProperty (schema : Schema) (name : String) (options : Options) :
    Schema :=
  { schema with properties := schema.properties.insert (name, options) }

/-- Declare the properties of a group. -/
def withGroup (schema : Schema) (group : Group) : Schema :=
  { schema with properties := schema.properties.merge group }

/-- The form of a schema in documents. -/
def format : Json.RecordFormat Schema where
  initial := { name := "" }
  strict := true
  fields := [
    .of "name" .required Json.decodeString
      fun value schema => { schema with name := value },
    .of "extends" .defaulted (Json.decodeOption EntityRef.decode)
      fun value schema => { schema with base := value },
    .of "abstract" .defaulted Json.decodeBool
      fun value schema => { schema with isAbstract := value },
    .of "embeddable" .defaulted Json.decodeBool
      fun value schema => { schema with embeddable := value },
    .of "keyless" .defaulted Json.decodeBool
      fun value schema => { schema with keyless := value },
    .of "properties" .defaulted (Json.decodeTable Options.format.decode)
      fun value schema => { schema with properties := value }]

/-- The schema that a text describes. -/
def ofText (text : String) : Except Json.DecodeError Schema :=
  Json.decodeText format.decode text

/-- The form of a document that declares several entities. -/
def documentFormat : Json.RecordFormat (List Schema) where
  initial := []
  strict := true
  fields := [
    .of "entities" .required (Json.decodeList format.decode)
      fun value _ => value]

/-- The schemas of a document, in registration order. -/
def listOfText (text : String) : Except Json.DecodeError (List Schema) :=
  Json.decodeText documentFormat.decode text

end Schema

end EntityCatalog
