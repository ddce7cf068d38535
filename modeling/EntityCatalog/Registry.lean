import EntityCatalog.Graph.Basic
import EntityCatalog.Resolution

/-!
# The registry

A registry collects schemas by name and resolves them together.  Once that
succeeds it is frozen: it keeps the graph and takes no more schemas.  An
attempt that fails leaves it open and as it was.
-/

namespace EntityCatalog

/-- Why a registry refuses a request. -/
inductive Refusal where
  | duplicate (name : String)
  | frozen
  | invalid (defects : List Defect)
  | unreadable (error : Json.DecodeError)

namespace Refusal

/-- The wording of a refusal; that of an unreadable document is left to the
decoder. -/
def message : Refusal → Option String
  | .duplicate name => some ("entity '" ++ name ++ "' is already registered")
  | .frozen => some "metadata graph is frozen"
  | .invalid defects => some (Defect.report defects)
  | .unreadable error => error.message

/-- The entity a refusal belongs to. -/
def entity? : Refusal → Option String
  | .duplicate name => some name
  | _ => none

end Refusal

/-- Schemas waiting for their resolution, or its result. -/
structure Registry where
  config : Config := {}
  schemas : Table Schema.name := .empty
  /-- The graph, once the registry is frozen. -/
  graph : Option Graph := none

namespace Registry

/-- Whether the registry is frozen. -/
def isFrozen (registry : Registry) : Bool :=
  registry.graph.isSome

/-- Register a schema under a new name. -/
def register (registry : Registry) (schema : Schema) :
    Except Refusal Registry :=
  if registry.isFrozen then .error .frozen
  else if registry.schemas.contains schema.name then
    .error (.duplicate schema.name)
  else .ok { registry with schemas := registry.schemas.insert schema }

/-- Register schemas in turn, up to the first that is refused. -/
def registerAll (registry : Registry) :
    List Schema → Registry × Except Refusal Unit
  | [] => (registry, .ok ())
  | schema :: rest =>
    match registry.register schema with
    | .ok registry => registry.registerAll rest
    | .error refusal => (registry, .error refusal)

/-- Register the schemas of a document. -/
def registerText (registry : Registry) (text : String) :
    Registry × Except Refusal Unit :=
  match Schema.listOfText text with
  | .ok schemas => registry.registerAll schemas
  | .error error => (registry, .error (.unreadable error))

/-- Register the one schema that a text describes. -/
def registerSchemaText (registry : Registry) (text : String) :
    Except Refusal Registry :=
  match Schema.ofText text with
  | .ok schema => registry.register schema
  | .error error => .error (.unreadable error)

/-- Register a schema in place of the one with its name, which is given
back. -/
def replace (registry : Registry) (schema : Schema) :
    Except Refusal (Option Schema × Registry) :=
  if registry.isFrozen then .error .frozen
  else
    .ok (registry.schemas.find? schema.name,
      { registry with schemas := registry.schemas.insert schema })

/-- What an attempt to freeze a registry comes to. -/
structure Attempt where
  outcome : Except Refusal Graph
  registry : Registry
  tally : Tally

/-- Resolve the schemas and freeze the registry.  A frozen registry gives its
graph again and evaluates nothing. -/
def finalize (sources : Sources) (registry : Registry) (tally : Tally) :
    Attempt :=
  match registry.graph with
  | some graph => ⟨.ok graph, registry, tally⟩
  | none =>
    let resolution :=
      Resolution.run registry.config sources registry.schemas tally
    match resolution.outcome with
    | .ok entities =>
      ⟨.ok ⟨entities⟩, { registry with graph := some ⟨entities⟩ },
        resolution.tally⟩
    | .error defects =>
      ⟨.error (.invalid defects), registry, resolution.tally⟩

end Registry

end EntityCatalog
