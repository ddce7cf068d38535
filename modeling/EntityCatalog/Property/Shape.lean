import EntityCatalog.Property.Kind
import EntityCatalog.Property.ScalarType

/-!
# Shapes of property values

The shape of a property tells a caller what its values look like.  A base
shape is wrapped in a fixed order: array, reference, optional, nullable.  A
reference is never put around a collection.
-/

namespace EntityCatalog

/-- The shape of a property's values. -/
inductive Shape where
  | scalar (type : ScalarType)
  | enumeration
  | entity
  | collection
  | array (inner : Shape)
  /-- A handle that loads a value of the inner shape when asked. -/
  | reference (inner : Shape)
  /-- May be left out on input, since it is then filled in. -/
  | optional (inner : Shape)
  | nullable (inner : Shape)
  deriving DecidableEq, Repr, Inhabited

/-- The marks of a property that decide how its base shape is wrapped. -/
structure ShapeMarks where
  array : Bool
  reference : Bool
  optional : Bool
  nullable : Bool
  deriving DecidableEq, Repr, Inhabited

namespace Shape

/-- The base shape of a kind; a scalar without type is of the unknown type. -/
def base (kind : PropertyKind) (type : Option ScalarType) : Shape :=
  match kind with
  | .scalar => .scalar (type.getD .unknown)
  | .enumeration => .enumeration
  | .relation kind => if kind.isCollection then .collection else .entity
  | .embedded => .entity

/-- Put a wrapper around a shape if a mark asks for it. -/
def wrapIf (mark : Bool) (wrapper : Shape → Shape) (shape : Shape) : Shape :=
  if mark then wrapper shape else shape

/-- Wrap a shape as the marks of a property of the given kind say. -/
def wrap (shape : Shape) (kind : PropertyKind) (marks : ShapeMarks) : Shape :=
  let arrayed := wrapIf marks.array .array shape
  let referenced :=
    wrapIf (marks.reference && !kind.isCollection) .reference arrayed
  let filled := wrapIf marks.optional .optional referenced
  wrapIf marks.nullable .nullable filled

/-- Whether the outermost wrapper admits null. -/
def isNullable : Shape → Bool
  | .nullable _ => true
  | _ => false

/-- Whether the value may be left out on input. -/
def isOptional : Shape → Bool
  | .optional _ => true
  | .nullable inner => inner.isOptional
  | _ => false

/-- Whether a handle stands somewhere in the shape. -/
def isReference : Shape → Bool
  | .reference _ => true
  | .array inner | .optional inner | .nullable inner => inner.isReference
  | _ => false

/-- The shape as text, with the name of the entity where it is known. -/
def render (target : Option String) : Shape → String
  | .scalar type => type.name
  | .enumeration => "enum"
  | .entity => target.getD "entity"
  | .collection => "Collection<" ++ target.getD "entity" ++ ">"
  | .array inner => inner.render target ++ "[]"
  | .reference inner => "Ref<" ++ inner.render target ++ ">"
  | .optional inner => "Opt<" ++ inner.render target ++ ">"
  | .nullable inner => inner.render target ++ " | null"

end Shape

end EntityCatalog
