import EntityCatalog.Json.Decode

/-!
# Kinds of properties

A property is a plain or enumerated column, an embedded entity, or a relation,
of which there are four kinds.  The two sides of a relation have reciprocal
kinds.
-/

namespace EntityCatalog

/-- The kind of a relation, seen from one of its sides. -/
inductive RelationKind where
  /-- Many to one: this side holds the foreign key. -/
  | manyToOne
  | oneToOne
  /-- One to many: the collection behind a many to one. -/
  | oneToMany
  | manyToMany
  deriving DecidableEq, Repr, Inhabited

namespace RelationKind

/-- The kind of the other side. -/
def reciprocal : RelationKind → RelationKind
  | .manyToOne => .oneToMany
  | .oneToMany => .manyToOne
  | .oneToOne => .oneToOne
  | .manyToMany => .manyToMany

/-- The other side of the other side is this side. -/
@[simp]
theorem reciprocal_reciprocal (kind : RelationKind) :
    kind.reciprocal.reciprocal = kind := by
  cases kind <;> rfl

/-- Whether a property of the kind holds many entities. -/
def isCollection : RelationKind → Bool
  | .oneToMany | .manyToMany => true
  | .manyToOne | .oneToOne => false

end RelationKind

/-- The kind of a property. -/
inductive PropertyKind where
  | scalar
  | enumeration
  | embedded
  | relation (kind : RelationKind)
  deriving DecidableEq, Repr, Inhabited

namespace PropertyKind

/-- Whether the kind is one of the four relations. -/
def isRelation : PropertyKind → Bool
  | .relation _ => true
  | _ => false

/-- Whether a property of the kind holds many entities. -/
def isCollection : PropertyKind → Bool
  | .relation kind => kind.isCollection
  | _ => false

/-- Whether a property of the kind points at an entity. -/
def hasTarget : PropertyKind → Bool
  | .embedded | .relation _ => true
  | _ => false

/-- The kind of the other side of a relation. -/
def reciprocal? : PropertyKind → Option PropertyKind
  | .relation kind => some (.relation kind.reciprocal)
  | _ => none

/-- The tag of a kind in declarations. -/
def tag : PropertyKind → String
  | .scalar => "scalar"
  | .enumeration => "enum"
  | .embedded => "embedded"
  | .relation .manyToOne => "m:1"
  | .relation .oneToOne => "1:1"
  | .relation .oneToMany => "1:m"
  | .relation .manyToMany => "m:n"

/-- The kind with a given tag. -/
def ofTag? : String → Option PropertyKind
  | "scalar" => some .scalar
  | "enum" => some .enumeration
  | "embedded" => some .embedded
  | "m:1" => some (.relation .manyToOne)
  | "1:1" => some (.relation .oneToOne)
  | "1:m" => some (.relation .oneToMany)
  | "m:n" => some (.relation .manyToMany)
  | _ => none

@[simp]
theorem ofTag?_tag (kind : PropertyKind) : ofTag? kind.tag = some kind := by
  rcases kind with _ | _ | _ | (_ | _ | _ | _) <;> rfl

/-- A kind of a document. -/
def decode : Json.Decoder PropertyKind :=
  Json.decodeVariant fun tag => (ofTag? tag).map .unit

end PropertyKind

end EntityCatalog
