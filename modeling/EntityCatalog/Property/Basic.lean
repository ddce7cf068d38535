import EntityCatalog.Defect
import EntityCatalog.Property.Constraint
import EntityCatalog.Property.Shape
import EntityCatalog.Reference.Basic

/-!
# Properties

A property in canonical form.  Its nature says what it is and carries what only
this nature has: a scalar its type, an enum its items, an embedded property and
a relation their target.  A relation also has two sides; `Sides` says whether
this one owns it and how the other one is called.

`Table.map` and its kin change properties inside an entity, so operations here
come with the fact that the name stays.
-/

namespace EntityCatalog

/-- One value of an enum, with its key where the enum is a mapping. -/
structure EnumItem where
  key : Option String
  value : Value
  deriving Inhabited

/-- The items of an enum, as declared and as evaluated. -/
structure Enumeration where
  declared : EnumItems
  /-- The items, once they are known. -/
  items : Option (List EnumItem)
  deriving Inhabited

/-- Whether a value is one of some items. -/
def EnumItem.holds (items : List EnumItem) (value : Value) : Bool :=
  items.any fun item => item.value.same value

/-- The entity a property points at, as declared and as found. -/
structure Target where
  declared : EntityRef
  /-- The entity's name, once it is known. -/
  entity : Option String
  deriving DecidableEq, Repr, Inhabited

/-- The part of a property that embeds an entity. -/
structure Embedding where
  target : Target
  columnPrefix : Option String
  deriving DecidableEq, Repr, Inhabited

/-- Which side of a relation a property is. -/
structure Sides where
  /-- Whether this side holds the foreign key or the join table. -/
  owner : Bool
  mappedBy : Option String
  inversedBy : Option String
  deriving DecidableEq, Repr, Inhabited

namespace Sides

/-- Whether neither name is set. -/
def isUnhinted (sides : Sides) : Bool :=
  sides.mappedBy.isNone && sides.inversedBy.isNone

/-- The property on the other side. -/
def reciprocalName? (sides : Sides) : Option String :=
  sides.mappedBy <|> sides.inversedBy

end Sides

/-- The part of a property that relates it to another entity. -/
structure Relation where
  /-- The kind of the relation, seen from here. -/
  kind : RelationKind
  target : Target
  sides : Sides
  ownerHint : Option Bool := none
  deleteRule : Option ReferentialAction := none
  updateRule : Option ReferentialAction := none
  checkTime : Option CheckTime := none
  fixedOrder : Bool := false
  deriving DecidableEq, Repr, Inhabited

/-- What a property is. -/
inductive Nature where
  | scalar (type : ScalarType)
  | enumeration (part : Enumeration)
  | embedded (part : Embedding)
  | relation (part : Relation)
  deriving Inhabited

/-- The kind that a nature has. -/
def Nature.kind : Nature → PropertyKind
  | .scalar _ => .scalar
  | .enumeration _ => .enumeration
  | .embedded _ => .embedded
  | .relation part => .relation part.kind

/-- One property of an entity. -/
structure Property where
  name : String
  nature : Nature
  nullable : Bool := false
  array : Bool := false
  reference : Bool := false
  primary : Bool := false
  mapToKey : Bool := false
  default : Option Value := none
  onCreate : Option Hook := none
  onUpdate : Option Hook := none
  declaredBy : String
  synthesized : Bool := false
  deriving Inhabited

namespace Property

/-- The kind of a property. -/
def kind (property : Property) : PropertyKind :=
  property.nature.kind

/-- The type of a scalar. -/
def scalarType? (property : Property) : Option ScalarType :=
  match property.nature with
  | .scalar type => some type
  | _ => none

/-- The enum part of an enum. -/
def enumeration? (property : Property) : Option Enumeration :=
  match property.nature with
  | .enumeration part => some part
  | _ => none

/-- The embedding of an embedded property. -/
def embedding? (property : Property) : Option Embedding :=
  match property.nature with
  | .embedded part => some part
  | _ => none

/-- The relation of a relation. -/
def relation? (property : Property) : Option Relation :=
  match property.nature with
  | .relation part => some part
  | _ => none

/-- The target of an embedded property or a relation. -/
def target? (property : Property) : Option Target :=
  match property.nature with
  | .embedded part => some part.target
  | .relation part => some part.target
  | _ => none

/-- The name of the entity a property points at, once it is known. -/
def targetName? (property : Property) : Option String :=
  property.target?.bind (·.entity)

/-- Whether the property is a relation. -/
def isRelation (property : Property) : Bool :=
  property.kind.isRelation

/-- Whether the property holds many entities. -/
def isCollection (property : Property) : Bool :=
  property.kind.isCollection

/-- Whether the property embeds an entity. -/
def isEmbedded (property : Property) : Bool :=
  property.kind = .embedded

/-- Whether this side owns the relation; what is no relation never owns. -/
def owner (property : Property) : Bool :=
  property.relation?.any (·.sides.owner)

/-- The owning property on the target. -/
def mappedBy? (property : Property) : Option String :=
  property.relation?.bind (·.sides.mappedBy)

/-- The inverse property on the target. -/
def inversedBy? (property : Property) : Option String :=
  property.relation?.bind (·.sides.inversedBy)

/-- The property on the other side. -/
def reciprocalName? (property : Property) : Option String :=
  property.relation?.bind (·.sides.reciprocalName?)

/-- Whether a default or a hook fills in a value on create. -/
def isGenerated (property : Property) : Bool :=
  property.default.isSome || property.onCreate.isSome

/-- Whether the database numbers the property: an integer in the primary key. -/
def isAutoIncrement (property : Property) : Bool :=
  property.primary && property.scalarType?.any ScalarType.isInteger

/-- Whether a caller may leave the property out when creating an entity. -/
def isOptionalOnInput (property : Property) : Bool :=
  property.isGenerated || property.nullable || property.synthesized ||
    property.isCollection || property.isAutoIncrement ||
    (property.kind = .relation .oneToOne && property.mappedBy?.isSome)

/-- Whether reading the property may give nothing. -/
def isNullableOnRead (property : Property) : Bool :=
  property.nullable

/-- Whether a caller may assign the property. -/
def isWritable (property : Property) : Bool :=
  !property.isCollection && !property.synthesized

/-- Whether the property has a column on its own entity. -/
def hasColumn (property : Property) : Bool :=
  match property.kind with
  | .embedded => false
  | .relation .oneToOne => property.owner
  | .relation kind => !kind.isCollection
  | _ => true

/-- The shape of the property's values. -/
def shape (property : Property) : Shape :=
  (Shape.base property.kind property.scalarType?).wrap property.kind
    ⟨property.array, property.reference, property.isGenerated,
      property.nullable⟩

/-- Where the declaration of the property stands. -/
def origin (property : Property) : Place :=
  ⟨property.declaredBy, property.name⟩

/-- Change the sides of a relation. -/
def withSides (property : Property) (sides : Sides) : Property :=
  match property.nature with
  | .relation part =>
    { property with nature := .relation { part with sides := sides } }
  | _ => property

@[simp]
theorem name_withSides (property : Property) (sides : Sides) :
    (property.withSides sides).name = property.name := by
  unfold withSides
  split <;> rfl

/-- Fill in the target of a property that points at an entity. -/
def withTarget (property : Property) (entity : Option String) : Property :=
  match property.nature with
  | .embedded part =>
    { property with
      nature := .embedded
        { part with target := { part.target with entity := entity } } }
  | .relation part =>
    { property with
      nature := .relation
        { part with target := { part.target with entity := entity } } }
  | _ => property

@[simp]
theorem name_withTarget (property : Property) (entity : Option String) :
    (property.withTarget entity).name = property.name := by
  unfold withTarget
  split <;> rfl

/-- Fill in the items of an enum. -/
def withItems (property : Property) (items : Option (List EnumItem)) :
    Property :=
  match property.nature with
  | .enumeration part =>
    { property with nature := .enumeration { part with items := items } }
  | _ => property

@[simp]
theorem name_withItems (property : Property) (items : Option (List EnumItem)) :
    (property.withItems items).name = property.name := by
  unfold withItems
  split <;> rfl

end Property

/-- Properties by name, in order. -/
abbrev Properties := Table Property.name

end EntityCatalog
