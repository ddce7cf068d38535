import EntityCatalog.Defect
import EntityCatalog.Property.Basic
import EntityCatalog.Schema.Options

/-!
# Properties from options

Declared options become a property if they fit together.  First the options
have to say what the property is: exactly one of a type, a target and an enum.
Then no rule about options on this kind of property may be broken; the rules
are a list in a fixed order, and the first broken one is reported.
-/

namespace EntityCatalog

/-- What declared options say a property is. -/
inductive DeclaredNature where
  | scalar (typeName : String)
  | enumeration (items : EnumItems)
  | embedded (target : EntityRef)
  | relation (kind : RelationKind) (target : EntityRef)

/-- The kind of a declared nature. -/
def DeclaredNature.kind : DeclaredNature → PropertyKind
  | .scalar _ => .scalar
  | .enumeration _ => .enumeration
  | .embedded _ => .embedded
  | .relation kind _ => .relation kind

namespace Options

/-- Whether the options mark an enum. -/
def marksEnum (options : Options) : Bool :=
  options.isEnum || options.kind = some .enumeration

/-- The nature of options that give a type. -/
def scalarNature (options : Options) (typeName : String) :
    Except Misuse DeclaredNature :=
  match options.kind with
  | none | some .scalar => .ok (.scalar typeName)
  | some _ => .error .typeForTarget

/-- The nature of options that give a target. -/
def targetNature (options : Options) (target : EntityRef) :
    Except Misuse DeclaredNature :=
  match options.kind with
  | none => .ok (.relation .manyToOne target)
  | some .embedded => .ok (.embedded target)
  | some (.relation kind) => .ok (.relation kind target)
  | some _ => .error .targetForColumn

/-- The nature of options that mark an enum. -/
def enumNature (options : Options) : Except Misuse DeclaredNature :=
  if options.kind.any (· ≠ .enumeration) then .error .enumKind
  else
    match options.items with
    | some items => .ok (.enumeration items)
    | none => .error .enumWithoutItems

/-- What is missing from options that say nothing about their nature. -/
def absentNature (options : Options) : Misuse :=
  if options.kind.any PropertyKind.hasTarget then .missingTarget
  else if options.items.isSome then .itemsWithoutEnum
  else .noNature

/-- What the options say the property is. -/
def nature (options : Options) : Except Misuse DeclaredNature :=
  match options.typeName, options.entity, options.marksEnum with
  | some typeName, none, false => options.scalarNature typeName
  | none, some target, false => options.targetNature target
  | none, none, true => options.enumNature
  | none, none, false => .error options.absentNature
  | _, _, _ => .error .severalNatures

/-- The rules for options on properties of a kind: when each is broken, and
what is then reported. -/
def rules (options : Options) (kind : PropertyKind) : List (Bool × Misuse) :=
  let owning := kind.isRelation && kind ≠ .relation .oneToMany
  let notAllowed (broken : Bool) (option : RestrictedOption) :=
    (broken, Misuse.notAllowed option kind)
  [ (options.items.isSome && kind ≠ .enumeration, .itemsWithoutEnum),
    notAllowed (options.mappedBy.isSome &&
      (!kind.isRelation || kind = .relation .manyToOne)) .mappedBy,
    (options.mappedBy.isSome && options.inversedBy.isSome, .bothHints),
    (options.owner = some true && options.mappedBy.isSome, .ownerWithMappedBy),
    (options.owner = some false && options.inversedBy.isSome,
      .inverseWithInversedBy),
    (options.owner = some false && kind = .relation .manyToOne,
      .manyToOneNotOwning),
    (kind = .relation .oneToMany && options.mappedBy.isNone,
      .oneToManyWithoutMappedBy),
    notAllowed (!owning && options.inversedBy.isSome) .inversedBy,
    notAllowed (!owning && options.owner.isSome) .owner,
    notAllowed (!owning && options.deleteRule.isSome) .deleteRule,
    notAllowed (!owning && options.updateRule.isSome) .updateRule,
    notAllowed (!owning && options.checkTime.isSome) .checkTime,
    notAllowed (options.fixedOrder && kind ≠ .relation .manyToMany) .fixedOrder,
    notAllowed (options.mapToKey && kind ≠ .relation .manyToOne &&
      kind ≠ .relation .oneToOne) .mapToKey,
    notAllowed (options.array && kind.isRelation) .array,
    notAllowed (options.columnPrefix.isSome && kind ≠ .embedded) .columnPrefix,
    notAllowed (kind.isCollection && options.primary) .primary,
    notAllowed (kind.isCollection && options.default.isSome) .default,
    notAllowed (kind.isCollection && options.onCreate.isSome) .onCreate,
    (options.primary && options.nullable = some true, .nullableKey),
    (options.nullable ≠ some true && (options.deleteRule = some .setNull ||
      options.updateRule = some .setNull), .setNullOnRequired) ]

/-- The first broken rule. -/
def firstBroken (options : Options) (kind : PropertyKind) : Option Misuse :=
  ((options.rules kind).find? Prod.fst).map Prod.snd

/-- The nature of a property with the given options. -/
def build (options : Options) : DeclaredNature → Nature
  | .scalar typeName => .scalar (.ofName typeName)
  | .enumeration items => .enumeration ⟨items, none⟩
  | .embedded target => .embedded ⟨⟨target, none⟩, options.columnPrefix⟩
  | .relation kind target =>
    .relation {
      kind := kind
      target := ⟨target, none⟩
      sides := ⟨kind = .manyToOne, options.mappedBy, options.inversedBy⟩
      ownerHint := options.owner
      deleteRule := options.deleteRule
      updateRule := options.updateRule
      checkTime := options.checkTime
      fixedOrder := options.fixedOrder }

end Options

namespace Property

/-- The property with the given name and nature that an entity declares. -/
def declare (entity name : String) (options : Options)
    (nature : DeclaredNature) : Property where
  name := name
  nature := options.build nature
  nullable := options.nullable.getD false
  array := options.array
  reference := options.reference
  primary := options.primary
  mapToKey := options.mapToKey
  default := options.default
  onCreate := options.onCreate
  onUpdate := options.onUpdate
  declaredBy := entity
  synthesized := false

/-- The property that an entity declares, or what is wrong with it. -/
def ofOptions (entity name : String) (options : Options) :
    Except Misuse Property :=
  match options.nature with
  | .error misuse => .error misuse
  | .ok nature =>
    match options.firstBroken nature.kind with
    | some misuse => .error misuse
    | none => .ok (declare entity name options nature)

end Property

end EntityCatalog
