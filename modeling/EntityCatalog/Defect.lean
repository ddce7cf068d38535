import EntityCatalog.Property.Kind

/-!
# Defects of declarations

A resolution collects everything that is wrong with the registered
declarations.  A defect says what is wrong and where; its wording is
`Defect.message`.  Two defects with one wording are reported once.
-/

namespace EntityCatalog

/-- A property of an entity, by both names. -/
structure Place where
  entity : String
  property : String
  deriving DecidableEq, Repr, Inhabited

namespace Place

/-- The place as text. -/
def text (place : Place) : String :=
  place.entity ++ "." ++ place.property

/-- Places are ordered by entity, then by property. -/
def le (left right : Place) : Bool :=
  left.entity < right.entity ||
    (left.entity = right.entity && left.property ≤ right.property)

end Place

/-- The options that are allowed on some kinds of properties only. -/
inductive RestrictedOption where
  | mappedBy
  | inversedBy
  | owner
  | deleteRule
  | updateRule
  | checkTime
  | fixedOrder
  | mapToKey
  | array
  | columnPrefix
  | primary
  | default
  | onCreate
  deriving DecidableEq, Repr

/-- How declarations call an option. -/
def RestrictedOption.name : RestrictedOption → String
  | .mappedBy => "mappedBy"
  | .inversedBy => "inversedBy"
  | .owner => "owner"
  | .deleteRule => "deleteRule"
  | .updateRule => "updateRule"
  | .checkTime => "deferMode"
  | .fixedOrder => "fixedOrder"
  | .mapToKey => "mapToPk"
  | .array => "array"
  | .columnPrefix => "prefix"
  | .primary => "primary"
  | .default => "default"
  | .onCreate => "onCreate"

/-- What is wrong with the configuration of one property. -/
inductive Misuse where
  | severalNatures
  | typeForTarget
  | targetForColumn
  | enumKind
  | enumWithoutItems
  | missingTarget
  | itemsWithoutEnum
  | noNature
  | notAllowed (option : RestrictedOption) (kind : PropertyKind)
  | bothHints
  | ownerWithMappedBy
  | inverseWithInversedBy
  | manyToOneNotOwning
  | oneToManyWithoutMappedBy
  | nullableKey
  | setNullOnRequired
  | defaultNotAnItem (default : String)
  | notEmbeddable (target : String)
  | embeddableTarget (target : String)
  | embeddingCycle (target : String)
  | noOwningSide (target : String)
  | inverseExists (inverse target : String)
  deriving DecidableEq, Repr

/-- The wording of a misuse. -/
def Misuse.message : Misuse → String
  | .severalNatures => "only one of `type`, `entity` or `enum` may be set"
  | .typeForTarget =>
    "a relation or embedded kind requires `entity`, not `type`"
  | .targetForColumn => "`entity` requires a relation or embedded kind"
  | .enumKind => "`enum` conflicts with the declared kind"
  | .enumWithoutItems => "enum properties require `items`"
  | .missingTarget => "relation and embedded kinds require `entity`"
  | .itemsWithoutEnum => "`items` is only allowed on enum properties"
  | .noNature => "one of `type`, `entity` or `enum` is required"
  | .notAllowed option kind =>
    "`" ++ option.name ++ "` is not allowed on " ++ kind.tag ++ " properties"
  | .bothHints => "`mappedBy` and `inversedBy` are mutually exclusive"
  | .ownerWithMappedBy => "`owner: true` conflicts with `mappedBy`"
  | .inverseWithInversedBy => "`owner: false` conflicts with `inversedBy`"
  | .manyToOneNotOwning => "a many-to-one side always owns the relation"
  | .oneToManyWithoutMappedBy => "one-to-many requires `mappedBy`"
  | .nullableKey => "a primary key cannot be nullable"
  | .setNullOnRequired => "`set null` requires a nullable relation"
  | .defaultNotAnItem default =>
    "default " ++ default ++ " is not one of the enum items"
  | .notEmbeddable target =>
    "embedded target " ++ target ++ " is not embeddable"
  | .embeddableTarget target =>
    "relation cannot target embeddable " ++ target ++
      "; use an embedded property"
  | .embeddingCycle target => "embedding " ++ target ++ " creates a cycle"
  | .noOwningSide target =>
    "`owner: false` requires an owning property on " ++ target
  | .inverseExists inverse target =>
    "cannot synthesize inverse '" ++ inverse ++ "' on " ++ target ++
      ": property already exists"

/-- Why the sides of a relation cannot be told apart. -/
inductive Ambiguity where
  | bothMappedBy
  | ownerNamesOther (inverse : String)
  | bothInverse
  | bothInversedBy
  | inverseNamesOther (owner : String)
  | bothOwning
  | neitherOwning
  | unhinted
  | severalReciprocals
  | decisionsDisagree
  | alreadyPaired (other : String)
  deriving DecidableEq, Repr

/-- The wording of an ambiguity. -/
def Ambiguity.message : Ambiguity → String
  | .bothMappedBy => "both sides declare `mappedBy`"
  | .ownerNamesOther inverse =>
    "the owning side declares `inversedBy: '" ++ inverse ++ "'`"
  | .bothInverse => "both sides declare themselves inverse"
  | .bothInversedBy => "both sides declare `inversedBy`"
  | .inverseNamesOther owner =>
    "the inverse side declares `mappedBy: '" ++ owner ++ "'`"
  | .bothOwning => "both sides declare `owner: true`"
  | .neitherOwning => "both sides declare `owner: false`"
  | .unhinted =>
    "both sides are declared without `mappedBy`, `inversedBy` or `owner`"
  | .severalReciprocals =>
    "several unhinted reciprocal properties could pair with it"
  | .decisionsDisagree => "its reciprocals disagree on which side owns"
  | .alreadyPaired other => "already paired with '" ++ other ++ "'"

/-- The option that names the other side of a relation. -/
inductive Hint where
  | mappedBy
  | inversedBy
  deriving DecidableEq, Repr

/-- How declarations call a hint. -/
def Hint.name : Hint → String
  | .mappedBy => "mappedBy"
  | .inversedBy => "inversedBy"

/-- Something wrong with the registered declarations. -/
inductive Defect where
  | configuration (place : Place) (misuse : Misuse)
  | ambiguousOwnership (first second : Place) (ambiguity : Ambiguity)
  | danglingHint (place : Place) (target name : String) (hint : Hint)
  | kindMismatch (place : Place) (kind : PropertyKind) (other : Place)
    (otherKind : PropertyKind)
  | targetMismatch (place other : Place) (found : String)
  | unsettledReference (place : Place) (evaluations : Nat)
  | unknownEntity (place : Place) (target : String)
  | unknownBase (entity base : String)
  | inheritanceCycle (entity : String) (chain : List String)
  | missingPrimaryKey (entity : String)
  deriving DecidableEq, Repr

namespace Defect

/-- The wording of a defect. -/
def message : Defect → String
  | .configuration place misuse =>
    place.text ++ ": invalid configuration: " ++ misuse.message
  | .ambiguousOwnership first second ambiguity =>
    first.text ++ " and " ++ second.text ++ ": ambiguous ownership: " ++
      ambiguity.message
  | .danglingHint place target name hint =>
    place.text ++ ": " ++ hint.name ++ " '" ++ name ++
      "' does not exist on " ++ target
  | .kindMismatch place kind other otherKind =>
    place.text ++ " (" ++ kind.tag ++ ") cannot pair with " ++ other.text ++
      " (" ++ otherKind.tag ++ ")"
  | .targetMismatch place other found =>
    place.text ++ ": reciprocal " ++ other.text ++ " targets " ++ found ++
      ", not " ++ place.entity
  | .unsettledReference place evaluations =>
    place.text ++
      ": circular resolution: deferred reference did not settle after " ++
      Nat.repr evaluations ++ " evaluations"
  | .unknownEntity place target =>
    place.text ++ ": unknown target entity '" ++ target ++ "'"
  | .unknownBase entity base =>
    "entity '" ++ entity ++ "' extends unknown entity '" ++ base ++ "'"
  | .inheritanceCycle entity chain =>
    "entity '" ++ entity ++ "' has an inheritance cycle: " ++
      String.intercalate " -> " chain
  | .missingPrimaryKey entity => "entity '" ++ entity ++ "' has no primary key"

/-- The entity a defect belongs to. -/
def entity : Defect → String
  | .configuration place _ => place.entity
  | .ambiguousOwnership first _ _ => first.entity
  | .danglingHint place _ _ _ => place.entity
  | .kindMismatch place _ _ _ => place.entity
  | .targetMismatch place _ _ => place.entity
  | .unsettledReference place _ => place.entity
  | .unknownEntity place _ => place.entity
  | .unknownBase entity _ => entity
  | .inheritanceCycle entity _ => entity
  | .missingPrimaryKey entity => entity

/-- The property a defect belongs to, if it belongs to one. -/
def property? : Defect → Option String
  | .configuration place _ => some place.property
  | .ambiguousOwnership first _ _ => some first.property
  | .danglingHint place _ _ _ => some place.property
  | .kindMismatch place _ _ _ => some place.property
  | .targetMismatch place _ _ => some place.property
  | .unsettledReference place _ => some place.property
  | .unknownEntity place _ => some place.property
  | .unknownBase _ _ => none
  | .inheritanceCycle _ _ => none
  | .missingPrimaryKey _ => none

/-- The defects without those whose wording came before; `seen` are the
wordings met so far. -/
def withoutRepeats (seen : List String) : List Defect → List Defect
  | [] => []
  | defect :: rest =>
    if defect.message ∈ seen then withoutRepeats seen rest
    else defect :: withoutRepeats (defect.message :: seen) rest

/-- The message that lists all defects. -/
def report (defects : List Defect) : String :=
  "schema validation failed with " ++ Nat.repr defects.length ++ " error(s)" ++
    String.join (defects.map fun defect => "\n  - " ++ defect.message)

end Defect

end EntityCatalog
