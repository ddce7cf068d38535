import EntityCatalog.Entity.Ancestry
import EntityCatalog.Reference.Findings
import EntityCatalog.Schema.Basic

/-!
# Completing entities

Once relations are settled, the targets that nobody asked for so far are looked
up and the items of enums are evaluated, each once, for the entity that
declares the property.  What was found is entered into every copy of the
property.  Then each entity is told which relations point at it, and what its
primary key is.
-/

namespace EntityCatalog

/-! ## Enums -/

namespace Enumeration

/-- The items of an enum, of which a mapping is evaluated. -/
def evaluate (part : Enumeration) (sources : Sources) (tally : Tally) :
    List EnumItem × Tally :=
  match part.declared with
  | .literal values => (values.map fun value => ⟨none, value⟩, tally)
  | .deferred source =>
    let (entries, tally) := sources.evaluateMapping source tally
    (entries.map fun (key, value) => ⟨some key, value⟩, tally)

/-- The items of an enum, which are evaluated where they are not known. -/
def force (part : Enumeration) (sources : Sources) (tally : Tally) :
    List EnumItem × Tally :=
  match part.items with
  | some items => (items, tally)
  | none => part.evaluate sources tally

/-- Whether a value is one of the items of an enum. -/
def contains (part : Enumeration) (sources : Sources) (value : Value)
    (tally : Tally) : Bool × Tally :=
  let (items, tally) := part.force sources tally
  (EnumItem.holds items value, tally)

end Enumeration

/-- What is wrong with the default of an enum with given items.  Null and the
defaults of arrays need not be items. -/
def Property.defaultMisuse (property : Property) (items : List EnumItem) :
    Option Misuse :=
  property.default.bind fun default =>
    if default.isNull || property.array || EnumItem.holds items default then none
    else some (.defaultNotAnItem default.display)

namespace Completion

/-! ## Targets and items -/

/-- How far the completion has come. -/
structure Progress where
  findings : Findings
  /-- The items of enums, by the place of the declaration. -/
  items : Table (Prod.fst : Place × List EnumItem → Place) := .empty
  defects : List Defect := []

namespace Progress

/-- Look up a target. -/
def findTarget (directory : Directory) (progress : Progress) (place : Place)
    (target : Target) : Progress :=
  let (answer, findings) := progress.findings.force directory place target
  let defects :=
    match answer with
    | .ok _ => []
    | .error miss => [miss.targetDefect place]
  { progress with
    findings := findings
    defects := progress.defects ++ defects }

/-- Evaluate the items of an enum and judge its default. -/
def findItems (directory : Directory) (progress : Progress) (place : Place)
    (property : Property) (part : Enumeration) : Progress :=
  let (items, tally) :=
    part.evaluate directory.sources progress.findings.tally
  let defects :=
    ((property.defaultMisuse items).map fun misuse =>
      Defect.configuration place misuse).toList
  { findings := { progress.findings with tally := tally }
    items := progress.items.insert (place, items)
    defects := progress.defects ++ defects }

/-- Find out what a property lacks; one that was dropped has no target to look
up. -/
def visit (directory : Directory) (invalid : List Place) (progress : Progress)
    (property : Property) : Progress :=
  match property.nature with
  | .scalar _ => progress
  | .enumeration part =>
    progress.findItems directory property.origin property part
  | .embedded part =>
    if property.origin ∈ invalid then progress
    else progress.findTarget directory property.origin part.target
  | .relation part =>
    if property.origin ∈ invalid then progress
    else progress.findTarget directory property.origin part.target

/-- Enter what was found into a copy of a property. -/
def complete (progress : Progress) (property : Property) : Property :=
  match property.nature with
  | .scalar _ => property
  | .enumeration _ =>
    property.withItems
      ((progress.items.find? property.origin).map Prod.snd)
  | .embedded _ | .relation _ =>
    match progress.findings.target? property.origin with
    | some entity => property.withTarget (some entity)
    | none => property

@[simp]
theorem name_complete (progress : Progress) (property : Property) :
    (progress.complete property).name = property.name := by
  unfold complete
  split
  · rfl
  · simp
  all_goals (split <;> simp)

end Progress

/-- Find out what the own properties of all entities lack. -/
def run (directory : Directory) (invalid : List Place) (findings : Findings)
    (entities : Entities) : Progress :=
  (entities.items.flatMap Entity.ownProperties).foldl
    (Progress.visit directory invalid) { findings := findings }

end Completion

namespace Entities

/-- Enter what was found into every property. -/
def complete (entities : Entities) (progress : Completion.Progress) : Entities :=
  entities.map
    (fun entity =>
      entity.mapProperties progress.complete progress.name_complete)
    fun _ => rfl

/-! ## Back-references and primary keys -/

/-- All relations with known target: the target and how it knows them. -/
def references (entities : Entities) : List (String × BackReference) :=
  entities.items.flatMap fun entity =>
    entity.properties.items.filterMap fun property => do
      let relation ← property.relation?
      let target ← relation.target.entity
      return (target, ⟨entity.place property, relation.kind⟩)

/-- The relations that point at an entity, in the order of their holders. -/
def referencesTo (entities : Entities) (name : String) : List BackReference :=
  (entities.references.filter fun reference => reference.1 = name).map Prod.snd

/-- Tell each entity which relations point at it and what its key is. -/
def index (entities : Entities) : Entities :=
  entities.map
    (fun entity =>
      { entity.withPrimaryKeys with
        referencedBy := entities.referencesTo entity.name })
    fun _ => rfl

/-- Whether a part of the primary key that the entity or a base declares was
dropped. -/
def hasInvalidKey (entities : Entities) (schemas : Table Schema.name)
    (invalid : List Place) (entity : String) : Bool :=
  (entities.ancestry entity).any fun ancestor =>
    (schemas.find? ancestor).any fun schema =>
      schema.properties.items.any fun (name, options) =>
        options.primary && entities.anyWithin invalid ⟨ancestor, name⟩

/-- The entities that should have a primary key and have none. -/
def keyDefects (entities : Entities) (schemas : Table Schema.name)
    (invalid : List Place) : List Defect :=
  (entities.items.filter fun entity =>
    entity.isTable && !entity.keyless && entity.primaryKeys.isEmpty &&
      !entities.hasInvalidKey schemas invalid entity.name).map fun entity =>
    .missingPrimaryKey entity.name

end Entities

end EntityCatalog
