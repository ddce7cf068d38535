import EntityCatalog.Relation.Pairing

/-!
# Carrying out decisions about relations

Decisions are carried out one after another.  Settling a side reaches every
descendant that still holds the same declaration.  A side keeps the names it
has: settling it again must agree on ownership and on each name.  An inverse is
added to its holder and to the descendants that do not use its name.
-/

namespace EntityCatalog

namespace Sides

/-- Enter a name into a slot, or give the different name that is there. -/
def fill (slot name : Option String) : Except String (Option String) :=
  match slot, name with
  | slot, none => .ok slot
  | none, some name => .ok (some name)
  | some present, some name =>
    if present = name then .ok (some name) else .error present

/-- Settle a side again, given how ownership was decided before.  On
disagreement ownership stays; a name entered before the disagreement showed
stays too. -/
def settle (current : Sides) (decided : Option Bool) (proposed : Sides) :
    Sides × Option Ambiguity :=
  if decided.any (· ≠ proposed.owner) then (current, some .decisionsDisagree)
  else
    match fill current.mappedBy proposed.mappedBy with
    | .error other => (current, some (.alreadyPaired other))
    | .ok mappedBy =>
      match fill current.inversedBy proposed.inversedBy with
      | .error other =>
        ({ current with mappedBy := mappedBy }, some (.alreadyPaired other))
      | .ok inversedBy => (⟨proposed.owner, mappedBy, inversedBy⟩, none)

end Sides

namespace Entity

/-- Change the sides of a relation. -/
def withSides (entity : Entity) (name : String) (sides : Sides) : Entity :=
  { entity with
    properties := entity.properties.adjust name (·.withSides sides)
      fun property => property.name_withSides sides }

/-- Add a property, unless its name is in use. -/
def offer (entity : Entity) (property : Property) : Entity :=
  if entity.properties.contains property.name then entity
  else { entity with properties := entity.properties.insert property }

@[simp]
theorem name_offer (entity : Entity) (property : Property) :
    (entity.offer property).name = entity.name := by
  unfold offer
  split <;> rfl

end Entity

namespace Entities

/-- The entities that hold what an entity holds under a name: the entity and
every descendant where the property comes from the same declaration. -/
def copies (entities : Entities) (place : Place) : List String :=
  match entities.property? place with
  | none => [place.entity]
  | some property =>
    (entities.items.filter fun other =>
      other.name = place.entity ||
        (entities.isWithin other.name place.entity &&
          (other.property? place.property).any fun copy =>
            copy.declaredBy = property.declaredBy)).map Entity.name

/-- Change the sides of a relation of an entity. -/
def withSides (entities : Entities) (place : Place) (sides : Sides) :
    Entities :=
  entities.adjust place.entity (·.withSides place.property sides)
    fun _ => rfl

/-- Give a property to an entity and to its descendants, where its name is not
in use. -/
def addWithin (entities : Entities) (holder : String) (property : Property) :
    Entities :=
  entities.map
    (fun entity =>
      if entities.isWithin entity.name holder then entity.offer property
      else entity)
    fun entity => by split <;> simp

end Entities

/-- The inverse that a synthesis adds. -/
def Synthesis.property (synthesis : Synthesis) : Property where
  name := synthesis.name
  nature := .relation {
    kind := .manyToMany
    target := ⟨.name synthesis.source.entity, some synthesis.source.entity⟩
    sides := ⟨false, some synthesis.source.property, none⟩ }
  declaredBy := synthesis.holder
  synthesized := true

namespace Settlement

/-- How far the decisions are carried out. -/
structure Progress where
  entities : Entities
  /-- How ownership was decided, by side. -/
  decided : Table (Prod.fst : Place × Bool → Place) := .empty
  defects : List Defect := []

namespace Progress

/-- Note a defect. -/
def note (progress : Progress) (defect : Defect) : Progress :=
  { progress with defects := progress.defects ++ [defect] }

/-- Settle one copy of a side. -/
def settleCopy (progress : Progress) (sides : Sides) (source place : Place) :
    Progress :=
  match (progress.entities.property? place).bind Property.relation? with
  | none => progress
  | some relation =>
    let decided := (progress.decided.find? place).map Prod.snd
    let (result, ambiguity) := relation.sides.settle decided sides
    let changed :=
      { progress with entities := progress.entities.withSides place result }
    match ambiguity with
    | some ambiguity => changed.note (.ambiguousOwnership place source ambiguity)
    | none =>
      { changed with decided := changed.decided.insert (place, sides.owner) }

/-- Settle a side wherever it is held. -/
def settle (progress : Progress) (settlement : Settlement) : Progress :=
  ((progress.entities.copies settlement.place).map fun holder =>
      Place.mk holder settlement.place.property).foldl
    (fun progress place =>
      progress.settleCopy settlement.sides settlement.source place)
    progress

/-- Add an inverse. -/
def synthesize (progress : Progress) (synthesis : Synthesis) : Progress :=
  if (progress.entities.property? ⟨synthesis.holder, synthesis.name⟩).isSome then
    progress.note (.configuration synthesis.source
      (.inverseExists synthesis.name synthesis.holder))
  else
    { progress with
      entities :=
        progress.entities.addWithin synthesis.holder synthesis.property }

/-- Carry out one decision. -/
def carryOut (progress : Progress) : Decision → Progress
  | .settle settlement => progress.settle settlement
  | .synthesize synthesis => progress.synthesize synthesis

end Progress

/-- Carry out decisions in turn. -/
def carryOut (entities : Entities) (decisions : List Decision) : Progress :=
  decisions.foldl Progress.carryOut { entities := entities }

end Settlement

end EntityCatalog
