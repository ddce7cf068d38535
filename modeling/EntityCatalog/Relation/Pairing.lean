import EntityCatalog.Entity.Ancestry
import EntityCatalog.Config
import EntityCatalog.Reference.Findings

/-!
# Pairing relations

Every relation is paired with the property on the other side, if there is one,
and it is decided which side owns.  A hint names the other side; a relation
between entities one to one or many to many without a hint looks for it among
the properties of its target.  A many-to-many relation that nobody answers may
get an inverse.

Pairing changes nothing.  It collects decisions, which are carried out once
every relation has been looked at, so that they do not depend on the order of
declarations.  Children of an abstract base pair their own copies of an
inherited relation; what a concrete base decides holds for its children.
-/

namespace EntityCatalog

/-! ## Decisions -/

/-- What one side of a relation becomes. -/
structure Settlement where
  place : Place
  sides : Sides
  /-- The property on whose account this is so. -/
  source : Place
  deriving DecidableEq, Repr, Inhabited

/-- An inverse that an entity gets for a relation. -/
structure Synthesis where
  holder : String
  name : String
  /-- The relation it is the inverse of. -/
  source : Place
  deriving DecidableEq, Repr, Inhabited

/-- Something decided about relations. -/
inductive Decision where
  | settle (settlement : Settlement)
  | synthesize (synthesis : Synthesis)
  deriving DecidableEq, Repr

/-- What comes of pairing one relation.  Decisions made before a defect was
found stand. -/
structure Outcome where
  decisions : List Decision
  defect : Option Defect := none

namespace Outcome

/-- Nothing is decided and nothing is wrong. -/
def silent : Outcome := { decisions := [] }

/-- Something is wrong. -/
def failure (defect : Defect) : Outcome :=
  { decisions := [], defect := some defect }

end Outcome

/-- The conflict of two properties over ownership.  They are named by their
declarations and in a fixed order, so both sides report it alike. -/
def Defect.conflict (property other : Property) (ambiguity : Ambiguity) :
    Defect :=
  if property.origin.le other.origin then
    .ambiguousOwnership property.origin other.origin ambiguity
  else .ambiguousOwnership other.origin property.origin ambiguity

namespace Pairing

/-- What pairing looks at. -/
structure Scope where
  directory : Directory
  config : Config
  entities : Entities
  /-- The places of properties that were dropped. -/
  invalid : List Place

/-- A relation under consideration. -/
structure Side where
  entity : Entity
  property : Property
  relation : Relation

namespace Side

/-- Where the relation is held. -/
def place (side : Side) : Place :=
  side.entity.place side.property

end Side

/-- Whether a concrete base holds the same declaration, and so pairs it for
the entity. -/
def Scope.pairedByBase (scope : Scope) (side : Side) : Bool :=
  match side.entity.base.bind scope.entities.find? with
  | none => false
  | some base =>
    !base.isAbstract && (base.property? side.property.name).any fun inherited =>
      inherited.declaredBy = side.property.declaredBy

/-! ## The other side -/

/-- The entity that the relation of a possible other side points at, unless
the property was dropped or its target is missed. -/
def Scope.targetOf (scope : Scope) (property : Property) (relation : Relation)
    (findings : Findings) : Option String × Findings :=
  if property.origin ∈ scope.invalid then (none, findings)
  else
    let (answer, findings) :=
      findings.force scope.directory property.origin relation.target
    (answer.toOption, findings)

/-- What following a hint leads to. -/
inductive Hinted where
  /-- The other side is broken, which is reported elsewhere. -/
  | silent
  | failure (defect : Defect)
  | found (side : Side)

/-- The other side that a hint names, on the target of a relation. -/
def Scope.follow (scope : Scope) (side : Side) (target : Entity) (hint : Hint)
    (name : String) (findings : Findings) : Hinted × Findings :=
  match target.property? name with
  | none =>
    if scope.entities.anyWithin scope.invalid ⟨target.name, name⟩ then
      (.silent, findings)
    else (.failure (.danglingHint side.place target.name name hint), findings)
  | some other =>
    let mismatch := Defect.kindMismatch side.place side.property.kind
      (target.place other) other.kind
    match other.relation? with
    | none => (.failure mismatch, findings)
    | some relation =>
      if relation.kind = side.relation.kind.reciprocal then
        match scope.targetOf other relation findings with
        | (none, findings) => (.silent, findings)
        | (some found, findings) =>
          if scope.entities.isRelated found side.entity.name then
            (.found ⟨target, other, relation⟩, findings)
          else
            (.failure (.targetMismatch side.place (target.place other) found),
              findings)
      else (.failure mismatch, findings)

/-! ## Hinted relations -/

/-- What the other side says against a hint of the property called `name`. -/
def objection (hint : Hint) (name : String) (other : Relation) :
    Option Ambiguity :=
  match hint with
  | .mappedBy =>
    if other.sides.mappedBy.isSome then some .bothMappedBy
    else
      (other.sides.inversedBy.filter (· ≠ name)).map .ownerNamesOther <|>
        if other.ownerHint = some false then some .bothInverse else none
  | .inversedBy =>
    if other.sides.inversedBy.isSome then some .bothInversedBy
    else
      (other.sides.mappedBy.filter (· ≠ name)).map .inverseNamesOther <|>
        if other.ownerHint = some true then some .bothOwning else none

/-- The sides of a property that owns or not and whose other side has the given
name, if it is to be entered. -/
def sidesNaming (owner : Bool) (name : Option String) : Sides :=
  if owner then ⟨true, none, name⟩ else ⟨false, name, none⟩

/-- The decision that a property owns or not, on account of the other side. -/
def settle (side : Side) (owner : Bool) (name : Option String)
    (source : Place) : Decision :=
  .settle ⟨side.place, sidesNaming owner name, source⟩

/-- Pair a relation whose hint names the other side. -/
def Scope.pairHinted (scope : Scope) (side : Side) (target : Entity)
    (hint : Hint) (name : String) (findings : Findings) : Outcome × Findings :=
  match scope.follow side target hint name findings with
  | (.silent, findings) => (.silent, findings)
  | (.failure defect, findings) => (.failure defect, findings)
  | (.found other, findings) =>
    match objection hint side.property.name other.relation with
    | some ambiguity =>
      (.failure (.conflict side.property other.property ambiguity), findings)
    | none =>
      let owner := hint = .inversedBy
      ({ decisions := [
          settle side owner none other.place,
          settle other (!owner) (some side.property.name) side.place] },
        findings)

/-! ## Relations without a hint -/

/-- The properties of the target that could be the other side: relations of
the same kind, other than the relation itself, that point back. -/
def Scope.candidates (scope : Scope) (side : Side) (target : Entity) :
    List Property → Findings → List Side × Findings
  | [], findings => ([], findings)
  | other :: rest, findings =>
    match other.relation? with
    | none => scope.candidates side target rest findings
    | some relation =>
      if relation.kind = side.relation.kind ∧
          target.place other ≠ side.place then
        let (found, findings) := scope.targetOf other relation findings
        let (sides, findings) := scope.candidates side target rest findings
        if found.any (scope.entities.isRelated · side.entity.name) then
          (⟨target, other, relation⟩ :: sides, findings)
        else (sides, findings)
      else scope.candidates side target rest findings

/-- What a candidate's hint makes of the relation called `name`, if it names
it. -/
def Side.answer (candidate : Side) (name : String) :
    Option Bool :=
  if candidate.relation.sides.mappedBy = some name then some true
  else if candidate.relation.sides.inversedBy = some name then some false
  else none

/-- Which of two sides without hints owns, by what they declare of ownership:
whether the first one does. -/
def owns : Option Bool → Option Bool → Except Ambiguity Bool
  | some true, some true => .error .bothOwning
  | some false, some false => .error .neitherOwning
  | none, none => .error .unhinted
  | some owner, _ => .ok owner
  | none, some other => .ok !other

/-- The inverse to be added for a many-to-many relation that owns. -/
def Scope.synthesis (scope : Scope) (side : Side) (target : Entity) :
    Outcome :=
  let name := scope.config.inverseNaming.inverseName side.entity.name
    side.property.name
  if target.properties.contains name then
    .failure (.configuration side.place (.inverseExists name target.name))
  else
    { decisions := [
        settle side true (some name) ⟨target.name, name⟩,
        .synthesize ⟨target.name, name, side.place⟩] }

/-- Decide on a relation that no property of its target answers. -/
def Scope.decideAlone (scope : Scope) (side : Side) (target : Entity) :
    Outcome :=
  if side.relation.ownerHint = some false then
    .failure (.configuration side.place (.noOwningSide target.name))
  else
    let owning := settle side true none side.place
    if side.relation.kind = .manyToMany && scope.config.synthesizeInverse &&
        !side.entity.isAbstract then
      let added := scope.synthesis side target
      { added with decisions := owning :: added.decisions }
    else { decisions := [owning] }

/-- Decide between two relations without hints. -/
def decideBetween (side other : Side) : Outcome :=
  match owns side.relation.ownerHint other.relation.ownerHint with
  | .error ambiguity =>
    .failure (.conflict side.property other.property ambiguity)
  | .ok owner =>
    { decisions := [
        settle side owner (some other.property.name) other.place,
        settle other (!owner) (some side.property.name) side.place] }

/-- Decide on a relation without hint, given the candidates for its other
side. -/
def Scope.decideUnhinted (scope : Scope) (side : Side) (target : Entity)
    (candidates : List Side) : Outcome :=
  let answer := candidates.findSome? fun candidate =>
    (candidate.answer side.property.name).map fun owner => (candidate, owner)
  match answer with
  | some (other, owner) =>
    { decisions := [
        settle side owner (some other.property.name) other.place] }
  | none =>
    match candidates.filter (·.relation.sides.isUnhinted) with
    | [] => scope.decideAlone side target
    | [other] => decideBetween side other
    | other :: _ :: _ =>
      .failure (.conflict side.property other.property .severalReciprocals)

/-- Pair one relation with known target. -/
def Scope.pair (scope : Scope) (side : Side) (target : Entity)
    (findings : Findings) : Outcome × Findings :=
  match side.relation.sides.mappedBy, side.relation.sides.inversedBy with
  | some name, _ => scope.pairHinted side target .mappedBy name findings
  | none, some name => scope.pairHinted side target .inversedBy name findings
  | none, none =>
    match side.relation.kind with
    | .manyToOne | .oneToMany => (.silent, findings)
    | .oneToOne | .manyToMany =>
      let (candidates, findings) :=
        scope.candidates side target target.properties.items findings
      (scope.decideUnhinted side target candidates, findings)

/-! ## All relations -/

/-- How far pairing has come. -/
structure Progress where
  findings : Findings
  /-- The declarations whose further copies are left alone. -/
  rejected : List Place := []
  /-- The declarations whose target was missed. -/
  missed : List Place := []
  decisions : List Decision := []
  defects : List Defect := []

/-- Take in what came of pairing a relation with its target. -/
def Progress.take (progress : Progress) (side : Side) (outcome : Outcome)
    (findings : Findings) : Progress :=
  let own := side.property.declaredBy = side.entity.name
  { progress with
    findings := findings
    rejected :=
      if outcome.defect.isSome && own then
        side.property.origin :: progress.rejected
      else progress.rejected
    decisions := progress.decisions ++ outcome.decisions
    defects := progress.defects ++ outcome.defect.toList }

/-- Take in that the target of a relation was missed. -/
def Progress.miss (progress : Progress) (side : Side) (miss : Miss)
    (findings : Findings) : Progress :=
  { progress with
    findings := findings
    rejected := side.property.origin :: progress.rejected
    missed := side.property.origin :: progress.missed
    defects := progress.defects ++ [miss.targetDefect side.property.origin] }

/-- Whether a relation is left alone. -/
def Scope.skips (scope : Scope) (progress : Progress) (side : Side) : Bool :=
  decide (side.property.origin ∈ scope.invalid) ||
    decide (side.property.origin ∈ progress.rejected) ||
    scope.pairedByBase side

/-- Pair the next relation. -/
def Scope.step (scope : Scope) (progress : Progress) (side : Side) :
    Progress :=
  if scope.skips progress side then progress
  else
    match progress.findings.force scope.directory side.property.origin
        side.relation.target with
    | (.error miss, findings) => progress.miss side miss findings
    | (.ok name, findings) =>
      match scope.entities.find? name with
      | none => { progress with findings := findings }
      | some target =>
        let (outcome, findings) := scope.pair side target findings
        progress.take side outcome findings

/-- The relations of an entity. -/
def sidesOf (entity : Entity) : List Side :=
  entity.properties.items.filterMap fun property =>
    property.relation?.map fun relation => ⟨entity, property, relation⟩

/-- Pair all relations, those of bases before those of what extends them. -/
def Scope.run (scope : Scope) (findings : Findings) : Progress :=
  (scope.entities.basesFirst.flatMap sidesOf).foldl scope.step
    { findings := findings }

end Pairing

end EntityCatalog
