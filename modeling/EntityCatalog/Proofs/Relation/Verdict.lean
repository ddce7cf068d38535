import EntityCatalog.Relation.Pairing
import EntityCatalog.Proofs.Entity.Inheritance
import EntityCatalog.Proofs.Property.Changes
import EntityCatalog.Proofs.Reference.Steady

/-!
# Verdicts on relations

With steady sources the outcome of pairing a relation does not depend on what
was looked up before.  `Scope.verdict` is that outcome, read off the merged
entities alone, and `Coherent.pair_reads` says that pairing gives it.
-/

namespace EntityCatalog

/-! ## References by place -/

/-- The references that declared properties point with. -/
def references (own : Place → Option Property) (place : Place) :
    Option EntityRef :=
  (own place).bind fun property => property.target?.map (·.declared)

namespace Pairing

/-! ## The setting of a pairing -/

/-- A scope over merged entities, with steady sources for the names of its
entities. -/
structure Scope.Coherent (scope : Scope) (own : Place → Option Property) :
    Prop where
  steady : scope.directory.sources.Steady
  merges : scope.entities.Merges own
  lawful : ∀ place property, own place = some property → property.Lawful
  names : ∀ name, name ∈ scope.directory.names → name ∈ scope.entities.keys

/-- A result that does not depend on what was found out before, together with
findings that stay faithful. -/
def Scope.Reads {Result : Type} (scope : Scope)
    (own : Place → Option Property) (start : Tally)
    (outcome : Result × Findings) (result : Result) : Prop :=
  outcome.1 = result ∧
    outcome.2.Faithful scope.directory (references own) start

/-- A side that an entity of a scope holds. -/
structure Side.Held (side : Side) (entities : Entities) : Prop where
  entity : entities.find? side.entity.name = some side.entity
  property : entities.property? side.place = some side.property
  relation : side.property.relation? = some side.relation

namespace Scope.Coherent

variable {scope : Scope} {own : Place → Option Property}
  {start : Tally} {findings : Findings}

/-- A held property has an open target, declared at its origin. -/
theorem open_target (coherent : scope.Coherent own) {place : Place}
    {property : Property} {target : Target}
    (held : scope.entities.property? place = some property)
    (pointed : property.target? = some target) :
    references own property.origin = some target.declared ∧
      target.entity = none := by
  have declared := (coherent.merges.declared_of_held held).1
  constructor
  · rw [references, declared, Option.bind_some, pointed, Option.map_some]
  · exact (coherent.lawful _ _ declared).open_target _ pointed

/-- Forcing the target of a held relation gives its meaning. -/
theorem force_reads (coherent : scope.Coherent own)
    (faithful : findings.Faithful scope.directory (references own) start)
    {place : Place} {property : Property} {relation : Relation}
    (held : scope.entities.property? place = some property)
    (related : property.relation? = some relation) :
    scope.Reads own start
      (findings.force scope.directory property.origin relation.target)
      (scope.directory.meaning relation.target.declared) := by
  rcases coherent.open_target held (Property.target?_of_relation? related) with
    ⟨declared, unknown⟩
  have forced := faithful.force coherent.steady declared unknown
  exact ⟨forced.1, forced.2.1⟩

end Scope.Coherent

/-! ## Verdicts -/

/-- The entity that a relation means, unless the property was dropped or its
target is missed. -/
def Scope.aim (scope : Scope) (property : Property) (relation : Relation) :
    Option String :=
  if property.origin ∈ scope.invalid then none
  else (scope.directory.meaning relation.target.declared).toOption

theorem Scope.aim_of_means {scope : Scope} {property : Property}
    {relation : Relation} {name : String} (dropped : scope.invalid = [])
    (means : scope.directory.meaning relation.target.declared = .ok name) :
    scope.aim property relation = some name := by
  rw [Scope.aim, dropped, if_neg List.not_mem_nil, means]
  rfl

/-- What following a hint leads to. -/
def Scope.reply (scope : Scope) (side : Side) (target : Entity) (hint : Hint)
    (name : String) : Hinted :=
  match target.property? name with
  | none =>
    if scope.entities.anyWithin scope.invalid ⟨target.name, name⟩ then .silent
    else .failure (.danglingHint side.place target.name name hint)
  | some other =>
    let mismatch := Defect.kindMismatch side.place side.property.kind
      (target.place other) other.kind
    match other.relation? with
    | none => .failure mismatch
    | some relation =>
      if relation.kind = side.relation.kind.reciprocal then
        match scope.aim other relation with
        | none => .silent
        | some found =>
          if scope.entities.isRelated found side.entity.name then
            .found ⟨target, other, relation⟩
          else .failure (.targetMismatch side.place (target.place other) found)
      else .failure mismatch

/-- Whether a property of the target could be the other side. -/
def Scope.rival? (scope : Scope) (side : Side) (target : Entity)
    (other : Property) : Option Side :=
  other.relation?.bind fun relation =>
    if relation.kind = side.relation.kind ∧ target.place other ≠ side.place ∧
        (scope.aim other relation).any
          (scope.entities.isRelated · side.entity.name) then
      some ⟨target, other, relation⟩
    else none

/-- The properties of the target that could be the other side. -/
def Scope.rivals (scope : Scope) (side : Side) (target : Entity) : List Side :=
  target.properties.items.filterMap (scope.rival? side target)

/-- What comes of a relation whose hint names the other side. -/
def Scope.hintedVerdict (scope : Scope) (side : Side) (target : Entity)
    (hint : Hint) (name : String) : Outcome :=
  match scope.reply side target hint name with
  | .silent => .silent
  | .failure defect => .failure defect
  | .found other =>
    match objection hint side.property.name other.relation with
    | some ambiguity =>
      .failure (.conflict side.property other.property ambiguity)
    | none =>
      let owner := hint = .inversedBy
      { decisions := [
          settle side owner none other.place,
          settle other (!owner) (some side.property.name) side.place] }

/-- What comes of pairing a relation with its target. -/
def Scope.verdict (scope : Scope) (side : Side) (target : Entity) : Outcome :=
  match side.relation.sides.mappedBy, side.relation.sides.inversedBy with
  | some name, _ => scope.hintedVerdict side target .mappedBy name
  | none, some name => scope.hintedVerdict side target .inversedBy name
  | none, none =>
    match side.relation.kind with
    | .manyToOne | .oneToMany => .silent
    | .oneToOne | .manyToMany =>
      scope.decideUnhinted side target (scope.rivals side target)

theorem mappedBy_of_isUnhinted {sides : Sides}
    (unhinted : sides.isUnhinted = true) :
    sides.mappedBy = none ∧ sides.inversedBy = none := by
  simpa [Sides.isUnhinted] using unhinted

/-- Without hints, one-to-one and many-to-many sides look for another side. -/
theorem Scope.verdict_of_unhinted {scope : Scope} {side : Side}
    (unhinted : side.relation.sides.isUnhinted = true)
    (kind : side.relation.kind = .oneToOne ∨ side.relation.kind = .manyToMany)
    (target : Entity) :
    scope.verdict side target =
      scope.decideUnhinted side target (scope.rivals side target) := by
  rcases mappedBy_of_isUnhinted unhinted with ⟨unmapped, uninverted⟩
  rw [Scope.verdict, unmapped, uninverted]
  rcases kind with kind | kind <;> rw [kind]

namespace Scope.Coherent

variable {scope : Scope} {own : Place → Option Property}
  {start : Tally} {findings : Findings} {side : Side} {target : Entity}

theorem targetOf_reads (coherent : scope.Coherent own)
    (faithful : findings.Faithful scope.directory (references own) start)
    {place : Place} {property : Property} {relation : Relation}
    (held : scope.entities.property? place = some property)
    (related : property.relation? = some relation) :
    scope.Reads own start (scope.targetOf property relation findings)
      (scope.aim property relation) := by
  unfold Scope.targetOf Scope.aim
  split
  · exact ⟨rfl, faithful⟩
  · rcases coherent.force_reads faithful held related with ⟨answer, later⟩
    exact ⟨congrArg Except.toOption answer, later⟩

theorem follow_reads (coherent : scope.Coherent own)
    (faithful : findings.Faithful scope.directory (references own) start)
    (member : target ∈ scope.entities.items) (side : Side) (hint : Hint)
    (name : String) :
    scope.Reads own start (scope.follow side target hint name findings)
      (scope.reply side target hint name) := by
  unfold Scope.follow Scope.reply
  cases found : target.property? name with
  | none =>
      dsimp only
      split
      · exact ⟨rfl, faithful⟩
      · exact ⟨rfl, faithful⟩
  | some other =>
      dsimp only
      cases related : other.relation? with
      | none => exact ⟨rfl, faithful⟩
      | some relation =>
          dsimp only
          split
          · have held := Entities.property?_of_mem member
              (Table.find?_eq_some found).1
            have read := coherent.targetOf_reads faithful held related
            rcases answer : scope.targetOf other relation findings with
              ⟨aimed, later⟩
            rw [answer] at read
            rcases read with ⟨rfl, faithful⟩
            cases scope.aim other relation with
            | none => exact ⟨rfl, faithful⟩
            | some entity =>
                dsimp only
                split
                · exact ⟨rfl, faithful⟩
                · exact ⟨rfl, faithful⟩
          · exact ⟨rfl, faithful⟩

theorem pairHinted_reads (coherent : scope.Coherent own)
    (faithful : findings.Faithful scope.directory (references own) start)
    (member : target ∈ scope.entities.items) (hint : Hint) (name : String) :
    scope.Reads own start (scope.pairHinted side target hint name findings)
      (scope.hintedVerdict side target hint name) := by
  have read := coherent.follow_reads faithful member side hint name
  unfold Scope.pairHinted Scope.hintedVerdict
  rcases answer : scope.follow side target hint name findings with
    ⟨reply, later⟩
  rw [answer] at read
  rcases read with ⟨rfl, faithful⟩
  cases scope.reply side target hint name with
  | silent => exact ⟨rfl, faithful⟩
  | failure defect => exact ⟨rfl, faithful⟩
  | found other =>
      dsimp only
      cases objection hint side.property.name other.relation with
      | none => exact ⟨rfl, faithful⟩
      | some ambiguity => exact ⟨rfl, faithful⟩

theorem candidates_reads (coherent : scope.Coherent own)
    (faithful : findings.Faithful scope.directory (references own) start)
    (member : target ∈ scope.entities.items) (side : Side)
    (properties : List Property)
    (holds : ∀ other ∈ properties, other ∈ target.properties.items) :
    scope.Reads own start (scope.candidates side target properties findings)
      (properties.filterMap (scope.rival? side target)) := by
  induction properties generalizing findings with
  | nil => exact ⟨rfl, faithful⟩
  | cons other rest induction =>
      have later := fun other inside => holds other (List.mem_cons_of_mem _ inside)
      rw [Scope.candidates, List.filterMap_cons, Scope.rival?]
      cases related : other.relation? with
      | none => exact induction faithful later
      | some relation =>
          rw [Option.bind_some]
          dsimp only
          by_cases alike : relation.kind = side.relation.kind ∧
              target.place other ≠ side.place
          · have held := Entities.property?_of_mem member
              (holds other (List.mem_cons_self ..))
            have read := coherent.targetOf_reads faithful held related
            rcases answer : scope.targetOf other relation findings with
              ⟨aimed, asked⟩
            rw [answer] at read
            rcases read with ⟨rfl, faithful⟩
            have rest_read := induction faithful later
            rcases answers : scope.candidates side target rest asked with
              ⟨sides, others⟩
            rw [answers] at rest_read
            rcases rest_read with ⟨rfl, faithful⟩
            rw [if_pos alike]
            by_cases pointsBack : (scope.aim other relation).any
                (scope.entities.isRelated · side.entity.name) = true
            · rw [if_pos pointsBack, if_pos ⟨alike.1, alike.2, pointsBack⟩]
              exact ⟨rfl, faithful⟩
            · rw [if_neg pointsBack,
                if_neg fun both => pointsBack both.2.2]
              exact ⟨rfl, faithful⟩
          · rw [if_neg alike, if_neg fun both => alike ⟨both.1, both.2.1⟩]
            exact induction faithful later

/-- Pairing a relation gives its verdict, whatever was found out before. -/
theorem pair_reads (coherent : scope.Coherent own)
    (faithful : findings.Faithful scope.directory (references own) start)
    (member : target ∈ scope.entities.items) :
    scope.Reads own start (scope.pair side target findings)
      (scope.verdict side target) := by
  unfold Scope.pair Scope.verdict
  cases side.relation.sides.mappedBy with
  | some name => exact coherent.pairHinted_reads faithful member _ name
  | none =>
      cases side.relation.sides.inversedBy with
      | some name => exact coherent.pairHinted_reads faithful member _ name
      | none =>
          have read := coherent.candidates_reads faithful member side
            target.properties.items fun _ holds => holds
          dsimp only
          rcases answer : scope.candidates side target target.properties.items
            findings with ⟨sides, later⟩
          rw [answer] at read
          rcases read with ⟨rfl, laterFaithful⟩
          cases side.relation.kind with
          | manyToOne | oneToMany => exact ⟨rfl, faithful⟩
          | oneToOne | manyToMany => exact ⟨rfl, laterFaithful⟩

end Scope.Coherent

end Pairing

end EntityCatalog
