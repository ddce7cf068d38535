import EntityCatalog.Proofs.Entity.Respelled
import EntityCatalog.Proofs.Relation.Cleared

/-!
# What pairing looks up

These statements hold for all sources, steady or not.  Pairing learns of
references only by forcing the targets of relations that entities hold.  So it
does not matter how these references are spelled or where they are looked up:
whatever relation between findings forcing keeps, with the same answers
(`Scope.Tracks`), pairing keeps, with the same outcome (`Scope.run_respell`).
In particular, what forcing keeps of findings, pairing keeps
(`Scope.kept_run`).
-/

namespace EntityCatalog

/-! ## Related findings -/

namespace Findings

/-- The same result but for a change, with findings that are related. -/
def AgreeBy {Result Other : Type} (change : Result → Other)
    (alike : Findings → Findings → Prop) (left : Result × Findings)
    (right : Other × Findings) : Prop :=
  right.1 = change left.1 ∧ alike left.2 right.2

/-- The same result, with findings that are related. -/
def Agree {Result : Type} (alike : Findings → Findings → Prop)
    (left right : Result × Findings) : Prop :=
  AgreeBy id alike left right

variable {Result Other : Type} {alike : Findings → Findings → Prop}

theorem AgreeBy.cases {change : Result → Other} {left : Result × Findings}
    {right : Other × Findings} (agree : AgreeBy change alike left right) :
    ∃ result after later, left = (result, after) ∧
      right = (change result, later) ∧ alike after later := by
  rcases left with ⟨result, after⟩
  rcases right with ⟨other, later⟩
  rcases agree with ⟨same, related⟩
  dsimp only at same
  exact ⟨result, after, later, rfl, same ▸ rfl, related⟩

theorem Agree.cases {left right : Result × Findings}
    (agree : Agree alike left right) :
    ∃ result after later, left = (result, after) ∧ right = (result, later) ∧
      alike after later :=
  AgreeBy.cases agree

end Findings

namespace Pairing

variable (spell : EntityRef → EntityRef)

/-! ## Sides spelled anew -/

/-- The side with all references spelled anew. -/
def Side.respell (side : Side) : Side :=
  ⟨side.entity.respell spell, side.property.respell spell,
    side.relation.respell spell⟩

section

variable (side : Side)

@[simp]
theorem Side.place_respell : (side.respell spell).place = side.place :=
  rfl

@[simp]
theorem Side.property_respell :
    (side.respell spell).property = side.property.respell spell :=
  rfl

end

/-- What following a hint leads to, with all references spelled anew. -/
def Hinted.respell : Hinted → Hinted
  | .found side => .found (side.respell spell)
  | other => other

theorem sidesOf_respell (entity : Entity) :
    sidesOf (entity.respell spell) =
      (sidesOf entity).map (Side.respell spell) := by
  unfold sidesOf
  change (entity.properties.items.map (Property.respell spell)).filterMap _ = _
  rw [List.filterMap_map, List.map_filterMap]
  refine List.filterMap_congr fun property _ => ?_
  rw [Function.comp_apply, Property.relation?_respell]
  cases property.relation? <;> rfl

namespace Scope

/-- What pairing looks at, with all references spelled anew and looked up
elsewhere. -/
def respell (directory : Directory) (scope : Scope) : Scope :=
  ⟨directory, scope.config, scope.entities.respell spell, scope.invalid⟩

variable (directory : Directory) (scope : Scope)

theorem isRelated_respell :
    (scope.respell spell directory).entities.isRelated =
      scope.entities.isRelated := by
  funext left right
  have within := (scope.entities.alike_respell spell).isWithin
  simp only [Entities.isRelated, respell, within]

theorem anyWithin_respell :
    (scope.respell spell directory).entities.anyWithin =
      scope.entities.anyWithin := by
  funext places place
  have ancestry := (scope.entities.alike_respell spell).ancestry
  simp only [Entities.anyWithin, respell, ancestry]

theorem sides_respell :
    (scope.respell spell directory).sides =
      scope.sides.map (Side.respell spell) := by
  have ordered : (scope.respell spell directory).entities.basesFirst =
      scope.entities.basesFirst.map (·.respell spell) :=
    scope.entities.basesFirst_retouch (.respelling spell)
  rw [sides, ordered, List.flatMap_map, sides, List.map_flatMap]
  exact List.flatMap_congr fun entity _ => sidesOf_respell spell entity

theorem pairedByBase_respell (side : Side) :
    (scope.respell spell directory).pairedByBase (side.respell spell) =
      scope.pairedByBase side := by
  have base : (side.respell spell).entity.base.bind
      (scope.respell spell directory).entities.find? =
        (side.entity.base.bind scope.entities.find?).map (·.respell spell) := by
    change side.entity.base.bind _ = _
    cases side.entity.base with
    | none => rfl
    | some name => exact scope.entities.find?_respell spell name
  unfold pairedByBase
  rw [base]
  cases side.entity.base.bind scope.entities.find? with
  | none => rfl
  | some base =>
      have held : (base.respell spell).property?
          (side.respell spell).property.name =
            (base.property? side.property.name).map (·.respell spell) :=
        base.property?_respell spell side.property.name
      dsimp only [Option.map_some]
      rw [held]
      cases base.property? side.property.name <;> rfl

/-! ## Decisions -/

theorem synthesis_respell (side : Side) (target : Entity) :
    (scope.respell spell directory).synthesis (side.respell spell)
        (target.respell spell) = scope.synthesis side target := by
  have contained : ∀ name, (target.respell spell).properties.contains name =
      target.properties.contains name := by
    intro name
    rw [Table.contains_eq, Table.contains_eq]
    exact (congrArg Option.isSome
      (target.property?_respell spell name)).trans Option.isSome_map
  unfold synthesis
  dsimp only
  rw [contained]
  rfl

theorem decideAlone_respell (side : Side) (target : Entity) :
    (scope.respell spell directory).decideAlone (side.respell spell)
        (target.respell spell) = scope.decideAlone side target := by
  unfold decideAlone
  rw [synthesis_respell]
  rfl

theorem decideUnhinted_respell (side : Side) (target : Entity)
    (candidates : List Side) :
    (scope.respell spell directory).decideUnhinted (side.respell spell)
        (target.respell spell) (candidates.map (Side.respell spell)) =
      scope.decideUnhinted side target candidates := by
  have answered : ((candidates.map (Side.respell spell)).findSome?
      fun candidate =>
        (candidate.answer (side.respell spell).property.name).map
          fun owner => (candidate, owner)) =
      (candidates.findSome? fun candidate =>
        (candidate.answer side.property.name).map
          fun owner => (candidate, owner)).map
            fun answer => (answer.1.respell spell, answer.2) := by
    rw [List.findSome?_map, List.map_findSome?]
    congr 1
    funext candidate
    simp only [Function.comp_apply, Option.map_map]
    rfl
  have free : (candidates.map (Side.respell spell)).filter
      (·.relation.sides.isUnhinted) =
        (candidates.filter (·.relation.sides.isUnhinted)).map
          (Side.respell spell) := by
    rw [List.filter_map]
    rfl
  unfold decideUnhinted
  dsimp only
  rw [answered, free]
  cases candidates.findSome? fun candidate =>
      (candidate.answer side.property.name).map
        fun owner => (candidate, owner) with
  | some answer => rfl
  | none =>
      dsimp only [Option.map_none]
      cases candidates.filter (·.relation.sides.isUnhinted) with
      | nil => exact decideAlone_respell spell directory scope side target
      | cons other rest => cases rest <;> rfl

end Scope

/-! ## Findings that go on alike -/

/-- Forcing the target of a relation that an entity holds, spelled one way or
the other, gives the same answer and leaves related findings. -/
def Scope.Tracks (scope : Scope) (directory : Directory)
    (alike : Findings → Findings → Prop) : Prop :=
  ∀ {place : Place} {property : Property} {relation : Relation},
    scope.entities.property? place = some property →
    property.relation? = some relation →
    ∀ left right, alike left right →
      Findings.Agree alike
        (left.force scope.directory property.origin relation.target)
        (right.force directory property.origin
          (relation.target.respell spell))

/-- Pairings that have come to the same, with related findings. -/
structure Progress.Alike (alike : Findings → Findings → Prop)
    (left right : Progress) : Prop where
  findings : alike left.findings right.findings
  rejected : left.rejected = right.rejected
  missed : left.missed = right.missed
  decisions : left.decisions = right.decisions
  defects : left.defects = right.defects

namespace Scope

variable {spell} {scope : Scope} {directory : Directory}
  {alike : Findings → Findings → Prop}

section

variable (tracks : scope.Tracks spell directory alike)
  {left right : Findings} (same : alike left right)

include tracks same

theorem agree_targetOf {place : Place} {property : Property}
    {relation : Relation}
    (held : scope.entities.property? place = some property)
    (related : property.relation? = some relation) :
    Findings.Agree alike (scope.targetOf property relation left)
      ((scope.respell spell directory).targetOf (property.respell spell)
        (relation.respell spell) right) := by
  have invalid : (property.respell spell).origin ∈
      (scope.respell spell directory).invalid ↔
        property.origin ∈ scope.invalid :=
    Iff.rfl
  unfold targetOf
  by_cases dropped : property.origin ∈ scope.invalid
  · rw [if_pos dropped, if_pos (invalid.mpr dropped)]
    exact ⟨rfl, same⟩
  · rw [if_neg dropped, if_neg (dropped ∘ invalid.mp)]
    rcases (tracks held related left right same).cases with
      ⟨answer, after, later, first, second, linked⟩
    have there : right.force (scope.respell spell directory).directory
        (property.respell spell).origin (relation.respell spell).target =
          (answer, later) :=
      second
    rw [first, there]
    exact ⟨rfl, linked⟩

theorem agree_follow {side : Side} {target : Entity}
    (registered : scope.entities.find? target.name = some target)
    (hint : Hint) (name : String) :
    Findings.AgreeBy (Hinted.respell spell) alike
      (scope.follow side target hint name left)
      ((scope.respell spell directory).follow (side.respell spell)
        (target.respell spell) hint name right) := by
  unfold follow
  rw [Entity.property?_respell, anyWithin_respell, isRelated_respell]
  cases found : target.property? name with
  | none =>
      dsimp only [Option.map_none]
      change Findings.AgreeBy _ alike (if _ then _ else _)
        (if scope.entities.anyWithin scope.invalid ⟨target.name, name⟩ then _
          else _)
      split <;> exact ⟨rfl, same⟩
  | some other =>
      have held : scope.entities.property? ⟨target.name, name⟩ = some other := by
        rw [Entities.property?, registered]
        exact found
      have mismatch : Defect.kindMismatch (side.respell spell).place
          (side.respell spell).property.kind
          ((target.respell spell).place (other.respell spell))
          (other.respell spell).kind =
            .kindMismatch side.place side.property.kind (target.place other)
              other.kind := by
        simp only [Side.place_respell, Side.property_respell,
          Property.kind_respell, Entity.place_respell]
      dsimp only [Option.map_some]
      rw [mismatch, Property.relation?_respell]
      cases related : other.relation? with
      | none => exact ⟨rfl, same⟩
      | some relation =>
          dsimp only [Option.map_some]
          change Findings.AgreeBy _ alike (if _ then _ else _)
            (if relation.kind = side.relation.kind.reciprocal then _ else _)
          split
          · rcases (agree_targetOf tracks same held related).cases with
              ⟨back, after, later, first, second, linked⟩
            rw [first, second]
            cases back with
            | none => exact ⟨rfl, linked⟩
            | some back =>
                change Findings.AgreeBy _ alike (if _ then _ else _)
                  (if scope.entities.isRelated back side.entity.name = true
                    then _ else _)
                split <;> exact ⟨rfl, linked⟩
          · exact ⟨rfl, same⟩

theorem agree_pairHinted {side : Side} {target : Entity}
    (registered : scope.entities.find? target.name = some target)
    (hint : Hint) (name : String) :
    Findings.Agree alike (scope.pairHinted side target hint name left)
      ((scope.respell spell directory).pairHinted (side.respell spell)
        (target.respell spell) hint name right) := by
  rcases (@agree_follow _ _ _ _ tracks _ _ same side _ registered hint
    name).cases with ⟨hinted, after, later, first, second, linked⟩
  unfold pairHinted
  rw [first, second]
  cases hinted with
  | silent | failure => exact ⟨rfl, linked⟩
  | found other =>
      have objected : objection hint (side.respell spell).property.name
          (other.respell spell).relation =
            objection hint side.property.name other.relation := by
        cases hint <;> rfl
      dsimp only [Hinted.respell]
      rw [objected]
      cases objection hint side.property.name other.relation <;>
        exact ⟨rfl, linked⟩

theorem agree_candidates {side : Side} {target : Entity}
    {properties : List Property}
    (holds : ∀ other ∈ properties,
      scope.entities.property? (target.place other) = some other) :
    Findings.AgreeBy (List.map (Side.respell spell)) alike
      (scope.candidates side target properties left)
      ((scope.respell spell directory).candidates (side.respell spell)
        (target.respell spell) (properties.map (Property.respell spell))
        right) := by
  induction properties generalizing left right with
  | nil => exact ⟨rfl, same⟩
  | cons other rest induction =>
      have later : ∀ further ∈ rest,
          scope.entities.property? (target.place further) = some further :=
        fun further inside => holds further (List.mem_cons_of_mem _ inside)
      rw [candidates, List.map_cons, candidates, isRelated_respell,
        Property.relation?_respell]
      cases related : other.relation? with
      | none => exact induction same later
      | some relation =>
          dsimp only [Option.map_some]
          change Findings.AgreeBy _ alike (if _ then _ else _)
            (if relation.kind = side.relation.kind ∧
              target.place other ≠ side.place then _ else _)
          split
          · rcases (agree_targetOf tracks same
              (holds other (List.mem_cons_self ..)) related).cases with
              ⟨found, after, further, first, second, linked⟩
            rcases (induction linked later).cases with
              ⟨sides, last, final, third, fourth, connected⟩
            simp only [first, second, third, fourth]
            change Findings.AgreeBy _ alike (if _ then _ else _)
              (if found.any (scope.entities.isRelated · side.entity.name) = true
                then _ else _)
            split <;> exact ⟨rfl, connected⟩
          · exact induction same later

/-- Related findings lead a relation to the same outcome. -/
theorem agree_pair {side : Side} {target : Entity}
    (registered : scope.entities.find? target.name = some target) :
    Findings.Agree alike (scope.pair side target left)
      ((scope.respell spell directory).pair (side.respell spell)
        (target.respell spell) right) := by
  have holds : ∀ other ∈ target.properties.items,
      scope.entities.property? (target.place other) = some other :=
    fun other inside => Entities.property?_of_mem
      (Table.find?_eq_some registered).1 inside
  rcases (@agree_candidates _ _ _ _ tracks _ _ same side _ _ holds).cases with
    ⟨sides, after, later, first, second, linked⟩
  have chosen : (scope.respell spell directory).candidates (side.respell spell)
      (target.respell spell) (target.respell spell).properties.items right =
        (sides.map (Side.respell spell), later) :=
    second
  unfold pair
  rw [first, chosen]
  dsimp only
  have sides : (side.respell spell).relation.sides = side.relation.sides :=
    rfl
  have kind : (side.respell spell).relation.kind = side.relation.kind :=
    rfl
  rw [decideUnhinted_respell, sides, kind]
  cases side.relation.sides.mappedBy with
  | some name => exact agree_pairHinted tracks same registered _ _
  | none =>
      cases side.relation.sides.inversedBy with
      | some name => exact agree_pairHinted tracks same registered _ _
      | none =>
          cases side.relation.kind with
          | manyToOne | oneToMany => exact ⟨rfl, same⟩
          | oneToOne | manyToMany => exact ⟨rfl, linked⟩

end

section

variable (tracks : scope.Tracks spell directory alike)

include tracks

theorem agree_step {left right : Progress} (same : left.Alike alike right)
    {side : Side} (held : side.Held scope.entities) :
    (scope.step left side).Alike alike
      ((scope.respell spell directory).step right (side.respell spell)) := by
  -- Whether a side is skipped depends on what was rejected, not on findings.
  have skipped : (scope.respell spell directory).skips right
      (side.respell spell) = scope.skips left side := by
    rw [skips, skips, ← same.rejected, pairedByBase_respell]
    rfl
  unfold step
  rw [skipped]
  split
  · exact same
  · rcases (tracks held.property held.relation _ _ same.findings).cases with
      ⟨answer, after, later, first, second, related⟩
    have there : right.findings.force (scope.respell spell directory).directory
        (side.respell spell).property.origin
        (side.respell spell).relation.target = (answer, later) :=
      second
    rw [first, there]
    cases answer with
    | error miss =>
        dsimp only [Progress.miss]
        refine ⟨related, ?_, ?_, same.decisions, ?_⟩
        · rw [same.rejected]
          rfl
        · rw [same.missed]
          rfl
        · rw [same.defects]
          rfl
    | ok name =>
        dsimp only
        have found : (scope.respell spell directory).entities.find? name =
            (scope.entities.find? name).map (·.respell spell) :=
          scope.entities.find?_respell spell name
        rw [found]
        cases known : scope.entities.find? name with
        | none => exact { same with findings := related }
        | some target =>
            rcases (Table.find?_eq_some known).2 with rfl
            rcases (@agree_pair _ _ _ _ tracks _ _ related side target
              known).cases with ⟨outcome, last, final, third, fourth, linked⟩
            dsimp only [Option.map_some]
            rw [third, fourth]
            dsimp only [Progress.take]
            refine ⟨linked, ?_, same.missed, ?_, ?_⟩
            · rw [same.rejected]
              rfl
            · rw [same.decisions]
            · rw [same.defects]

/-- Pairing all relations from related findings, spelled one way or the other,
comes to the same and leaves related findings. -/
theorem run_respell {left right : Findings} (same : alike left right) :
    (scope.run left).Alike alike
      ((scope.respell spell directory).run right) := by
  have start : Progress.Alike alike { findings := left }
      { findings := right } :=
    ⟨same, rfl, rfl, rfl, rfl⟩
  have held : ∀ side ∈ scope.sides, side.Held scope.entities :=
    fun side member => mem_sides_iff.mp member
  change (scope.sides.foldl scope.step { findings := left }).Alike alike
    ((scope.respell spell directory).sides.foldl
      (scope.respell spell directory).step { findings := right })
  rw [sides_respell]
  generalize scope.sides = sides at held ⊢
  generalize ({ findings := left } : Progress) = first at start ⊢
  generalize ({ findings := right } : Progress) = second at start ⊢
  induction sides generalizing first second with
  | nil => exact start
  | cons side rest induction =>
      exact induction
        (fun other later => held other (List.mem_cons_of_mem _ later)) _ _
        (agree_step tracks start (held side (List.mem_cons_self ..)))

end

/-! ## What pairing keeps -/

section

variable {kept : Findings → Prop}
  (forces : ∀ {place : Place} {property : Property} {relation : Relation},
    scope.entities.property? place = some property →
    property.relation? = some relation → ∀ findings, kept findings →
      kept (findings.force scope.directory property.origin relation.target).2)

include forces

/-- Equal findings that are kept are related, and forcing keeps both. -/
theorem tracks_of_forces :
    scope.Tracks id scope.directory fun left right =>
      left = right ∧ kept left := by
  rintro place property relation held related findings _ ⟨rfl, holds⟩
  exact ⟨rfl, rfl, forces held related findings holds⟩

/-- What forcing the targets of held relations keeps of findings, pairing one
relation keeps. -/
theorem kept_pair {side : Side} {target : Entity}
    (registered : scope.entities.find? target.name = some target)
    {findings : Findings} (before : kept findings) :
    kept (scope.pair side target findings).2 :=
  (agree_pair (tracks_of_forces forces) ⟨rfl, before⟩ registered).2.2

/-- What forcing the targets of held relations keeps of findings, pairing
keeps. -/
theorem kept_run {findings : Findings} (before : kept findings) :
    kept (scope.run findings).findings :=
  (run_respell (tracks_of_forces forces) ⟨rfl, before⟩).findings.2

end

end Scope

end Pairing

end EntityCatalog
