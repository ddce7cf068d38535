import EntityCatalog.Proofs.Graph.Ownership
import EntityCatalog.Proofs.Relation.Facing
import EntityCatalog.Proofs.Resolution.Baseless

/-!
# Reciprocals of reciprocals

Without bases a relation that has an other side is the other side of its other
side (`reciprocal?_involutive`).  Both places name each other
(`Graph.Meets`), whether the two relations were declared or one of them was
added for the other, and a property names one place at most; so no two
relations share an other side.
-/

namespace EntityCatalog

open Pairing Resolution

/-- A property points at an entity and names one of its properties. -/
def Property.Names (property : Property) (place : Place) : Prop :=
  property.targetName? = some place.entity ∧
    property.reciprocalName? = some place.property

theorem Property.Names.unique {property : Property} {left right : Place}
    (first : property.Names left) (second : property.Names right) :
    left = right :=
  congrArg₂ Place.mk (Option.some.inj (first.1.symm.trans second.1))
    (Option.some.inj (first.2.symm.trans second.2))

/-- Two properties of a graph name each other, and one of them owns. -/
structure Graph.Meets (graph : Graph) (place : Place) (property : Property)
    (across : Place) (other : Property) : Prop where
  found : graph.property? place = some property
  foundOther : graph.property? across = some other
  names : property.Names across
  namesOther : other.Names place
  owner : property.owner = !other.owner

namespace Graph.Meets

variable {graph : Graph} {place across : Place} {property other : Property}

theorem symm (meets : graph.Meets place property across other) :
    graph.Meets across other place property where
  found := meets.foundOther
  foundOther := meets.found
  names := meets.namesOther
  namesOther := meets.names
  owner := by rw [meets.owner, Bool.not_not]

/-- Of two properties that name each other, one is the other side of the
other. -/
theorem exists_reciprocal (meets : graph.Meets place property across other) :
    ∃ target, graph.entity? across.entity = some target ∧
      target.place other = across ∧
      graph.reciprocal? place = some (target, other) := by
  rcases Option.bind_eq_some_iff.mp meets.foundOther with
    ⟨target, known, holds⟩
  refine ⟨target, known, ?_, ?_⟩
  · exact congrArg₂ Place.mk (Table.find?_eq_some known).2
      (Table.find?_eq_some holds).2
  · have aims : graph.target? property = some target := by
      rw [Graph.target?, meets.names.1]
      exact known
    simp [Graph.reciprocal?, meets.found, meets.names.2, aims, holds]

end Graph.Meets

/-! ## What resolutions settle -/

/-- Where no schema has a base, no entity extends another one. -/
theorem Resolution.Setting.Related.flat {setting : Setting}
    (related : setting.Related)
    (baseless : setting.Baseless) : setting.scope.entities.Flat := by
  intro entity
  rw [show setting.scope.entities.base? = _ from
    (related.linkable.forest rfl).base?_ofSchemas]
  exact baseless.base?_eq_none entity

namespace Graph.Shows

variable {graph : Graph} {setting : Setting} {side : Side}
  {property : Property} {sides : Sides} {target : Entity}

theorem targetName? (shows : graph.Shows setting side property sides target) :
    property.targetName? = some target.name := by
  rw [Property.targetName?, Property.target?_of_relation? shows.related]
  rfl

theorem reciprocalName?
    (shows : graph.Shows setting side property sides target) :
    property.reciprocalName? = sides.reciprocalName? := by
  rw [Property.reciprocalName?, shows.related]
  rfl

end Graph.Shows

namespace Graph.Resolved

variable {graph : Graph} {setting : Setting} {place : Place}
  {property : Property}

/-- Sides that face each other meet in the graph. -/
theorem meets_of_faces (resolved : graph.Resolved setting)
    {side other : Side} {owner : Bool}
    (faces : setting.scope.Faces side owner other)
    (found : graph.property? side.place = some property) :
    ∃ answer, graph.Meets side.place property other.place answer := by
  rcases resolved.exists_shown faces.held with ⟨_, sides, target, shows⟩
  rcases resolved.exists_shown faces.heldOther with
    ⟨answer, otherSides, back, showsOther⟩
  cases found.symm.trans shows.found
  rcases faces.settles sides shows.agreed with ⟨owns, named⟩
  rcases faces.settlesOther otherSides showsOther.agreed with
    ⟨ownsOther, namedOther⟩
  refine ⟨answer, found, showsOther.found, ⟨?_, ?_⟩, ⟨?_, ?_⟩, ?_⟩
  · rw [shows.targetName?]
    exact congrArg some (Except.ok.inj (shows.means.symm.trans faces.forward))
  · rw [shows.reciprocalName?, named]
    rfl
  · rw [showsOther.targetName?]
    exact congrArg some
      (Except.ok.inj (showsOther.means.symm.trans faces.backward))
  · rw [showsOther.reciprocalName?, namedOther]
    rfl
  · rw [shows.owner, showsOther.owner, owns, ownsOther, Bool.not_not]

/-- A relation for which an inverse is added meets the inverse. -/
theorem meets_of_added (resolved : graph.Resolved setting)
    {synthesis : Synthesis}
    (member : synthesis ∈ syntheses setting.scope.decisions) :
    ∃ property added,
      graph.Meets synthesis.source property synthesis.place added := by
  rcases resolved.sound.cleared.source_of_added member with
    ⟨side, target, held, means, -, -, -, rfl, given⟩
  rcases resolved.exists_added member with ⟨added, foundAdded, outline⟩
  rcases resolved.exists_shown held with ⟨property, sides, aimed, shows⟩
  have owns := shows.agreed.owner _ given
  have inverted := (shows.agreed.inversedBy _).mpr (Or.inr ⟨_, given, rfl⟩)
  have unmapped :=
    (resolved.sound.cleared.settled held shows.agreed).owner.mp owns
  have aims : aimed.name = target.name :=
    Except.ok.inj (shows.means.symm.trans means)
  have like : ∀ {Result : Type} (read : Property → Result),
      (∀ one : Property, read one.outline = read one) →
        read added = read (Synthesis.property _) :=
    fun read alike => (alike added).symm.trans (congrArg read outline)
  have related := like Property.relation? Property.relation?_outline
  refine ⟨property, added, shows.found, foundAdded, ⟨?_, ?_⟩, ⟨?_, ?_⟩, ?_⟩
  · rw [shows.targetName?, aims]
    rfl
  · rw [shows.reciprocalName?, Sides.reciprocalName?, unmapped, inverted]
    rfl
  · rw [Property.targetName?, like Property.target? Property.target?_outline]
    rfl
  · rw [Property.reciprocalName?, related]
    rfl
  · rw [shows.owner, owns, Property.owner, related]
    rfl

/-- Without bases a relation that names another property meets it. -/
theorem exists_meeting (resolved : graph.Resolved setting)
    (flat : setting.scope.entities.Flat)
    (found : graph.property? place = some property)
    (named : property.reciprocalName?.isSome = true) :
    ∃ across other, graph.Meets place property across other := by
  rcases Option.isSome_iff_exists.mp named with ⟨name, here⟩
  rcases Option.bind_eq_some_iff.mp here with ⟨relation, related, named⟩
  cases resolved.resolves found related with
  | held side sides target held here outline settled agreed means registered =>
      subst here settled
      rcases resolved.sound.cleared.faces_of_reciprocalName? flat held agreed
        named with
        ⟨other, faces, -⟩ | ⟨synthesis, member, -, -, source, -⟩
      · exact ⟨other.place, resolved.meets_of_faces faces found⟩
      · rcases resolved.meets_of_added member with ⟨first, added, meets⟩
        rw [source] at meets
        cases found.symm.trans meets.found
        exact ⟨synthesis.place, added, meets⟩
  | added synthesis absent member covers outline settled =>
      rcases resolved.meets_of_added member with ⟨first, added, meets⟩
      rcases Synthesis.covers_iff.mp covers with ⟨name_eq, within⟩
      have at_place : synthesis.place = place :=
        congrArg₂ Place.mk (flat.eq_of_isWithin within).symm name_eq
      rw [at_place] at meets
      cases found.symm.trans meets.foundOther
      exact ⟨synthesis.source, first, meets.symm⟩

end Graph.Resolved

/-! ## A circle of friends -/

/-- Persons who are related to each other in all ways: one relation has its
inverse declared, another one gets it, and both sides of a third one are
told apart by what they declare of ownership. -/
def circle : Registry :=
  (Registry.registerAll {} [
    { name := "Person"
      properties := .ofList [
        ("id", { Options.typed "integer" with primary := true }),
        ("mentor", .manyToOne (.name "Person")),
        ("students", .oneToMany (.schema "Person") "mentor"),
        ("friends", .manyToMany (.deferred 0)),
        ("leader", { Options.oneToOne (.name "Person") with
          owner := some true }),
        ("follower", { Options.oneToOne (.name "Person") with
          owner := some false })] }]).1

/-- What the deferred reference of the circle answers. -/
def circleSources : Sources where
  reference _ _ := .name "Person"
  mapping _ _ := []
  hook _ _ := .null

/-- The graph of the circle. -/
def circleGraph : Graph :=
  match (circle.finalize circleSources .empty).outcome with
  | .ok graph => graph
  | .error _ => default

theorem steady_circleSources : circleSources.Steady :=
  fun _ _ => rfl

theorem reachable_circle : Registry.Reachable circleSources circle :=
  (Registry.Reachable.new {}).registerAll _

theorem finalize_circle :
    (circle.finalize circleSources .empty).outcome = .ok circleGraph :=
  rfl

/-! ## Frozen registries -/

variable {sources : Sources} {registry : Registry} {tally : Tally}
  {graph : Graph} {place : Place} {property : Property}

/-- In the graph of a frozen registry without bases every relation that names
an other side has one, whose other side is the relation again; one of the two
owns, and no other relation has the same other side. -/
theorem reciprocal?_involutive (steady : sources.Steady)
    (reachable : registry.Reachable sources)
    (frozen : (registry.finalize sources tally).outcome = .ok graph)
    (baseless : ∀ schema ∈ registry.schemas.items, schema.base = none)
    (held : graph.property? place = some property)
    (named : property.reciprocalName?.isSome = true) :
    ∃ entity target other, graph.entity? place.entity = some entity ∧
      graph.reciprocal? place = some (target, other) ∧
      graph.reciprocal? (target.place other) = some (entity, property) ∧
      property.owner = !other.owner ∧
      ∀ rival, graph.reciprocal? rival = some (target, other) →
        rival = place := by
  have resolved := reachable.resolved steady frozen
  have flat := resolved.sound.flat baseless
  rcases resolved.exists_meeting flat held named with ⟨across, other, meets⟩
  rcases meets.exists_reciprocal with ⟨target, -, here, forth⟩
  rcases meets.symm.exists_reciprocal with ⟨entity, known, -, back⟩
  refine ⟨entity, target, other, known, forth, here ▸ back, meets.owner, ?_⟩
  intro rival shares
  -- The rival meets what it has as its other side, and that names one place.
  have facts := shares
  simp only [Graph.reciprocal?, Option.bind_eq_bind, Option.pure_def,
    Option.bind_eq_some_iff] at facts
  rcases facts with ⟨second, heldSecond, name, namedSecond, -⟩
  rcases resolved.exists_meeting flat heldSecond
    (Option.isSome_iff_exists.mpr ⟨name, namedSecond⟩) with
    ⟨place', other', meetsSecond⟩
  rcases meetsSecond.exists_reciprocal with ⟨target', -, -, forth'⟩
  cases shares.symm.trans forth'
  exact meetsSecond.namesOther.unique meets.namesOther

theorem reciprocal?_involutive_circle :
    circleSources.Steady ∧ Registry.Reachable circleSources circle ∧
      (circle.finalize circleSources .empty).outcome = .ok circleGraph ∧
      (∀ schema ∈ circle.schemas.items, schema.base = none) ∧
      ∀ name ∈ ["mentor", "students", "friends", "person_friends", "leader",
          "follower"],
        ∃ property, circleGraph.property? ⟨"Person", name⟩ = some property ∧
          ∃ entity target other, circleGraph.entity? "Person" = some entity ∧
            circleGraph.reciprocal? ⟨"Person", name⟩ = some (target, other) ∧
            circleGraph.reciprocal? (target.place other) =
              some (entity, property) ∧
            property.owner = !other.owner ∧
            ∀ rival, circleGraph.reciprocal? rival = some (target, other) →
              rival = ⟨"Person", name⟩ := by
  have baseless : ∀ schema ∈ circle.schemas.items, schema.base = none := by
    decide
  refine ⟨steady_circleSources, reachable_circle, finalize_circle, baseless,
    fun name member => ?_⟩
  have present : ∀ name ∈ ["mentor", "students", "friends", "person_friends",
      "leader", "follower"],
      ((circleGraph.property? ⟨"Person", name⟩).any
        (·.reciprocalName?.isSome)) = true := by
    decide
  rcases (Option.any_eq_true _ _).mp (present name member) with
    ⟨property, held, named⟩
  exact ⟨property, held, reciprocal?_involutive steady_circleSources
    reachable_circle finalize_circle baseless held named⟩

end EntityCatalog
