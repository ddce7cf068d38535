import EntityCatalog.Proofs.Entity.Lineage
import EntityCatalog.Proofs.Property.Declared

/-!
# Inherited properties

`Entities.Merges` describes entities whose properties are merged along a
forest of bases: an entity holds what it declares itself, and otherwise what
its base holds.  Every property is then the one that stands at its origin, an
entity holds a property under every name that an ancestor uses, and two
properties with one origin are the same.

The entities of schemas merge what the schemas declare, provided the bases
form a forest over the registered names.
-/

namespace EntityCatalog

/-! ## Entities that hold what their ancestors declare -/

namespace Entities

theorem property?_of_mem {entities : Entities} {entity : Entity}
    {property : Property} (member : entity ∈ entities.items)
    (holds : property ∈ entity.properties.items) :
    entities.property? (entity.place property) = some property := by
  rw [property?, Entity.place, Table.find?_key member, Option.bind_some,
    Entity.property?, Table.find?_key holds]

/-- Each entity of a forest holds what it declares, else what its base
holds. -/
structure Merges (entities : Entities) (own : Place → Option Property) : Prop
    extends Forest entities where
  placed : ∀ place property, own place = some property →
    property.origin = place
  holder : ∀ place property, own place = some property →
    place.entity ∈ entities.keys
  held : ∀ place, entities.property? place =
    (own place).or ((entities.base? place.entity).bind fun next =>
      entities.property? ⟨next, place.property⟩)

namespace Merges

variable {entities : Entities} {own : Place → Option Property}

/-- What an entity holds is declared by it or by one of its bases. -/
theorem declared_of_held (merges : Merges entities own) {place : Place}
    {property : Property} (found : entities.property? place = some property) :
    own property.origin = some property ∧
      property.name = place.property ∧
      Descends entities.base? place.entity property.declaredBy := by
  rcases place with ⟨entity, name⟩
  rcases merges.rooted entity with ⟨root, climb, rootless⟩
  induction climb with
  | refl entity =>
      rw [merges.held, rootless] at found
      have declared : own ⟨entity, name⟩ = some property := by
        simpa using found
      have origin := merges.placed _ _ declared
      rw [origin]
      refine ⟨declared, congrArg Place.property origin, ?_⟩
      rw [show property.declaredBy = entity from congrArg Place.entity origin]
      exact .refl entity
  | @step entity next _ link _ induction =>
      rw [merges.held, link] at found
      cases declared : own ⟨entity, name⟩ with
      | some other =>
          simp only [declared, Option.some_or, Option.some.injEq] at found
          subst found
          have origin := merges.placed _ _ declared
          rw [origin]
          refine ⟨declared, congrArg Place.property origin, ?_⟩
          rw [show other.declaredBy = entity from congrArg Place.entity origin]
          exact .refl entity
      | none =>
          simp only [declared, Option.none_or, Option.bind_some] at found
          rcases induction found rootless with ⟨atOrigin, named, above⟩
          exact ⟨atOrigin, named, .step link above⟩

theorem held_of_declared (merges : Merges entities own) {place : Place}
    {property : Property} (declared : own place = some property) :
    entities.property? place = some property := by
  rw [merges.held, declared, Option.some_or]

/-- A property stands at its origin just as it is held. -/
theorem held_at_origin (merges : Merges entities own) {place : Place}
    {property : Property} (found : entities.property? place = some property) :
    entities.property? property.origin = some property :=
  merges.held_of_declared (merges.declared_of_held found).1

/-- Copies of one declaration are equal. -/
theorem eq_of_origin_eq (merges : Merges entities own) {left right : Place}
    {first second : Property}
    (foundLeft : entities.property? left = some first)
    (foundRight : entities.property? right = some second)
    (same : first.origin = second.origin) :
    first = second := by
  have atLeft := merges.held_at_origin foundLeft
  rw [same, merges.held_at_origin foundRight] at atLeft
  exact (Option.some.inj atLeft).symm

/-- An entity holds a property under every name that an ancestor uses. -/
theorem held_below (merges : Merges entities own) {lower upper name : String}
    (climb : Descends entities.base? lower upper) {property : Property}
    (found : entities.property? ⟨upper, name⟩ = some property) :
    ∃ copy, entities.property? ⟨lower, name⟩ = some copy := by
  induction climb with
  | refl => exact ⟨property, found⟩
  | @step lower next _ link _ induction =>
      rcases induction found with ⟨copy, atNext⟩
      rw [merges.held, link, Option.bind_some, atNext]
      cases own ⟨lower, name⟩ with
      | none => exact ⟨copy, rfl⟩
      | some declared => exact ⟨declared, rfl⟩

end Merges

/-! ## Entities of schemas -/

/-- What schemas declare at a place. -/
def declaredAt (schemas : Table Schema.name) (place : Place) :
    Option Property :=
  (schemas.find? place.entity).bind (·.property? place.property)

theorem lawful_of_declaredAt {schemas : Table Schema.name} {place : Place}
    {property : Property} (declared : declaredAt schemas place = some property) :
    property.origin = place ∧ property.Lawful := by
  rcases Option.bind_eq_some_iff.mp declared with ⟨schema, found, own⟩
  rcases Schema.lawful_of_property? own with ⟨named, by_schema, lawful⟩
  have registered := (Table.find?_eq_some found).2
  refine ⟨?_, lawful⟩
  rw [Property.origin, named, by_schema, registered]

theorem find?_declared (schemas : Table Schema.name) (place : Place) :
    ((Entity.declared schemas place.entity).find? fun property =>
      decide (property.name = place.property)) = declaredAt schemas place := by
  rw [Entity.declared, declaredAt]
  cases schemas.find? place.entity with
  | none => rfl
  | some schema => exact schema.find?_ownProperties place.property

/-- Under each name an entity holds the declaration nearest to it. -/
theorem find?_effectiveProperties (schemas : Table Schema.name)
    (ancestry : List String) (name : String) :
    (effectiveProperties (Entity.declared schemas) ancestry).find? name =
      ancestry.findSome? fun ancestor => declaredAt schemas ⟨ancestor, name⟩ := by
  induction ancestry with
  | nil => rfl
  | cons ancestor rest induction =>
      rw [effectiveProperties, List.foldr_cons, Table.find?_insertAll,
        ← effectiveProperties, induction, List.findSome?_cons,
        find?_declared schemas ⟨ancestor, name⟩]
      · cases declaredAt schemas ⟨ancestor, name⟩ <;> rfl
      · rw [Entity.declared]
        cases schemas.find? ancestor with
        | none => exact List.nodup_nil
        | some schema => exact schema.nodup_ownProperties

theorem find?_ofSchemas (schemas : Table Schema.name) (bases : Bases)
    (name : String) :
    (ofSchemas schemas bases).find? name =
      (schemas.find? name).map (Entity.ofSchema schemas bases) := by
  rw [Table.find?, ofSchemas, List.find?_map]
  rfl

theorem keys_ofSchemas (schemas : Table Schema.name) (bases : Bases) :
    (ofSchemas schemas bases).keys = schemas.keys := by
  simp [Table.keys, ofSchemas, Function.comp_def, Entity.ofSchema]

theorem size_ofSchemas (schemas : Table Schema.name) (bases : Bases) :
    (ofSchemas schemas bases).size = schemas.size := by
  simp [Table.size, ofSchemas]

end Entities

/-- Bases lead from registered names to registered names, and every climb
along them ends. -/
structure Bases.Forest (schemas : Table Schema.name) (bases : Bases) :
    Prop where
  registered : ∀ entity next, bases.base? entity = some next →
    entity ∈ schemas.keys
  closed : ∀ entity next, bases.base? entity = some next →
    next ∈ schemas.keys
  rooted : ∀ entity, Rooted bases.base? entity

namespace Bases.Forest

variable {schemas : Table Schema.name} {bases : Bases}

theorem base?_ofSchemas (forest : Forest schemas bases) :
    (Entities.ofSchemas schemas bases).base? = bases.base? := by
  funext name
  rw [Entities.base?, Entities.find?_ofSchemas]
  cases found : schemas.find? name with
  | some schema =>
      rw [← (Table.find?_eq_some found).2]
      rfl
  | none =>
      cases link : bases.base? name with
      | none => rfl
      | some next =>
          have registered := forest.registered _ _ link
          exact absurd registered (Table.find?_eq_none_iff.mp found)

/-- The entities of schemas form a forest along linked bases. -/
theorem forest_ofSchemas (forest : Forest schemas bases) :
    Entities.Forest (Entities.ofSchemas schemas bases) where
  closed := by
    rw [forest.base?_ofSchemas, Entities.keys_ofSchemas]
    exact forest.closed
  rooted := by
    rw [forest.base?_ofSchemas]
    exact forest.rooted

theorem property?_ofSchemas (forest : Forest schemas bases) {place : Place}
    (registered : place.entity ∈ schemas.keys) :
    (Entities.ofSchemas schemas bases).property? place =
      ((Entities.ofSchemas schemas bases).ancestry place.entity).findSome?
        fun ancestor =>
          Entities.declaredAt schemas ⟨ancestor, place.property⟩ := by
  rcases Table.mem_keys_iff.mp registered with ⟨schema, found⟩
  rw [Entities.property?, Entities.find?_ofSchemas, found, Option.map_some,
    Option.bind_some, Entity.property?, Entities.ancestry,
    forest.base?_ofSchemas, Entities.size_ofSchemas,
    ← (Table.find?_eq_some found).2]
  exact Entities.find?_effectiveProperties schemas _ place.property

/-- The entities of schemas merge what the schemas declare. -/
theorem merges_ofSchemas (forest : Forest schemas bases) :
    (Entities.ofSchemas schemas bases).Merges
      (Entities.declaredAt schemas) where
  toForest := forest.forest_ofSchemas
  placed := fun _ _ declared => (Entities.lawful_of_declaredAt declared).1
  holder := by
    intro place property declared
    rcases Option.bind_eq_some_iff.mp declared with ⟨_, found, _⟩
    rw [Entities.keys_ofSchemas]
    exact Table.mem_keys_of_find? found
  held := by
    rintro ⟨entity, name⟩
    by_cases registered : entity ∈ schemas.keys
    · rw [forest.property?_ofSchemas registered]
      cases link : (Entities.ofSchemas schemas bases).base? entity with
      | none =>
          rw [Entities.ancestry_of_base_eq_none _ link, List.findSome?_cons,
            Option.bind_none, Option.or_none]
          · cases Entities.declaredAt schemas ⟨entity, name⟩ <;> rfl
          · rw [Entities.keys_ofSchemas]
            exact registered
      | some next =>
          rw [forest.forest_ofSchemas.ancestry_of_base link,
            List.findSome?_cons, Option.bind_some]
          rw [forest.property?_ofSchemas]
          · cases Entities.declaredAt schemas ⟨entity, name⟩ <;> rfl
          · rw [forest.base?_ofSchemas] at link
            exact forest.closed _ _ link
    · have unknown := Table.find?_eq_none_iff.mpr registered
      have absent : (Entities.ofSchemas schemas bases).find? entity = none := by
        rw [Entities.find?_ofSchemas, unknown, Option.map_none]
      simp [Entities.property?, Entities.base?, Entities.declaredAt, absent,
        unknown]

end Bases.Forest

end EntityCatalog
