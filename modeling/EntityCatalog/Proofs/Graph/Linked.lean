import EntityCatalog.Proofs.Registry.Reachable
import EntityCatalog.Proofs.Resolution.Completed

/-!
# Linked graphs

Nothing is left open in the graph of a frozen registry, whatever its sources
answered when it was resolved (`links_of_frozen`).  The bases of an entity are
entities of the graph and come to an end, what a property points at is in the
graph and is embeddable exactly if it is embedded, enums have their items, and
the primary key is the one that the properties say.
-/

namespace EntityCatalog

/-! ## Linked entities -/

/-- The default of an enum is one of its items, as far as it has to be. -/
def Property.DefaultsTo (property : Property) (items : List EnumItem) : Prop :=
  ∀ value, property.default = some value → value.isNull = false →
    property.array = false → EnumItem.holds items value = true

theorem Property.defaultMisuse_eq_none_iff {property : Property}
    {items : List EnumItem} :
    property.defaultMisuse items = none ↔ property.DefaultsTo items := by
  unfold defaultMisuse DefaultsTo
  cases property.default with
  | none => simp
  | some value =>
      rw [Option.bind_some]
      cases null : value.isNull <;> cases property.array <;>
        cases held : EnumItem.holds items value <;> simp [null, held]

/-- An entity of a graph whose references all lead somewhere. -/
structure Graph.Links (graph : Graph) (entity : Entity) : Prop where
  climbs : Climbs graph.entities.base? entity.name
    (graph.entities.ancestry entity.name)
  distinct : (graph.entities.ancestry entity.name).Nodup
  bases : ∀ ancestor ∈ graph.entities.ancestry entity.name,
    ancestor ∈ graph.names
  relations : ∀ property ∈ entity.properties.items,
    property.isRelation = true →
      ∃ target, graph.target? property = some target ∧
        target.embeddable = false
  embedded : ∀ property ∈ entity.properties.items,
    property.isEmbedded = true →
      ∃ target, graph.target? property = some target ∧
        target.embeddable = true
  enums : ∀ property ∈ entity.properties.items,
    ∀ part, property.enumeration? = some part →
      ∃ items, part.items = some items ∧ property.DefaultsTo items
  keys : entity.primaryKeys =
    (entity.properties.items.filter (·.primary)).map Property.name

namespace Entities

/-- Indexing reads primary keys off properties. -/
theorem primaryKeys_of_index {entities : Entities} {entity : Entity}
    (member : entity ∈ entities.index.items) :
    entity.primaryKeys =
      (entity.properties.items.filter (·.primary)).map Property.name := by
  rcases List.mem_map.mp member with ⟨before, -, rfl⟩
  rfl

/-- Where no primary key is missing and nothing was dropped, every entity has
one, unless it needs none. -/
theorem exists_key_of_keyDefects {entities : Entities}
    {schemas : Table Schema.name} (silent : entities.keyDefects schemas [] = [])
    {entity : Entity} (member : entity ∈ entities.items) :
    entity.primaryKeys ≠ [] ∨ entity.isAbstract = true ∨
      entity.embeddable = true ∨ entity.keyless = true := by
  rw [keyDefects, List.map_eq_nil_iff, List.filter_eq_nil_iff] at silent
  have fine := silent entity member
  have kept : entities.hasInvalidKey schemas [] entity.name = false := by
    rw [hasInvalidKey, List.any_eq_false]
    intro ancestor _
    cases schemas.find? ancestor <;> simp [anyWithin]
  rw [kept, Entity.isTable] at fine
  cases abstract : entity.isAbstract <;>
    cases embeddable : entity.embeddable <;>
    cases keyless : entity.keyless <;> simp_all

end Entities

namespace Resolution.Setting.Silent

variable {setting : Setting} {tally : Tally}

/-- Every entity of a resolution without defects is linked. -/
theorem links (silent : setting.Silent tally) {graph : Graph}
    (entities : graph.entities = setting.entitiesAt tally) {entity : Entity}
    (member : entity ∈ graph.entities.items) :
    graph.Links entity := by
  have registered : entity.name ∈ graph.entities.keys :=
    List.mem_map_of_mem member
  have climbs := forest_entitiesAt.climbs_ancestry (entities ▸ registered)
  rw [← entities] at climbs
  have held : ∀ property ∈ entity.properties.items,
      (setting.entitiesAt tally).property? (entity.place property) =
        some property := by
    intro property holds
    rw [← entities]
    exact Entities.property?_of_mem member holds
  -- Relations and embedded properties have their targets for the same reason.
  have target : ∀ property ∈ entity.properties.items,
      property.kind.hasTarget = true →
        ∃ target, graph.target? property = some target ∧
          target.embeddable = property.isEmbedded := by
    intro property holds pointing
    rcases silent.exists_target (held property holds) pointing with
      ⟨target, found, fits⟩
    refine ⟨target, ?_, fits⟩
    rw [← entities] at found
    exact found
  refine ⟨climbs.1, climbs.2.1, climbs.2.2, ?_, ?_, ?_, ?_⟩
  · intro property holds related
    rcases Property.exists_relation_of_isRelation related with ⟨relation, here⟩
    have kind := Property.kind_of_relation? here
    rcases target property holds (by rw [kind]; rfl) with ⟨other, found, fits⟩
    refine ⟨other, found, fits.trans ?_⟩
    rw [Property.isEmbedded, kind]
    rfl
  · intro property holds embeds
    have kind : property.kind = .embedded := of_decide_eq_true embeds
    rcases target property holds (by rw [kind]; rfl) with ⟨other, found, fits⟩
    exact ⟨other, found, fits.trans embeds⟩
  · intro property holds part enumerated
    rcases silent.exists_items (held property holds) enumerated with
      ⟨items, known, fits⟩
    exact ⟨items, known, Property.defaultMisuse_eq_none_iff.mp fits⟩
  · rw [entities, entitiesAt] at member
    exact Entities.primaryKeys_of_index member

end Resolution.Setting.Silent

/-! ## A library -/

/-- A library whose sources answer once and then something else: a base, the
target of a relation that gets its inverse, an enum with a default and an
embedded entity all have to be linked by the first answers. -/
def library : Registry :=
  (Registry.registerAll {} [
    { name := "Item"
      isAbstract := true
      properties := .ofList [
        ("id", { Options.typed "integer" with primary := true }),
        ("state", { Options.enumeration (.deferred 0) with
          default := some (.string "lent") }),
        ("shelf", .embedded (.deferred 1)),
        ("topics", .manyToMany (.deferred 2))] },
    { name := "Shelf"
      embeddable := true
      properties := .ofList [("row", .typed "integer")] },
    { name := "Book"
      base := some (.deferred 0) },
    { name := "Topic"
      properties := .ofList [
        ("name", { Options.typed "string" with primary := true })] }]).1

/-- What the sources of the library answer: each the name that is meant on its
first evaluation, and later a name that nobody registered. -/
def librarySources : Sources where
  reference source evaluation :=
    .name (if evaluation ≠ 0 then "Nothing"
      else if source = 0 then "Item" else if source = 1 then "Shelf" else "Topic")
  mapping _ evaluation :=
    if evaluation = 0 then
      [("Free", .string "free"), ("Lent", .string "lent")]
    else []
  hook _ _ := .null

/-- The graph of the library. -/
def libraryGraph : Graph :=
  match (library.finalize librarySources .empty).outcome with
  | .ok graph => graph
  | .error _ => default

theorem reachable_library : Registry.Reachable librarySources library :=
  (Registry.Reachable.new {}).registerAll _

theorem finalize_library :
    (library.finalize librarySources .empty).outcome = .ok libraryGraph := by
  have succeeds : (library.finalize librarySources .empty).outcome.isOk := by
    decide +kernel
  exact Registry.outcome_of_isOk succeeds

/-! ## Frozen registries -/

/-- In the graph of a frozen registry every entity is linked, and where primary
keys are demanded it has one, unless it needs none. -/
theorem links_of_frozen {sources : Sources} {registry : Registry}
    {tally : Tally} {graph : Graph} {entity : Entity}
    (reachable : registry.Reachable sources)
    (frozen : (registry.finalize sources tally).outcome = .ok graph)
    (member : entity ∈ graph.entities.items) :
    graph.Links entity ∧
      (registry.config.requirePrimaryKey = true →
        entity.primaryKeys ≠ [] ∨ entity.isAbstract = true ∨
          entity.embeddable = true ∨ entity.keyless = true) := by
  rcases reachable.run_of_finalize frozen with ⟨tally, none, entities⟩
  have silent := Resolution.Setting.silent_of_run none
  rw [Resolution.Setting.run_eq] at entities
  refine ⟨silent.links entities member, fun required => ?_⟩
  rw [entities] at member
  exact Entities.exists_key_of_keyDefects (silent.keys required) member

/-- Every entity of the library is linked and has a key where it needs one. -/
theorem links_of_frozen_library :
    Registry.Reachable librarySources library ∧
      (library.finalize librarySources .empty).outcome = .ok libraryGraph ∧
      ∀ name ∈ ["Item", "Shelf", "Book", "Topic"],
        ∃ entity ∈ libraryGraph.entities.items, entity.name = name ∧
          libraryGraph.Links entity ∧
          (entity.primaryKeys ≠ [] ∨ entity.isAbstract = true ∨
            entity.embeddable = true ∨ entity.keyless = true) := by
  refine ⟨reachable_library, finalize_library, fun name listed => ?_⟩
  have known : libraryGraph.entities.keys =
      ["Item", "Shelf", "Book", "Topic"] := by
    decide +kernel
  rw [← known] at listed
  rcases List.mem_map.mp listed with ⟨entity, member, named⟩
  rcases links_of_frozen reachable_library finalize_library member with
    ⟨links, key⟩
  exact ⟨entity, member, named, links, key rfl⟩

end EntityCatalog
