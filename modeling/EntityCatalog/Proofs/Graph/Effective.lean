import EntityCatalog.Proofs.Entity.Effective
import EntityCatalog.Proofs.Graph.Linked
import EntityCatalog.Proofs.Resolution.Sourced

/-!
# Properties of entities in a graph

In the graph of a frozen registry an entity holds, in this order, what its farthest
base declares, what the nearer ones declare besides, what it declares itself, and
then the inverses that were added.  A declared property is what the options of the
nearest declaration say, as a whole: nothing of a declaration farther away is left
(`inherits_of_frozen`).
-/

namespace EntityCatalog

namespace Entity

/-- The properties of an entity that it or a base declares. -/
def declaredProperties (entity : Entity) : List Property :=
  entity.select fun property => !property.synthesized

/-- The properties of an entity that were added as inverses. -/
def addedProperties (entity : Entity) : List Property :=
  entity.select Property.synthesized

end Entity

/-- The declaration that holds for an entity of given ancestry under the name of a
property: the nearest one, of which the property realizes the options. -/
structure Property.Inherited (property : Property) (directory : Directory)
    (schemas : Table Schema.name) (ancestry : List String) : Prop where
  nearest : (ancestry.find? fun ancestor =>
      decide (property.name ∈ Entities.declaredNames schemas ancestor)) =
    some property.declaredBy
  realizes : ∃ schema options declaration,
    schemas.find? property.declaredBy = some schema ∧
      schema.properties.find? property.name = some (property.name, options) ∧
      Property.ofOptions property.declaredBy property.name options =
        .ok declaration ∧
      property.Realizes declaration directory

/-- An entity of a graph that holds what schemas declare along its ancestry. -/
structure Graph.Inherits (graph : Graph) (directory : Directory)
    (schemas : Table Schema.name) (entity : Entity) : Prop where
  climbs : Climbs graph.entities.base? entity.name
    (graph.entities.ancestry entity.name)
  /-- The declared names come in the order in which they first occur, farthest
  base first. -/
  ordered : entity.declaredProperties.map Property.name =
    ((graph.entities.ancestry entity.name).reverse.flatMap
      (Entities.declaredNames schemas)).eraseDups
  inherited : ∀ property ∈ entity.declaredProperties,
    property.Inherited directory schemas
      (graph.entities.ancestry entity.name)
  last : entity.properties.items =
    entity.declaredProperties ++ entity.addedProperties

namespace Resolution.Setting

variable {setting : Setting} {tally : Tally}

/-- Before relations are settled an entity holds what is declared nearest to
it. -/
theorem property?_scopeAt {place : Place}
    (registered : place.entity ∈ setting.schemas.keys) :
    (setting.scopeAt tally).entities.property? place =
      ((setting.scopeAt tally).entities.ancestry place.entity).findSome?
        fun ancestor => Entities.declaredAt setting.schemas
          ⟨ancestor, place.property⟩ :=
  (Bases.forest_link rfl tally).property?_ofSchemas registered

/-- The names that an entity starts with are those that were merged. -/
theorem prefix_propertyNames (entity : String) :
    (setting.scopeAt tally).entities.propertyNames entity <+:
      (setting.entitiesAt tally).propertyNames entity := by
  rw [entitiesAt, Entities.propertyNames_index,
    Entities.propertyNames_complete]
  exact Settlement.prefix_carryOut _ _ entity

namespace Silent

variable (silent : setting.Silent tally) {entity : Entity}
  (member : entity ∈ (setting.entitiesAt tally).items)

include silent member

/-- The names of what is declared were merged, and the others were not. -/
theorem not_synthesized_iff {property : Property}
    (holds : property ∈ entity.properties.items) :
    (!property.synthesized) = true ↔
      property.name ∈
        (setting.scopeAt tally).entities.propertyNames entity.name := by
  have stems := silent.stems (Entities.property?_of_mem member holds)
  have added := stems.synthesized_iff
  rw [Entities.mem_propertyNames_iff, Bool.not_eq_true', ← Bool.not_eq_true,
    added]
  exact Option.ne_none_iff_exists'

/-- Declared properties come first, in the order of the merged names. -/
theorem declaredProperties_eq :
    entity.declaredProperties.map Property.name =
        (setting.scopeAt tally).entities.propertyNames entity.name ∧
      entity.properties.items =
        entity.declaredProperties ++ entity.addedProperties := by
  have start := @prefix_propertyNames setting tally entity.name
  rw [Entities.propertyNames_of_find? (Table.find?_key member)] at start
  rcases filter_of_prefix start entity.properties.distinct
    fun property holds => silent.not_synthesized_iff member holds with
    ⟨names, split⟩
  simp only [Bool.not_not] at split
  exact ⟨names, split⟩

/-- A declared property is what its nearest declaration says. -/
theorem inherited {property : Property}
    (declared : property ∈ entity.declaredProperties) :
    property.Inherited setting.directory setting.schemas
      ((setting.entitiesAt tally).ancestry entity.name) := by
  rcases List.mem_filter.mp declared with ⟨holds, plain⟩
  have held := Entities.property?_of_mem member holds
  have merged := (silent.not_synthesized_iff member holds).mp plain
  rcases Entities.mem_propertyNames_iff.mp merged with ⟨declaration, first⟩
  have realizes := silent.realizes held first
  have same : property.declaredBy = declaration.declaredBy := by
    rcases realizes.declared with ⟨sides, target, items, rfl⟩
    rw [← Property.declaredBy_core]
    simp
  rcases merges_scopeAt.declared_of_held first with ⟨origin, named, -⟩
  have registered : entity.name ∈ setting.schemas.keys := by
    rw [← keys_entitiesAt]
    exact List.mem_map_of_mem member
  refine ⟨?_, ?_⟩
  · rw [property?_scopeAt registered] at first
    rw [same, alike_entitiesAt.ancestry]
    exact Entities.find?_declares silent.fits first
  · rcases Entities.exists_options_of_declaredAt origin with
      ⟨schema, options, found, given, read⟩
    change declaration.name = property.name at named
    rw [show declaration.origin.entity = property.declaredBy from same.symm]
      at found read
    rw [show declaration.origin.property = property.name from named]
      at given read
    exact ⟨schema, options, declaration, found, given, read, realizes⟩

/-- An entity of a resolution without defects holds what is declared along its
ancestry. -/
theorem inherits {graph : Graph}
    (entities : graph.entities = setting.entitiesAt tally) :
    graph.Inherits setting.directory setting.schemas entity := by
  have registered : entity.name ∈ setting.schemas.keys := by
    rw [← keys_entitiesAt]
    exact List.mem_map_of_mem member
  rcases silent.declaredProperties_eq member with ⟨names, split⟩
  refine ⟨?_, ?_, fun property declared => ?_, split⟩
  · rw [entities]
    exact (forest_entitiesAt.climbs_ancestry
      (List.mem_map_of_mem member)).1
  · rw [names, entities, alike_entitiesAt.ancestry]
    exact Entities.propertyNames_ofSchemas_eq silent.fits
      (Bases.forest_link rfl tally) registered
  · rw [entities]
    exact silent.inherited member declared

end Silent

end Resolution.Setting

/-! ## An archive -/

/-- An archive whose editions are registered before what they extend.  The title is
declared three times, each time otherwise, and labels get an inverse. -/
def archive : Registry :=
  (Registry.registerAll {} [
    { name := "Edition"
      base := some (.deferred 0)
      properties := .ofList [
        ("labels", .manyToMany (.name "Label")),
        ("title", { Options.typed "string" with nullable := some true })] },
    { name := "Label"
      properties := .ofList [
        ("id", { Options.typed "integer" with primary := true })] },
    { name := "Work"
      base := some (.name "Document")
      properties := .ofList [
        ("title", { Options.typed "string" with array := true }),
        ("state", .enumeration (.deferred 1))] },
    { name := "Document"
      isAbstract := true
      properties := .ofList [
        ("id", { Options.typed "integer" with primary := true }),
        ("title", { Options.typed "string" with
          default := some (.string "Untitled") }),
        ("year", .typed "integer")] }]).1

/-- What the sources of the archive answer: what editions extend, and the states
of works. -/
def archiveSources : Sources where
  reference _ _ := .name "Work"
  mapping _ _ := [("Kept", .string "kept"), ("Lost", .string "lost")]
  hook _ _ := .null

/-- The graph of the archive. -/
def archiveGraph : Graph :=
  match (archive.finalize archiveSources .empty).outcome with
  | .ok graph => graph
  | .error _ => default

theorem reachable_archive : Registry.Reachable archiveSources archive :=
  (Registry.Reachable.new {}).registerAll _

theorem finalize_archive :
    (archive.finalize archiveSources .empty).outcome = .ok archiveGraph := by
  have succeeds : (archive.finalize archiveSources .empty).outcome.isOk := by
    decide +kernel
  exact Registry.outcome_of_isOk succeeds

/-! ## Frozen registries -/

/-- In the graph of a frozen registry every entity holds what is declared along its
ancestry: the declared names in the order in which they first occur, farthest base
first, each with what the nearest declaration says, and then what was added. -/
theorem inherits_of_frozen {sources : Sources} {registry : Registry}
    {tally : Tally} {graph : Graph} {entity : Entity}
    (reachable : registry.Reachable sources)
    (frozen : (registry.finalize sources tally).outcome = .ok graph)
    (member : entity ∈ graph.entities.items) :
    graph.Inherits (registry.setting sources).directory registry.schemas
      entity := by
  rcases reachable.run_of_finalize frozen with ⟨earlier, none, entities⟩
  have silent := Resolution.Setting.silent_of_run none
  rw [Resolution.Setting.run_eq] at entities
  rw [entities] at member
  exact silent.inherits member entities

/-- The properties of an edition and of a label. -/
theorem inherits_of_frozen_archive :
    Registry.Reachable archiveSources archive ∧
      (archive.finalize archiveSources .empty).outcome = .ok archiveGraph ∧
      ∃ edition ∈ archiveGraph.entities.items,
        ∃ label ∈ archiveGraph.entities.items,
          archiveGraph.Inherits (archive.setting archiveSources).directory
            archive.schemas edition ∧
          edition.declaredProperties.map Property.origin =
            [⟨"Document", "id"⟩, ⟨"Edition", "title"⟩, ⟨"Document", "year"⟩,
              ⟨"Work", "state"⟩, ⟨"Edition", "labels"⟩] ∧
          archiveGraph.Inherits (archive.setting archiveSources).directory
            archive.schemas label ∧
          label.properties.keys = ["id", "edition_labels"] ∧
          label.addedProperties.map Property.name = ["edition_labels"] := by
  have present : ∃ edition label,
      archiveGraph.entity? "Edition" = some edition ∧
      archiveGraph.entity? "Label" = some label ∧
      edition.declaredProperties.map Property.origin =
        [⟨"Document", "id"⟩, ⟨"Edition", "title"⟩, ⟨"Document", "year"⟩,
          ⟨"Work", "state"⟩, ⟨"Edition", "labels"⟩] ∧
      label.properties.keys = ["id", "edition_labels"] ∧
      label.addedProperties.map Property.name = ["edition_labels"] := by
    refine ⟨_, _, rfl, rfl, ?_, ?_, ?_⟩ <;> decide +kernel
  rcases present with ⟨edition, label, known, target, origins, names, added⟩
  have member := (Table.find?_eq_some known).1
  have other := (Table.find?_eq_some target).1
  exact ⟨reachable_archive, finalize_archive, edition, member, label, other,
    inherits_of_frozen reachable_archive finalize_archive member, origins,
    inherits_of_frozen reachable_archive finalize_archive other, names, added⟩

end EntityCatalog
