import EntityCatalog.Proofs.Entity.Effective
import EntityCatalog.Proofs.Registry.Reachable
import EntityCatalog.Proofs.Resolution.Sourced
import EntityCatalog.Proofs.Schema.Portable
import EntityCatalog.Proofs.Snapshot.Matches

/-!
# Graphs that can be read in one way

What a snapshot shows of a property comes from its declaration.  The types of a
graph come from declared names, so they are the ones that their names mean
(`Registry.Reachable.typed`).  Defaults and rules are those of the declared
options and items are evaluated from them, so where the options are plain
(`Options.Plain`) the graph is (`Registry.Reachable.plain`).  All that a document
declares by literals is plain, so that its graph is
(`Registry.Reachable.plain_of_portable`).
-/

namespace EntityCatalog

/-! ## Types of properties -/

namespace Property

theorem typed_of_ofOptions {entity name : String} {options : Options}
    {property : Property}
    (read : (ofOptions entity name options).toOption = some property) :
    property.Typed := by
  rcases exists_nature_of_ofOptions read with ⟨nature, -, rfl⟩
  intro type typed
  cases nature with
  | scalar typeName =>
      cases typed
      exact ScalarType.regular_ofName typeName
  | _ => cases typed

theorem scalarType?_withSides (property : Property) (sides : Sides) :
    (property.withSides sides).scalarType? = property.scalarType? := by
  unfold withSides scalarType?
  cases nature : property.nature <;> simp [nature]

theorem scalarType?_withTarget (property : Property) (entity : Option String) :
    (property.withTarget entity).scalarType? = property.scalarType? := by
  unfold withTarget scalarType?
  cases nature : property.nature <;> simp [nature]

theorem scalarType?_complete (progress : Completion.Progress)
    (property : Property) :
    (progress.complete property).scalarType? = property.scalarType? := by
  unfold Completion.Progress.complete
  cases nature : property.nature with
  | scalar => rfl
  | enumeration => simp [withItems, scalarType?, nature]
  | embedded | relation =>
      dsimp only
      split <;> simp only [scalarType?_withTarget]

end Property

theorem Entities.typed_of_declaredAt {schemas : Table Schema.name} {place : Place}
    {property : Property} (declared : declaredAt schemas place = some property) :
    property.Typed := by
  rcases Option.bind_eq_some_iff.mp declared with ⟨schema, -, own⟩
  rcases Option.bind_eq_some_iff.mp own with ⟨entry, -, read⟩
  exact Property.typed_of_ofOptions read

/-- Whatever is wrong, the types in the end are those that were declared. -/
theorem Resolution.Setting.typed_entitiesAt {setting : Setting} {tally : Tally}
    {place : Place} {property : Property}
    (held : (setting.entitiesAt tally).property? place = some property) :
    property.Typed := by
  rcases exists_settled held with ⟨settled, kept, rfl⟩
  rw [Property.Typed, Property.scalarType?_complete]
  -- Settling and completing change no types, and added inverses have none.
  rcases settledAt_cases kept with
    ⟨before, sides, merged, rfl⟩ | ⟨-, synthesis, sides, -, rfl⟩
  · rw [Property.scalarType?_withSides]
    exact Entities.typed_of_declaredAt
      (merges_scopeAt.declared_of_held merged).1
  · intro type typed
    rw [Property.scalarType?_withSides] at typed
    cases typed

/-! ## Values, items and rules of properties -/

/-- Options whose values, items and rules can be read in one way only, whenever
the items are evaluated. -/
structure Options.Plain (options : Options) (sources : Sources) : Prop where
  default : ∀ value ∈ options.default, value.Plain
  items : ∀ items ∈ options.items, ∀ tally,
    ∀ item ∈ (Enumeration.evaluate ⟨items, none⟩ sources tally).1, item.Plain
  deleteRule : ∀ rule ∈ options.deleteRule, rule.Regular
  updateRule : ∀ rule ∈ options.updateRule, rule.Regular

/-- The items of an enum are given by its options. -/
theorem Options.items_of_nature {options : Options} {items : EnumItems}
    (told : options.nature = .ok (.enumeration items)) :
    options.items = some items := by
  unfold nature at told
  split at told
  · unfold scalarNature at told
    split at told <;> cases told
  · unfold targetNature at told
    split at told <;> cases told
  · unfold enumNature at told
    split at told
    · cases told
    · split at told <;> cases told
      assumption
  · cases told
  · cases told

namespace Property

/-- What is plain in options is plain in the property that is read off them, and
in the items that it will have. -/
theorem plain_of_ofOptions {sources : Sources} {options : Options}
    (plain : options.Plain sources) {entity name : String} {property : Property}
    (read : (ofOptions entity name options).toOption = some property) :
    property.Plain ∧
      ∀ part, property.enumeration? = some part → ∀ tally,
        ∀ item ∈ (part.evaluate sources tally).1, item.Plain := by
  rcases toOption_ofOptions_eq_some_iff.mp read with ⟨nature, told, -, rfl⟩
  cases nature with
  | scalar | embedded =>
      exact ⟨⟨plain.default, nofun, nofun, nofun⟩, nofun⟩
  | enumeration items =>
      refine ⟨⟨plain.default, nofun, nofun, nofun⟩, ?_⟩
      rintro part ⟨⟩
      exact plain.items items (Options.items_of_nature told)
  | relation =>
      exact ⟨⟨plain.default, nofun, plain.deleteRule, plain.updateRule⟩, nofun⟩

/-- An inverse that was added has no values and no rules. -/
theorem plain_synthesis (synthesis : Synthesis) : synthesis.property.Plain :=
  ⟨nofun, nofun, nofun, nofun⟩

theorem deleteRule?_core (property : Property) :
    property.core.deleteRule? = property.deleteRule? := by
  rw [deleteRule?, relation?_core, deleteRule?]
  cases property.relation? <;> rfl

theorem updateRule?_core (property : Property) :
    property.core.updateRule? = property.updateRule? := by
  rw [updateRule?, relation?_core, updateRule?]
  cases property.relation? <;> rfl

/-- A property with the core of a plain one is plain if its items are. -/
theorem Plain.of_core {left right : Property} (plain : right.Plain)
    (same : left.core = right.core) (items : ∀ item ∈ left.items, item.Plain) :
    left.Plain where
  default := by
    rw [← left.default_core, same, right.default_core]
    exact plain.default
  items := items
  deleteRule := by
    rw [← left.deleteRule?_core, same, right.deleteRule?_core]
    exact plain.deleteRule
  updateRule := by
    rw [← left.updateRule?_core, same, right.updateRule?_core]
    exact plain.updateRule

theorem kind_of_core {left right : Property} (same : left.core = right.core) :
    left.kind = right.kind := by
  rw [← left.kind_core, same, right.kind_core]

theorem items_eq_nil {property : Property} (other : property.kind ≠ .enumeration) :
    property.items = [] := by
  rw [items, enumeration?_eq_none other]
  rfl

end Property

namespace Resolution.Setting

variable {setting : Setting} {tally : Tally}

/-- Where all declared options are plain, so are all properties in the end. -/
theorem Silent.plain (silent : setting.Silent tally)
    (plain : ∀ schema ∈ setting.schemas.items,
      ∀ entry ∈ schema.properties.items, entry.2.Plain setting.sources)
    {place : Place} {property : Property}
    (held : (setting.entitiesAt tally).property? place = some property) :
    property.Plain := by
  have stems := silent.stems held
  rcases stems.core_cases with ⟨declaration, first, same⟩ | ⟨-, synthesis, same⟩
  · rcases Entities.exists_options_of_declaredAt
      (merges_scopeAt.declared_of_held first).1 with
      ⟨schema, options, found, given, read⟩
    have declared := plain schema (Table.find?_eq_some found).1 _
      (Table.find?_eq_some given).1
    obtain ⟨bare, evaluated⟩ :=
      Property.plain_of_ofOptions declared (congrArg Except.toOption read)
    refine bare.of_core same fun item member => ?_
    by_cases enumerated : declaration.kind = .enumeration
    · -- The items are what evaluating the declared ones gave.
      obtain ⟨part, here⟩ := Property.exists_enumeration_of_kind enumerated
      obtain ⟨earlier, known⟩ := (silent.realizes held first).items part here
      rw [Property.items, known] at member
      exact evaluated part here earlier item member
    · rw [Property.items_eq_nil (Property.kind_of_core same ▸ enumerated)]
        at member
      cases member
  · refine (Property.plain_synthesis synthesis).of_core same fun item member => ?_
    have relation : property.kind ≠ .enumeration := by
      rw [Property.kind_of_core same]
      exact fun enumerated => nomatch enumerated
    rw [Property.items_eq_nil relation] at member
    cases member

end Resolution.Setting

/-! ## Graphs of registries -/

namespace Registry

/-- The types of a graph are the ones that their names mean. -/
theorem Reachable.typed {sources : Sources} {registry : Registry} {graph : Graph}
    (reachable : Reachable sources registry) {tally : Tally}
    (frozen : (registry.finalize sources tally).outcome = .ok graph) :
    graph.Typed := by
  rcases reachable.run_of_finalize frozen with ⟨tally, -, entities⟩
  rintro property ⟨entity, member, holds⟩
  rw [entities, Resolution.Setting.run_eq] at member
  exact Resolution.Setting.typed_entitiesAt
    (Entities.property?_of_mem member holds)

/-- Where all declared options are plain, so is the graph. -/
theorem Reachable.plain {sources : Sources} {registry : Registry} {graph : Graph}
    (reachable : Reachable sources registry) {tally : Tally}
    (frozen : (registry.finalize sources tally).outcome = .ok graph)
    (plain : ∀ schema ∈ registry.schemas.items,
      ∀ entry ∈ schema.properties.items, entry.2.Plain sources) :
    graph.Plain := by
  rcases reachable.run_of_finalize frozen with ⟨tally, flawless, entities⟩
  rintro property ⟨entity, member, holds⟩
  rw [entities, Resolution.Setting.run_eq] at member
  exact (Resolution.Setting.silent_of_run flawless).plain plain
    (Entities.property?_of_mem member holds)

end Registry

/-! ## Portable declarations -/

theorem Literal.plain (literal : Literal) : literal.value.Plain := by
  cases literal with
  | bool | integer | string =>
      exact ⟨trivial, fun _ double => nomatch double⟩

theorem PortableOptions.plain (portable : PortableOptions) (sources : Sources) :
    portable.options.Plain sources where
  default value given := by
    obtain ⟨literal, -, rfl⟩ := Option.map_eq_some_iff.mp given
    exact literal.plain
  items items given tally := by
    obtain ⟨literals, -, rfl⟩ := Option.map_eq_some_iff.mp given
    intro item member
    obtain ⟨value, inside, rfl⟩ := List.mem_map.mp member
    obtain ⟨literal, -, rfl⟩ := List.mem_map.mp inside
    exact ⟨(fun _ absent => nomatch absent), literal.plain⟩
  deleteRule rule given := by
    obtain ⟨text, -, rfl⟩ := Option.map_eq_some_iff.mp given
    exact ReferentialAction.regular_ofText text
  updateRule rule given := by
    obtain ⟨text, -, rfl⟩ := Option.map_eq_some_iff.mp given
    exact ReferentialAction.regular_ofText text

theorem PortableSchema.plain (portable : PortableSchema) (sources : Sources) :
    ∀ entry ∈ portable.schema.properties.items, entry.2.Plain sources := by
  intro entry member
  have found := Table.find?_key member
  rw [schema, foldl_withProperty] at found
  rcases Table.mem_of_find?_insertAll found with declared | absent
  · obtain ⟨⟨name, options⟩, -, rfl⟩ := List.mem_map.mp declared
    exact options.plain sources
  · cases absent

/-- Where every schema can be made by a document the graph is plain. -/
theorem Registry.Reachable.plain_of_portable {sources : Sources}
    {registry : Registry} {graph : Graph}
    (reachable : Reachable sources registry) {tally : Tally}
    (frozen : (registry.finalize sources tally).outcome = .ok graph)
    (portable : ∀ schema ∈ registry.schemas.items,
      ∃ declaration : PortableSchema, schema = declaration.schema) :
    graph.Plain := by
  refine reachable.plain frozen fun schema member => ?_
  obtain ⟨declaration, rfl⟩ := portable schema member
  exact declaration.plain sources

end EntityCatalog
