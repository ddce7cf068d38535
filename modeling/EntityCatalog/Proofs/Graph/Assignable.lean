import EntityCatalog.Proofs.Entity.Preparation
import EntityCatalog.Proofs.Resolution.Stemming

/-!
# Properties in prepared records

A prepared record follows the order of the properties and has every pair that
was supplied, since what is supplied for a property is assigned or refused
(`Entity.prepares_of_prepare`).  What is left out is filled in.  On create a
property that cannot be assigned is never filled in, but the hooks for updates
are called for every property.  Only collections can have such a hook and not be
assignable, so an update of an entity of a graph holds, besides what can be
assigned, the collections with a hook (`prepared_of_frozen`).
-/

namespace EntityCatalog

/-! ## Fields without faults -/

/-- What is assigned without a fault is the value itself. -/
theorem Property.assign_of_faultless {property : Property} {value : Value}
    (faultless : (property.assign value).fault? = none) :
    property.isWritable = true ∧
      (property.assign value).value? = some value := by
  unfold assign at faultless ⊢
  split at faultless
  · cases faultless
  · rename_i writable
    rw [if_neg writable]
    split at faultless
    · cases faultless
    · rename_i fits
      rw [if_neg fits]
      exact ⟨by simpa using writable, rfl⟩

namespace Entity

variable {entity : Entity} {fill : Property → Tally → Field × Tally}
  {record prepared : Record} {tally : Tally}

/-- Where a record is prepared no field is at fault, and the values are those of
the fields, in order. -/
theorem items_of_prepare
    (accepted : (entity.prepare fill record tally).1 = .ok prepared) :
    (∀ entry ∈ (fieldsOf fill record entity.properties.items tally).1,
        entry.2.fault? = none) ∧
      entity.unknownNames record = [] ∧
      prepared.items =
        valuesOf (fieldsOf fill record entity.properties.items tally).1 := by
  have distinct : ((valuesOf (fieldsOf fill record entity.properties.items
      tally).1).map Prod.fst).Nodup := by
    refine List.Nodup.sublist (names_valuesOf _) ?_
    rw [names_fieldsOf]
    exact entity.properties.distinct
  unfold prepare at accepted
  dsimp only at accepted
  split at accepted
  · rename_i none
    rw [List.isEmpty_iff, List.append_eq_nil_iff, List.map_eq_nil_iff,
      List.filterMap_eq_nil_iff] at none
    cases accepted
    refine ⟨fun entry member => Option.map_eq_none_iff.mp (none.1 entry member),
      none.2, ?_⟩
    exact Table.items_insertAll_of_fresh distinct fun _ _ => List.not_mem_nil
  · cases accepted

/-- A property is in a prepared record if its field has a value. -/
theorem mem_keys_of_prepare {property : Property}
    (held : property ∈ entity.properties.items)
    (accepted : (entity.prepare fill record tally).1 = .ok prepared) :
    property.name ∈ prepared.keys ↔
      (fieldOf fill record property
        (entity.turnOf fill record property tally)).1.value?.isSome = true := by
  rw [Table.mem_keys_iff, find?_of_prepare held accepted]
  cases (fieldOf fill record property
    (entity.turnOf fill record property tally)).1.value? <;> simp

/-- What is supplied for a property is assigned to it without a fault. -/
theorem assigns_of_prepare {property : Property} {value : Value}
    (held : property ∈ entity.properties.items)
    (accepted : (entity.prepare fill record tally).1 = .ok prepared)
    (supplied : record.find? property.name = some (property.name, value)) :
    (property.assign value).fault? = none := by
  rcases Table.exists_items_eq held with ⟨after, split⟩
  have member := mem_fieldsOf fill record
    (entity.properties.items.takeWhile fun other =>
      decide (other.name ≠ property.name)) after property tally
  rw [← split] at member
  have faultless := (items_of_prepare accepted).1 _ member
  rw [fieldOf, supplied] at faultless
  exact faultless

/-- A prepared record of an entity, made from a record that was supplied. -/
structure Prepares (entity : Entity) (record prepared : Record) : Prop where
  ordered : prepared.keys.Sublist entity.properties.keys
  supplied : ∀ entry ∈ record.items, entry ∈ prepared.items
  writable : ∀ property ∈ entity.properties.items,
    property.name ∈ record.keys → property.isWritable = true

/-- Whatever fills in what is left out, a prepared record has everything that
was supplied. -/
theorem prepares_of_prepare
    (accepted : (entity.prepare fill record tally).1 = .ok prepared) :
    entity.Prepares record prepared := by
  rcases items_of_prepare accepted with ⟨-, known, items⟩
  refine ⟨?_, ?_, ?_⟩
  · rw [Table.keys, items, Table.keys, ← names_fieldsOf fill record _ tally]
    exact names_valuesOf _
  · rintro ⟨name, value⟩ member
    have asked : record.find? name = some (name, value) :=
      Table.find?_eq_some_iff.mpr ⟨member, rfl⟩
    have present : entity.properties.contains name = true := by
      rw [unknownNames, List.filter_eq_nil_iff] at known
      simpa using known name (List.mem_map_of_mem member)
    rw [Table.contains_iff_mem_keys] at present
    rcases List.mem_map.mp present with ⟨property, held, rfl⟩
    have assigned := Property.assign_of_faultless
      (assigns_of_prepare held accepted asked)
    have found := find?_of_prepare held accepted
    rw [fieldOf, asked] at found
    dsimp only at found
    rw [assigned.2] at found
    exact (Table.find?_eq_some found).1
  · intro property held given
    rcases Table.mem_keys_iff.mp given with ⟨⟨name, value⟩, asked⟩
    cases (Table.find?_eq_some asked).2
    exact (Property.assign_of_faultless
      (assigns_of_prepare held accepted asked)).1

/-- What cannot be assigned was left out. -/
theorem Prepares.left_out (prepares : entity.Prepares record prepared)
    {property : Property} (held : property ∈ entity.properties.items)
    (fixed : property.isWritable = false) :
    record.find? property.name = none := by
  refine Table.find?_eq_none_iff.mpr fun given => ?_
  rw [prepares.writable property held given] at fixed
  cases fixed

end Entity

/-! ## What hooks and defaults fill in -/

/-- On create only what can be assigned is filled in. -/
theorem Property.writable_of_fillOnCreate {sources : Sources}
    {property : Property} {tally : Tally}
    (filled : (property.fillOnCreate sources tally).1.value?.isSome = true) :
    property.isWritable = true := by
  unfold fillOnCreate at filled
  split at filled
  · cases filled
  · rename_i writable
    simpa using writable

namespace Resolution.Setting

variable {setting : Setting} {tally : Tally} {place : Place}
  {property : Property}

/-- Of the properties with a hook for updates only collections cannot be
assigned. -/
theorem Stems.collection_of_hook (stems : setting.Stems tally place property)
    (hook : property.onUpdate.isSome = true)
    (fixed : property.isWritable = false) :
    property.isCollection = true := by
  rcases stems.core_cases with
    ⟨declaration, held, -⟩ | ⟨-, synthesis, same⟩
  · have plain : property.synthesized ≠ true := by
      rw [ne_eq, stems.synthesized_iff, held]
      exact nofun
    simpa [Property.isWritable, plain] using fixed
  · -- An inverse that was added has no hook.
    rw [← property.onUpdate_core, same, Property.onUpdate_core] at hook
    cases hook

end Resolution.Setting

/-! ## A magazine -/

/-- A magazine whose articles have a hook for updates on their tags, a
collection. -/
def magazine : Registry :=
  (Registry.registerAll {} [
    { name := "Article"
      properties := .ofList [
        ("id", { Options.typed "integer" with primary := true }),
        ("title", .typed "string"),
        ("tags", { Options.manyToMany (.name "Tag") with
          onUpdate := some ⟨0⟩ })] },
    { name := "Tag"
      properties := .ofList [
        ("id", { Options.typed "integer" with primary := true })] }]).1

/-- The graph of the magazine. -/
def magazineGraph : Graph :=
  match (magazine.finalize shopSources .empty).outcome with
  | .ok graph => graph
  | .error _ => default

theorem reachable_magazine : Registry.Reachable shopSources magazine :=
  (Registry.Reachable.new {}).registerAll _

theorem finalize_magazine :
    (magazine.finalize shopSources .empty).outcome = .ok magazineGraph := by
  have succeeds : (magazine.finalize shopSources .empty).outcome.isOk := by
    decide +kernel
  exact Registry.outcome_of_isOk succeeds

/-! ## Prepared records of a graph -/

/-- A record that is prepared for an entity of a graph follows the order of the
properties and has every pair that was supplied.  On create it holds only what
can be assigned; on update it also holds every collection with a hook, and
nothing else that cannot be assigned. -/
theorem prepared_of_frozen {sources : Sources} {registry : Registry}
    {tally asked : Tally} {graph : Graph} {entity : Entity}
    (reachable : registry.Reachable sources)
    (frozen : (registry.finalize sources tally).outcome = .ok graph)
    (member : entity ∈ graph.entities.items) (record : Record) :
    (∀ prepared, (entity.prepareCreate sources record asked).1 = .ok prepared →
      entity.Prepares record prepared ∧
        ∀ property ∈ entity.properties.items,
          property.name ∈ prepared.keys → property.isWritable = true) ∧
    ∀ prepared, (entity.prepareUpdate sources record asked).1 = .ok prepared →
      entity.Prepares record prepared ∧
        ∀ property ∈ entity.properties.items,
          property.name ∈ prepared.keys ∧ property.isWritable = false ↔
            property.isCollection = true ∧
              property.onUpdate.isSome = true := by
  constructor
  · intro prepared accepted
    have prepares := Entity.prepares_of_prepare accepted
    refine ⟨prepares, fun property held inside => ?_⟩
    rw [Entity.mem_keys_of_prepare held accepted, fieldOf] at inside
    cases left : record.find? property.name with
    | some entry =>
        exact prepares.writable property held (Table.mem_keys_of_find? left)
    | none =>
        rw [left] at inside
        exact Property.writable_of_fillOnCreate inside
  · intro prepared accepted
    have prepares := Entity.prepares_of_prepare accepted
    refine ⟨prepares, fun property held => ?_⟩
    have filled : record.find? property.name = none →
        (property.name ∈ prepared.keys ↔
          property.onUpdate.isSome = true) := by
      intro left
      rw [Entity.mem_keys_of_prepare held accepted, fieldOf, left]
      dsimp only
      rw [Property.value?_fillOnUpdate, Property.renewed?, Option.isSome_map]
    constructor
    · rintro ⟨inside, fixed⟩
      -- What was supplied can be assigned, so a hook filled the property in.
      have hook := (filled (prepares.left_out held fixed)).mp inside
      rcases reachable.run_of_finalize frozen with ⟨earlier, none, entities⟩
      have silent := Resolution.Setting.silent_of_run none
      rw [Resolution.Setting.run_eq] at entities
      rw [entities] at member
      have stems := silent.stems (Entities.property?_of_mem member held)
      exact ⟨stems.collection_of_hook hook fixed, hook⟩
    · rintro ⟨collection, hook⟩
      have fixed : property.isWritable = false := by
        rw [Property.isWritable, collection]
        rfl
      exact ⟨(filled (prepares.left_out held fixed)).mpr hook, fixed⟩

/-- An article that is created has no tags, and an update of it gives tags that
cannot be assigned. -/
theorem prepared_of_frozen_magazine :
    Registry.Reachable shopSources magazine ∧
      (magazine.finalize shopSources .empty).outcome = .ok magazineGraph ∧
      ∃ entity ∈ magazineGraph.entities.items, entity.name = "Article" ∧
      ∃ created changed,
        (entity.prepareCreate shopSources (.ofList [("title", .string "News")])
          .empty).1 = .ok created ∧
        entity.Prepares (.ofList [("title", .string "News")]) created ∧
        (entity.prepareUpdate shopSources (.ofList [("title", .string "News")])
          .empty).1 = .ok changed ∧
        entity.Prepares (.ofList [("title", .string "News")]) changed ∧
        ∃ property ∈ entity.properties.items, property.name = "tags" ∧
          property.name ∈ changed.keys ∧ property.isWritable = false := by
  have present : ∃ entity property created changed,
      magazineGraph.entity? "Article" = some entity ∧
      entity.property? "tags" = some property ∧
      property.isCollection = true ∧ property.onUpdate.isSome = true ∧
      (entity.prepareCreate shopSources (.ofList [("title", .string "News")])
        .empty).1 = .ok created ∧
      (entity.prepareUpdate shopSources (.ofList [("title", .string "News")])
        .empty).1 = .ok changed :=
    ⟨_, _, _, _, rfl, rfl, rfl, rfl, rfl, rfl⟩
  rcases present with ⟨entity, property, created, changed, known, found,
    collection, hook, creates, changes⟩
  rcases Table.find?_eq_some known with ⟨member, named⟩
  rcases Table.find?_eq_some found with ⟨held, called⟩
  rcases @prepared_of_frozen _ _ _ .empty _ _ reachable_magazine
    finalize_magazine member (.ofList [("title", .string "News")]) with
    ⟨create, update⟩
  rcases create created creates with ⟨createdWell, -⟩
  rcases update changed changes with ⟨changedWell, fixed⟩
  exact ⟨reachable_magazine, finalize_magazine, entity, member, named, created,
    changed, creates, createdWell, changes, changedWell, property, held, called,
    (fixed property held).mpr ⟨collection, hook⟩⟩

end EntityCatalog
