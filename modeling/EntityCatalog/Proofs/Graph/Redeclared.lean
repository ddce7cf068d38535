import EntityCatalog.Proofs.Graph.Involution
import EntityCatalog.Proofs.Property.Redeclared
import EntityCatalog.Proofs.Relation.Matched

/-!
# Schemas declared as they were resolved

What a graph settled can be declared (`Graph.redeclare`): a relation declares
the sides that it came to have and says nothing of ownership, and what was added
is declared after all else.  Without bases the schemas then declare what was
settled, in the same order, as it is before pairing
(`Graph.Resolved.own_redeclared`).
-/

namespace EntityCatalog

open Pairing Resolution

namespace Graph

/-- The options of a property as the graph resolved it. -/
def redeclareOptions (graph : Graph) (place : Place) (options : Options) :
    Options :=
  match graph.property? place with
  | none => options
  | some property => options.redeclared property

/-- The declarations of what was added to an entity, in order. -/
def addedOptions (graph : Graph) (entity : String) :
    List (String × Options) :=
  (((graph.entity? entity).map (·.select (·.synthesized))).getD []).map
    fun property => (property.name, property.declaration)

/-- The schema as the graph resolved it: its own declarations and after them
those of what was added. -/
def redeclare (graph : Graph) (schema : Schema) : Schema :=
  { schema with
    properties := (schema.properties.map
      (fun (name, options) =>
        (name, graph.redeclareOptions ⟨schema.name, name⟩ options))
      fun _ => rfl).insertAll (graph.addedOptions schema.name) }

@[simp]
theorem name_redeclare (graph : Graph) (schema : Schema) :
    (graph.redeclare schema).name = schema.name :=
  rfl

/-- The added properties of an entity have different names. -/
theorem nodup_addedOptions (graph : Graph) (entity : String) :
    ((graph.addedOptions entity).map Prod.fst).Nodup := by
  rw [addedOptions, List.map_map]
  cases graph.entity? entity with
  | none => exact List.nodup_nil
  | some found => exact (found.properties.filter (·.synthesized)).distinct

/-- Under a name an added property is declared, if the graph holds one. -/
theorem find?_addedOptions (graph : Graph) (place : Place) :
    ((graph.addedOptions place.entity).find? fun entry =>
        decide (entry.1 = place.property)) =
      ((graph.property? place).filter (·.synthesized)).map fun property =>
        (property.name, property.declaration) := by
  rw [addedOptions, List.find?_map, property?, Entities.property?, entity?]
  cases graph.entities.find? place.entity with
  | none => rfl
  | some found =>
      exact congrArg _ (found.properties.find?_filter (·.synthesized)
        place.property)

end Graph

/-- What a resolution starts from, with schemas as a graph resolved them. -/
def Resolution.Setting.redeclared (setting : Setting) (graph : Graph) :
    Setting :=
  { setting with
    schemas := setting.schemas.map graph.redeclare graph.name_redeclare }

namespace Resolution.Setting

variable (setting : Setting) (graph : Graph)

theorem keys_redeclared :
    (setting.redeclared graph).schemas.keys = setting.schemas.keys :=
  Table.keys_map _ _ graph.name_redeclare

/-- References are looked up as before. -/
theorem directory_redeclared :
    (setting.redeclared graph).directory = setting.directory :=
  congrArg (Directory.mk setting.sources setting.config.maxDeferredDepth)
    (setting.keys_redeclared graph)

variable {setting} in
theorem Baseless.redeclared (baseless : setting.Baseless) :
    (setting.redeclared graph).Baseless := by
  intro other member
  rcases List.mem_map.mp member with ⟨schema, inside, rfl⟩
  exact baseless schema inside

end Resolution.Setting

/-- Entities keep their names and marks. -/
theorem Resolution.Setting.Baseless.alike_redeclared {setting : Setting}
    (baseless : setting.Baseless) (graph : Graph) :
    (setting.redeclared graph).merged.Alike setting.merged := by
  have base : (Bases.ofSchemas (setting.redeclared graph).directory
      (setting.redeclared graph).schemas.items).base? =
        (Bases.ofSchemas setting.directory setting.schemas.items).base? := by
    funext entity
    rw [baseless.base?_eq_none, (baseless.redeclared graph).base?_eq_none]
  have items : (setting.redeclared graph).schemas.items =
      setting.schemas.items.map graph.redeclare :=
    rfl
  rw [Entities.Alike, merged, merged, Entities.ofSchemas, Entities.ofSchemas,
    List.map_map, List.map_map, items, List.map_map]
  refine List.map_congr_left fun schema _ => ?_
  have same := congrFun base schema.name
  simp only [Function.comp_apply, Entity.bare, Entity.ofSchema,
    Graph.name_redeclare, ← items, same]
  rfl

/-- What is declared at a place: an inverse that was added there, else what
was declared before, as the graph resolved it. -/
theorem Resolution.Setting.own_redeclared_of_find? {setting : Setting}
    {place : Place} {schema : Schema}
    (found : setting.schemas.find? place.entity = some schema)
    (graph : Graph) :
    (setting.redeclared graph).own place =
      ((((graph.property? place).filter (·.synthesized)).map fun property =>
          (property.name, property.declaration)).or
        ((schema.properties.find? place.property).map fun entry =>
          (entry.1,
            graph.redeclareOptions ⟨place.entity, entry.1⟩ entry.2))).bind
        fun entry =>
          (Property.ofOptions place.entity entry.1 entry.2).toOption := by
  have named := (Table.find?_eq_some found).2
  rw [own, Entities.declaredAt, redeclared, Table.find?_map, found,
    Option.map_some, Option.bind_some, Schema.property?, Graph.redeclare,
    Table.find?_insertAll _ _ (graph.nodup_addedOptions schema.name), named,
    graph.find?_addedOptions, Table.find?_map]

/-! ## Sides -/

theorem Directory.sides_link (directory : Directory) (property : Property) :
    (directory.link property).relation?.map (·.sides) =
      property.relation?.map (·.sides) := by
  unfold Directory.link
  split
  · rfl
  · split
    · rw [Property.relation?_withTarget, Option.map_map]
      rfl
    · rfl

/-- The sides that a relation came to have can be declared. -/
theorem Pairing.Scope.Cleared.lawful_declared {scope : Scope}
    {own : Place → Option Property} (cleared : scope.Cleared own)
    {side : Side} (held : side.Held scope.entities) {final : Sides}
    (agreed : side.relation.sides.Agreed (scope.Proposed side.place) final) :
    (final.declared side.relation.kind).Lawful side.relation.kind := by
  have lawful := cleared.lawful_side held
  have settled := cleared.settled held agreed
  have mapped : side.relation.kind = .oneToMany → final.mappedBy ≠ none := by
    intro kind
    rcases Option.ne_none_iff_exists'.mp (lawful.oneToMany kind) with
      ⟨name, named⟩
    rw [(agreed.mappedBy name).mpr (Or.inl named)]
    exact nofun
  have unmapped := cleared.mappedBy_of_manyToOne held agreed
  refine ⟨rfl, unmapped, mapped, ?_, ?_⟩
  · intro kind
    refine settled.inverse (eq_false_of_ne_true fun owner => ?_)
    exact mapped kind (settled.owner.mp owner)
  · cases owner : final.owner with
    | true => exact Or.inl (settled.owner.mp owner)
    | false => exact Or.inr (settled.inverse owner)

namespace Graph.Resolved

variable {graph : Graph} {setting : Setting} (resolved : graph.Resolved setting)

include resolved

/-- What neither targets nor the items of enums show, is as it was settled. -/
theorem map_eq {Result : Type} (read : Property → Result)
    (plain : ∀ property, read property.outline = read property)
    (linked : ∀ property,
      read (setting.directory.link property) = read property)
    (place : Place) :
    (graph.property? place).map read =
      (setting.settled.property? place).map read := by
  have outlines := congrArg (Option.map read) (resolved.outline place)
  simpa only [Option.map_map, Function.comp_def, plain, linked] using outlines

theorem sides_eq (place : Place) :
    (graph.property? place).map (·.relation?.map (·.sides)) =
      (setting.settled.property? place).map (·.relation?.map (·.sides)) :=
  resolved.map_eq _ (fun property => by rw [Property.relation?_outline])
    setting.directory.sides_link place

theorem synthesized_eq (place : Place) :
    (graph.property? place).map (·.synthesized) =
      (setting.settled.property? place).map (·.synthesized) :=
  resolved.map_eq _ Property.synthesized_outline
    setting.directory.synthesized_link place

/-! ## Declarations -/

variable (baseless : setting.Baseless)

include baseless

/-- What was declared before is declared as it was settled. -/
theorem own_redeclared_of_own {place : Place} {property : Property}
    (declared : setting.own place = some property) :
    (setting.redeclared graph).own place =
      (setting.settled.property? place).map Property.redeclared := by
  have held := baseless.property?_merged place
  rw [declared] at held
  rcases resolved.sound.carried.held place property held with
    ⟨sides, kept, agreed⟩
  rw [show setting.settled.property? place = _ from kept, Option.map_some]
  -- The graph shows the property with the same sides, not marked as added.
  have shown := resolved.sides_eq place
  have marked := resolved.synthesized_eq place
  rw [show setting.settled.property? place = _ from kept, Option.map_some]
    at shown marked
  rcases Option.map_eq_some_iff.mp shown with ⟨other, found, shown⟩
  have lawful := (Entities.lawful_of_declaredAt declared).2
  rw [found, Option.map_some, Option.some.injEq, Property.synthesized_withSides,
    lawful.declared] at marked
  rcases Option.bind_eq_some_iff.mp declared with ⟨schema, member, declares⟩
  rcases Option.bind_eq_some_iff.mp declares with ⟨entry, given, read⟩
  rw [Setting.own_redeclared_of_find? member, found, given,
    Option.filter_some_neg (by rw [marked])]
  rw [(Table.find?_eq_some member).2] at read
  have options : graph.redeclareOptions ⟨place.entity, entry.1⟩ entry.2 =
      entry.2.redeclared other := by
    rw [(Table.find?_eq_some given).2, Graph.redeclareOptions, found]
  refine (congrArg (fun options => (Property.ofOptions place.entity entry.1
    options).toOption) options).trans ?_
  refine Property.ofOptions_redeclared read ?_ shown
  intro relation related
  rcases exists_side_of_property? held related with ⟨entity, -, side, here⟩
  exact resolved.sound.cleared.lawful_declared side (here ▸ agreed _ related)

/-- Where nothing was declared before, what was added is declared. -/
theorem own_redeclared_of_not_own {place : Place} {schema : Schema}
    (member : setting.schemas.find? place.entity = some schema)
    (undeclared : setting.own place = none) :
    (setting.redeclared graph).own place =
      (setting.settled.property? place).map Property.redeclared := by
  have sound := resolved.sound
  have absent : schema.properties.find? place.property = none := by
    refine Option.eq_none_iff_forall_ne_some.mpr fun entry given => ?_
    have fits := List.flatMap_eq_nil_iff.mp sound.fits schema
      (Table.find?_eq_some member).1
    rcases Schema.exists_read fits (Table.find?_eq_some given).1 with
      ⟨property, read⟩
    rw [Setting.own, Entities.declaredAt, member, Option.bind_some,
      Schema.property?, given, Option.bind_some, read] at undeclared
    cases undeclared
  have fresh := sound.carried.fresh place
    (by
      rw [Setting.merged, Entities.keys_ofSchemas]
      exact Table.mem_keys_of_find? member)
    ((baseless.property?_merged place).trans undeclared)
  have marked := resolved.synthesized_eq place
  rw [Setting.own_redeclared_of_find? member, absent]
  cases covered : (syntheses setting.scope.decisions).find?
      (·.covers setting.merged place) with
  | none =>
      rw [covered] at fresh
      rw [show setting.settled.property? place = _ from fresh] at marked ⊢
      rw [Option.map_eq_none_iff.mp marked]
      rfl
  | some synthesis =>
      rw [covered] at fresh
      rw [show setting.settled.property? place = _ from fresh] at marked ⊢
      have here : synthesis.place = place := by
        rcases Synthesis.covers_iff.mp (List.find?_some covered) with
          ⟨name, within⟩
        exact congrArg₂ Place.mk
          (baseless.flat.eq_of_isWithin within).symm name
      rcases resolved.exists_added (List.mem_of_find?_eq_some covered) with
        ⟨added, found, outline⟩
      rw [here] at found
      rw [found] at marked ⊢
      rw [Option.filter_some_pos (Option.some.inj marked)]
      have name : added.name = synthesis.name := by
        rw [← Property.name_outline, outline]
        rfl
      have aims : added.targetName? = some synthesis.source.entity := by
        rw [Property.targetName?, ← Property.target?_outline, outline]
        rfl
      have mapped : added.mappedBy? = some synthesis.source.property := by
        rw [Property.mappedBy?, ← Property.relation?_outline, outline]
        rfl
      rw [← here]
      exact (congrArg (fun name => (Property.ofOptions synthesis.holder name
        added.declaration).toOption) name).trans
          (Property.ofOptions_declaration synthesis aims mapped)

/-- The schemas as they were resolved declare what was settled. -/
theorem own_redeclared (place : Place) :
    (setting.redeclared graph).own place =
      (setting.settled.property? place).map Property.redeclared := by
  cases declared : setting.own place with
  | some property => exact resolved.own_redeclared_of_own baseless declared
  | none =>
      cases member : setting.schemas.find? place.entity with
      | some schema =>
          exact resolved.own_redeclared_of_not_own baseless member declared
      | none =>
          have unregistered : place.entity ∉ setting.settled.keys := by
            rw [Setting.settled, resolved.sound.carried.alike.keys,
              Setting.merged, Entities.keys_ofSchemas]
            exact Table.find?_eq_none_iff.mp member
          have missing : setting.settled.property? place = none :=
            Option.eq_none_iff_forall_ne_some.mpr fun _ held =>
              unregistered (Entities.mem_keys_of_property? held)
          rw [missing, Setting.own, Entities.declaredAt, Setting.redeclared,
            Table.find?_map, member]
          rfl

end Graph.Resolved

/-! ## Order -/

/-- What is declared as added are the properties that are marked so. -/
theorem Graph.names_addedOptions (graph : Graph) (entity : String) :
    (graph.addedOptions entity).map Prod.fst =
      (graph.entities.propertyNames entity).filter fun name =>
        (graph.property? ⟨entity, name⟩).any (·.synthesized) := by
  rw [addedOptions, List.map_map, entity?]
  cases found : graph.entities.find? entity with
  | none =>
      rw [Entities.propertyNames, found]
      rfl
  | some holder =>
      rw [Entities.propertyNames_of_find? found, Table.keys, List.filter_map]
      have marked : ∀ property ∈ holder.properties.items,
          property.synthesized =
            (graph.property? ⟨entity, property.name⟩).any (·.synthesized) := by
        intro property member
        rw [Graph.property?, Entities.property?, found, Option.bind_some,
          Entity.property?, Table.find?_key member]
        rfl
      exact congrArg (List.map Property.name) (List.filter_congr marked)

namespace Graph.Resolved

variable {graph : Graph} {setting : Setting} (resolved : graph.Resolved setting)

include resolved

theorem propertyNames_eq (entity : String) :
    graph.entities.propertyNames entity =
      setting.settled.propertyNames entity := by
  rcases resolved.entities with ⟨findings, -, -, entities⟩
  rw [entities, Setting.result, Entities.propertyNames_index,
    Entities.propertyNames_complete]

/-- What the graph marks as added is what was not held before pairing. -/
theorem synthesized_iff (place : Place) :
    (graph.property? place).any (·.synthesized) = true ↔
      setting.merged.property? place = none ∧
        ∃ property, setting.settled.property? place = some property := by
  have same := resolved.synthesized_eq place
  cases kept : setting.settled.property? place with
  | none =>
      rw [kept] at same
      rw [Option.map_eq_none_iff.mp same]
      simp
  | some property =>
      rw [kept] at same
      rcases Option.map_eq_some_iff.mp same with ⟨shown, found, marked⟩
      rw [found, Option.any_some, marked]
      rcases resolved.sound.settled_cases kept with
        ⟨before, sides, held, rfl, -⟩ | ⟨absent, synthesis, -, -, rfl⟩
      · have declared := (resolved.sound.merges.declared_of_held held).1
        have lawful := (Entities.lawful_of_declaredAt declared).2
        simp [lawful.declared, held]
      · exact iff_of_true rfl ⟨absent, _, rfl⟩

variable (baseless : setting.Baseless)

include baseless

/-- What was added to an entity comes after all that it declares. -/
theorem propertyNames_settled {name : String} {schema : Schema}
    (found : setting.schemas.find? name = some schema) :
    setting.settled.propertyNames name =
      schema.properties.keys ++ (graph.addedOptions name).map Prod.fst := by
  have declared := baseless.propertyNames_merged resolved.sound.fits found
  rcases Settlement.prefix_carryOut setting.merged setting.scope.decisions
    name with ⟨rest, split⟩
  change _ = setting.settled.propertyNames name at split
  have distinct := setting.settled.nodup_propertyNames name
  rw [declared] at split
  rw [← split] at distinct
  -- What was declared is not marked as added, and all else is.
  have unmarked : ∀ asked ∈ schema.properties.keys,
      ¬ (graph.property? ⟨name, asked⟩).any (·.synthesized) = true := by
    intro asked member added
    rw [← declared] at member
    rcases Entities.mem_propertyNames_iff.mp member with ⟨property, held⟩
    rw [((resolved.synthesized_iff _).mp added).1] at held
    cases held
  have marked : ∀ asked ∈ rest,
      (graph.property? ⟨name, asked⟩).any (·.synthesized) = true := by
    intro asked member
    refine (resolved.synthesized_iff _).mpr ⟨?_, ?_⟩
    · refine Option.eq_none_iff_forall_ne_some.mpr fun property held => ?_
      have before := Entities.mem_propertyNames_iff.mpr ⟨property, held⟩
      rw [declared] at before
      exact (List.nodup_append.mp distinct).2.2 asked before asked member rfl
    · refine Entities.mem_propertyNames_iff.mp ?_
      rw [← split]
      exact List.mem_append_right _ member
  rw [graph.names_addedOptions, resolved.propertyNames_eq, ← split,
    List.filter_append, List.filter_eq_nil_iff.mpr unmarked,
    List.filter_eq_self.mpr marked, List.nil_append]

/-- The schemas as they were resolved declare the names that were settled, in
order. -/
theorem keys_redeclare {name : String} {schema : Schema}
    (found : setting.schemas.find? name = some schema) :
    (graph.redeclare schema).properties.keys =
      setting.settled.propertyNames name := by
  have names := resolved.propertyNames_settled baseless found
  have distinct := setting.settled.nodup_propertyNames name
  rw [names] at distinct
  rw [names, Graph.redeclare, (Table.find?_eq_some found).2, Table.keys,
    Table.items_insertAll_of_fresh (graph.nodup_addedOptions name),
    List.map_append]
  · exact congrArg (· ++ _) (Table.keys_map ..)
  · intro entry member present
    rw [Table.keys_map] at present
    exact (List.nodup_append.mp distinct).2.2 _ present _
      (List.mem_map_of_mem member) rfl

/-- All options of the schemas as they were resolved fit together. -/
theorem fits_redeclared :
    (setting.redeclared graph).schemas.items.flatMap Schema.misuses = [] := by
  refine List.flatMap_eq_nil_iff.mpr fun other member => ?_
  rcases List.mem_map.mp member with ⟨schema, inside, rfl⟩
  have found := Table.find?_key inside
  refine Schema.misuses_eq_nil_iff.mpr fun name options given => ?_
  have present := Table.mem_keys_of_find? given
  rw [resolved.keys_redeclare baseless found] at present
  rcases Entities.mem_propertyNames_iff.mp present with ⟨property, kept⟩
  have declared := resolved.own_redeclared baseless ⟨schema.name, name⟩
  rw [kept, Setting.own, Entities.declaredAt, Setting.redeclared,
    Table.find?_map, found, Option.map_some, Option.bind_some,
    Schema.property?, given] at declared
  exact ⟨_, declared⟩

/-- Entities hold the names that were settled, in order. -/
theorem propertyNames_redeclared (entity : String) :
    (setting.redeclared graph).merged.propertyNames entity =
      setting.settled.propertyNames entity := by
  cases found : setting.schemas.find? entity with
  | none =>
      have missing := Table.find?_eq_none_iff.mp found
      rw [Entities.propertyNames_eq_nil, Entities.propertyNames_eq_nil]
      · rw [Setting.settled, resolved.sound.carried.alike.keys, Setting.merged,
          Entities.keys_ofSchemas]
        exact missing
      · rw [Setting.merged, Entities.keys_ofSchemas, setting.keys_redeclared]
        exact missing
  | some schema =>
      have there : (setting.redeclared graph).schemas.find? entity =
          some (graph.redeclare schema) := by
        rw [Setting.redeclared, Table.find?_map, found, Option.map_some]
      rw [(baseless.redeclared graph).propertyNames_merged
        (resolved.fits_redeclared baseless) there,
        resolved.keys_redeclare baseless found]

end Graph.Resolved

end EntityCatalog
