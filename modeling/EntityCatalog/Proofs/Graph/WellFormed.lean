import EntityCatalog.Proofs.Entity.Effective
import EntityCatalog.Proofs.Graph.Linked
import EntityCatalog.Proofs.Property.WellFormed
import EntityCatalog.Proofs.Resolution.Stemming

/-!
# Well-formed properties of a graph

The rules for options say what a declared property may be, and every stage of a
resolution keeps to it.  Merging, completion and the addition of inverses leave the
core alone; what is settled by hints and by claims on ownership fits the kinds of
the relations, for whichever reason it is settled (`Scope.Warrants.shape`).  So every
property of a graph is well-formed, be it declared, inherited or added
(`wellFormed_of_frozen`).
-/

namespace EntityCatalog

/-! ## Proposals that fit -/

/-- What is proposed for the sides of a relation of some kind: that it owns, and
perhaps an inverse, or that it does not, and perhaps an owner. -/
def Sides.Proposed (kind : RelationKind) (sides : Sides) : Prop :=
  ∃ owner name, sides = Pairing.sidesNaming owner name ∧
    (kind = .manyToOne → owner = true) ∧ (kind = .oneToMany → owner = false)

/-- Sides that proposals for a declared relation agree on fit its kind. -/
theorem Sides.fits_of_agreed {kind : RelationKind} {initial final : Sides}
    {proposed : Sides → Prop} (lawful : initial.Lawful kind)
    (fitting : ∀ sides, proposed sides → sides.Proposed kind)
    (agreed : initial.Agreed proposed final) : final.Fits kind := by
  have owner : ∀ owns : Bool, initial.owner = owns →
      (∀ sides, proposed sides → sides.owner = owns) → final.owner = owns := by
    intro owns first all
    by_cases given : ∃ sides, proposed sides
    · rcases given with ⟨sides, here⟩
      rw [agreed.owner sides here, all sides here]
    · rw [agreed.untouched (not_exists.mp given), first]
  constructor
  · rintro rfl
    refine ⟨owner true lawful.owner fun sides given => ?_, ?_⟩
    · rcases fitting sides given with ⟨owns, name, rfl, single, -⟩
      rw [single rfl]
      rfl
    · refine Option.eq_none_iff_forall_ne_some.mpr fun name named => ?_
      rcases (agreed.mappedBy name).mp named with first | ⟨sides, given, here⟩
      · rw [lawful.manyToOne rfl] at first
        cases first
      · rcases fitting sides given with ⟨owns, inverse, rfl, single, -⟩
        rw [single rfl] at here
        cases here
  · rintro rfl
    refine ⟨owner false lawful.owner fun sides given => ?_, ?_, ?_⟩
    · rcases fitting sides given with ⟨owns, name, rfl, -, many⟩
      rw [many rfl]
      rfl
    · rcases Option.ne_none_iff_exists'.mp (lawful.oneToMany rfl) with
        ⟨name, named⟩
      rw [(agreed.mappedBy name).mpr (Or.inl named)]
      exact nofun
    · refine Option.eq_none_iff_forall_ne_some.mpr fun name named => ?_
      rcases (agreed.inversedBy name).mp named with
        first | ⟨sides, given, here⟩
      · rw [lawful.noInverse rfl] at first
        cases first
      · rcases fitting sides given with ⟨owns, owning, rfl, -, many⟩
        rw [many rfl] at here
        cases here

namespace Pairing

variable {scope : Scope} {side other : Side}

/-- A many-to-one side can only name an inverse, and a one-to-many side only an
owner. -/
theorem Scope.Hints.hint_of_kind {hint : Hint}
    (hints : scope.Hints hint side other)
    (lawful : side.relation.sides.Lawful side.relation.kind) :
    (side.relation.kind = .manyToOne → hint = .inversedBy) ∧
      (side.relation.kind = .oneToMany → hint = .mappedBy) := by
  have slot := hints.slot
  cases hint with
  | mappedBy =>
      refine ⟨fun single => ?_, fun _ => rfl⟩
      rw [Hint.slot, lawful.manyToOne single] at slot
      cases slot
  | inversedBy =>
      refine ⟨fun _ => rfl, fun many => ?_⟩
      rw [Hint.slot, lawful.noInverse many] at slot
      cases slot

theorem Side.Seeks.kind_ne (seeks : side.Seeks) :
    side.relation.kind ≠ .manyToOne ∧ side.relation.kind ≠ .oneToMany := by
  rcases seeks with kind | kind <;> rw [kind] <;> exact ⟨nofun, nofun⟩

/-- For whichever reason a side is settled, it is settled as its kind demands. -/
theorem Scope.Warrants.shape
    (lawful : ∀ {side : Side}, side.Held scope.entities →
      side.relation.sides.Lawful side.relation.kind)
    {settlement : Settlement} (warrants : scope.Warrants settlement) :
    ∃ side : Side, side.Held scope.entities ∧ settlement.place = side.place ∧
      settlement.sides.Proposed side.relation.kind := by
  cases warrants with
  | @hinted hint side other hints =>
      rcases hints.hint_of_kind (lawful hints.held) with ⟨single, many⟩
      refine ⟨side, hints.held, rfl, _, _, rfl, fun kind => ?_, fun kind => ?_⟩
      · rw [single kind]
        rfl
      · rw [many kind]
        rfl
  | @named hint side other hints =>
      rcases hints.hint_of_kind (lawful hints.held) with ⟨single, many⟩
      have back : side.relation.kind = other.relation.kind.reciprocal := by
        rw [hints.kind, RelationKind.reciprocal_reciprocal]
      refine ⟨other, hints.heldOther, rfl, _, _, rfl, fun kind => ?_,
        fun kind => ?_⟩
      · rw [kind] at back
        rw [many back]
        rfl
      · rw [kind] at back
        rw [single back]
        rfl
  | @answered side other owner sights answer =>
      exact ⟨side, sights.held, rfl, _, _, rfl,
        fun kind => absurd kind sights.seeks.kind_ne.1,
        fun kind => absurd kind sights.seeks.kind_ne.2⟩
  | @alone side held seeks unhinted =>
      exact ⟨side, held, rfl, true, none, rfl,
        fun kind => absurd kind seeks.kind_ne.1,
        fun kind => absurd kind seeks.kind_ne.2⟩
  | @added side target name held seeks registered fresh =>
      exact ⟨side, held, rfl, true, some name, rfl,
        fun kind => absurd kind seeks.kind_ne.1,
        fun kind => absurd kind seeks.kind_ne.2⟩
  | @between side other owner sights claim =>
      exact ⟨side, sights.held, rfl, _, _, rfl,
        fun kind => absurd kind sights.seeks.kind_ne.1,
        fun kind => absurd kind sights.seeks.kind_ne.2⟩

end Pairing

/-! ## Properties in the end -/

/-- Completion leaves the kind and the sides of a relation alone. -/
theorem Completion.exists_relation_of_complete {progress : Completion.Progress}
    {property : Property} {relation : Relation}
    (related : (progress.complete property).relation? = some relation) :
    ∃ before, property.relation? = some before ∧
      relation.kind = before.kind ∧ relation.sides = before.sides := by
  unfold Progress.complete at related
  rcases property with ⟨name, nature⟩
  cases nature with
  | scalar | enumeration => cases related
  | embedded part =>
      dsimp only at related
      split at related <;> cases related
  | relation part =>
      dsimp only at related
      split at related
      all_goals
        cases related
        exact ⟨_, rfl, rfl, rfl⟩

namespace Resolution.Setting

open Pairing

variable {setting : Setting} {tally : Tally} {place : Place}
  {property : Property}

theorem lawful_of_held {side : Side}
    (held : side.Held (setting.scopeAt tally).entities) :
    side.relation.sides.Lawful side.relation.kind :=
  (Entities.lawful_of_declaredAt
    (merges_scopeAt.declared_of_held held.property).1).2.sides _ held.relation

/-- Whatever decisions propose for a relation fits its kind. -/
theorem proposed_of_proposes {relation : Relation} {sides : Sides}
    (held : (setting.scopeAt tally).entities.property? place = some property)
    (related : property.relation? = some relation)
    (proposes : (setting.scopeAt tally).entities.Proposes
      (setting.pairedAt tally).decisions place sides) :
    sides.Proposed relation.kind := by
  rcases proposes with ⟨settlement, member, copy, rfl⟩
  rcases (explained_pairedAt.settles settlement member).shape
    lawful_of_held with ⟨side, there, placed, fits⟩
  have same := copy.same
  rw [held, placed, there.property] at same
  cases same
  rw [there.relation] at related
  cases related
  exact fits

/-- A property of a resolution without defects is well-formed. -/
theorem Silent.wellFormed (silent : setting.Silent tally)
    (held : (setting.entitiesAt tally).property? place = some property) :
    property.WellFormed := by
  cases silent.stems held with
  | declared declaration sides first settled agreed =>
      rcases merges_scopeAt.declared_of_held first with ⟨origin, -⟩
      have lawful := (Entities.lawful_of_declaredAt origin).2
      rcases Entities.exists_options_of_declaredAt origin with
        ⟨schema, options, -, -, read⟩
      rcases Property.exists_nature_of_ofOptions
        (congrArg Except.toOption read) with ⟨nature, passed, declared⟩
      have same : property.core = declaration.core := by
        rw [settled, Completion.core_complete, Property.core_withSides]
      have marked : declaration.Marked :=
        declared ▸ Property.marked_of_passed passed
      refine Property.wellFormed_of_marked (marked.of_core same) ?_
      intro relation related
      rw [settled] at related
      rcases Completion.exists_relation_of_complete related with
        ⟨between, kept, kind, names⟩
      rw [Property.relation?_withSides] at kept
      rcases Option.map_eq_some_iff.mp kept with ⟨before, here, rfl⟩
      rw [kind, names]
      dsimp only
      exact Sides.fits_of_agreed (lawful.sides before here)
        (fun proposal proposes => proposed_of_proposes first here proposes)
        (agreed before here)
  | added synthesis absent member settled =>
      have same : property.core = (Synthesis.property synthesis).core := by
        rw [settled, Completion.core_complete]
      refine Property.wellFormed_of_marked
        ((Property.marked_of_synthesis synthesis).of_core same) ?_
      intro relation related
      rw [settled] at related
      rcases Completion.exists_relation_of_complete related with
        ⟨before, here, kind, names⟩
      cases here
      rw [kind, names]
      exact ⟨nofun, nofun⟩

/-- A declared property has the options that its kind needs. -/
theorem Silent.exists_fits (silent : setting.Silent tally)
    (held : (setting.entitiesAt tally).property? place = some property)
    (declared : property.synthesized = false) :
    ∃ schema options, setting.schemas.find? property.declaredBy = some schema ∧
      schema.properties.find? property.name = some (property.name, options) ∧
      options.Fits property.kind := by
  rcases (silent.stems held).core_cases with
    ⟨declaration, first, same⟩ | ⟨-, synthesis, same⟩
  · rcases Entities.exists_options_of_declaredAt
      (merges_scopeAt.declared_of_held first).1 with
      ⟨schema, options, found, given, read⟩
    rcases Property.toOption_ofOptions_eq_some_iff.mp
      (congrArg Except.toOption read) with ⟨nature, told, passed, built⟩
    have kind : declaration.kind = nature.kind := by
      rw [built]
      cases nature <;> rfl
    rw [← property.declaredBy_core, ← property.name_core, ← property.kind_core,
      same, Property.declaredBy_core, Property.name_core, Property.kind_core,
      kind]
    exact ⟨schema, options, found, given, Options.fits_of_passed told passed⟩
  · rw [← property.synthesized_core, same, Property.synthesized_core]
      at declared
    cases declared

end Resolution.Setting

/-! ## A depot -/

/-- A depot with properties of every kind: crates are in a hall, hold parts in a
stored order, and carry one seal. -/
def depot : Registry :=
  (Registry.registerAll {} [
    { name := "Stock"
      isAbstract := true
      properties := .ofList [
        ("id", { Options.typed "integer" with primary := true }),
        ("state", .enumeration (.literal [.string "full", .string "empty"])),
        ("hall", { Options.manyToOne (.name "Hall") with
          nullable := some true
          deleteRule := some .setNull
          mapToKey := true })] },
    { name := "Crate"
      base := some (.name "Stock")
      properties := .ofList [
        ("size", { Options.embedded (.name "Size") with
          columnPrefix := some "crate_" }),
        ("seal", { Options.oneToOne (.name "Seal") with
          owner := some true
          reference := true }),
        ("parts", { Options.manyToMany (.name "Part") with
          fixedOrder := true })] },
    { name := "Size"
      embeddable := true
      properties := .ofList [("width", .typed "integer")] },
    { name := "Seal"
      properties := .ofList [
        ("code", { Options.typed "string" with primary := true })] },
    { name := "Part"
      properties := .ofList [
        ("id", { Options.typed "integer" with primary := true })] },
    { name := "Hall"
      properties := .ofList [
        ("id", { Options.typed "integer" with primary := true }),
        ("crates", .oneToMany (.name "Crate") "hall")] }]).1

/-- The graph of the depot. -/
def depotGraph : Graph :=
  match (depot.finalize librarySources .empty).outcome with
  | .ok graph => graph
  | .error _ => default

theorem reachable_depot : Registry.Reachable librarySources depot :=
  (Registry.Reachable.new {}).registerAll _

theorem finalize_depot :
    (depot.finalize librarySources .empty).outcome = .ok depotGraph := by
  have succeeds : (depot.finalize librarySources .empty).outcome.isOk := by
    decide +kernel
  exact Registry.outcome_of_isOk succeeds

/-! ## Frozen registries -/

/-- In the graph of a frozen registry every property of every entity is well-formed,
and one that was declared has just the options that its kind needs. -/
theorem wellFormed_of_frozen {sources : Sources} {registry : Registry}
    {tally : Tally} {graph : Graph} {entity : Entity} {property : Property}
    (reachable : registry.Reachable sources)
    (frozen : (registry.finalize sources tally).outcome = .ok graph)
    (member : entity ∈ graph.entities.items)
    (holds : property ∈ entity.properties.items) :
    property.WellFormed ∧
      (property.synthesized = false →
        ∃ schema options,
          registry.schemas.find? property.declaredBy = some schema ∧
          schema.properties.find? property.name =
            some (property.name, options) ∧
          options.Fits property.kind) := by
  rcases reachable.run_of_finalize frozen with ⟨earlier, none, entities⟩
  have silent := Resolution.Setting.silent_of_run none
  rw [Resolution.Setting.run_eq] at entities
  rw [entities] at member
  have held := Entities.property?_of_mem member holds
  exact ⟨silent.wellFormed held, silent.exists_fits held⟩

/-- Crates and parts of the depot hold well-formed properties of all kinds: own and
inherited ones and an inverse that was added. -/
theorem wellFormed_of_frozen_depot :
    Registry.Reachable librarySources depot ∧
      (depot.finalize librarySources .empty).outcome = .ok depotGraph ∧
      (depotGraph.entities.items.flatMap fun entity =>
        entity.properties.items.map fun property =>
          (entity.name, property.origin, property.kind)) = [
        ("Stock", ⟨"Stock", "id"⟩, .scalar),
        ("Stock", ⟨"Stock", "state"⟩, .enumeration),
        ("Stock", ⟨"Stock", "hall"⟩, .relation .manyToOne),
        ("Crate", ⟨"Stock", "id"⟩, .scalar),
        ("Crate", ⟨"Stock", "state"⟩, .enumeration),
        ("Crate", ⟨"Stock", "hall"⟩, .relation .manyToOne),
        ("Crate", ⟨"Crate", "size"⟩, .embedded),
        ("Crate", ⟨"Crate", "seal"⟩, .relation .oneToOne),
        ("Crate", ⟨"Crate", "parts"⟩, .relation .manyToMany),
        ("Size", ⟨"Size", "width"⟩, .scalar),
        ("Seal", ⟨"Seal", "code"⟩, .scalar),
        ("Part", ⟨"Part", "id"⟩, .scalar),
        ("Part", ⟨"Part", "crate_parts"⟩, .relation .manyToMany),
        ("Hall", ⟨"Hall", "id"⟩, .scalar),
        ("Hall", ⟨"Hall", "crates"⟩, .relation .oneToMany)] ∧
      ∀ entity ∈ depotGraph.entities.items,
        ∀ property ∈ entity.properties.items, property.WellFormed := by
  refine ⟨reachable_depot, finalize_depot, by decide +kernel, ?_⟩
  intro entity member property holds
  exact (wellFormed_of_frozen reachable_depot finalize_depot member holds).1

end EntityCatalog
