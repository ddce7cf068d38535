import EntityCatalog.Proofs.Entity.Embedding
import EntityCatalog.Proofs.Entity.Lacking
import EntityCatalog.Proofs.Relation.Traversal
import EntityCatalog.Proofs.Resolution.Stages

/-!
# Where defects are

Defects are found by all stages of a resolution, in declarations, in inherited
copies and in what the resolution adds itself.  Still each of them belongs to a
registered entity.  The property it names is declared by that entity or by one
of its bases, or it is an inverse that was added and points at an entity it may
not point at (`Setting.Located`, `Setting.located_of_mem_collected`).
-/

namespace EntityCatalog.Resolution

open Pairing

namespace Setting

variable {setting : Setting} {tally : Tally} {place : Place}
  {property : Property} {defect : Defect}

/-! ## Places -/

/-- A registered entity or one of its bases declares a property, whether or not
its options fit together. -/
structure Declares (setting : Setting) (tally : Tally) (place : Place) :
    Prop where
  registered : place.entity ∈ setting.schemas.keys
  declared : ∃ schema ∈ setting.schemas.items,
    place.property ∈ schema.properties.keys ∧
      Descends (setting.linkedAt tally).bases.base? place.entity schema.name

/-- A registered entity may get an inverse for a many-to-many relation, at the
second place for that at the first. -/
inductive Adds (setting : Setting) (tally : Tally) : Place → Place → Prop
  | intro {holder : String} {side : Side}
      (inverts : (setting.scopeAt tally).Inverts side)
      (registered : holder ∈ setting.schemas.keys) :
      setting.Adds tally side.place
        ⟨holder, setting.config.inverseNaming.inverseName side.entity.name
          side.property.name⟩

/-- The schema of an entity says that it is only stored inside others. -/
def Embeddable (setting : Setting) (entity : String) : Prop :=
  ∃ schema, setting.schemas.find? entity = some schema ∧
    schema.embeddable = true

/-- The base that the schema of an entity refers to is missed, at least when it
is looked up at some time. -/
def Misses (setting : Setting) (entity : String) (miss : Miss) : Prop :=
  ∃ schema reference, setting.schemas.find? entity = some schema ∧
    schema.base = some reference ∧
    ∃ earlier, (setting.directory.lookUp reference earlier).1 = .error miss

/-- A defect is that of an entity, or of a property that is known to it. -/
inductive Located (setting : Setting) (tally : Tally) : Defect → Prop
  | misused {place : Place} (declared : setting.Declares tally place)
      (misuse : Misuse) :
      setting.Located tally (.configuration place misuse)
  /-- An inverse was added for a relation of an entity that is only stored inside
  others, so that it points there. -/
  | added {source place : Place} (added : setting.Adds tally source place)
      (embeddable : setting.Embeddable source.entity) :
      setting.Located tally
        (.configuration place (.embeddableTarget source.entity))
  | ambiguous {first second : Place} (declared : setting.Declares tally first)
      (other : setting.Declares tally second ∨
        ∃ source, setting.Adds tally source second)
      (ambiguity : Ambiguity) :
      setting.Located tally (.ambiguousOwnership first second ambiguity)
  | dangling {place : Place} (declared : setting.Declares tally place)
      (target name : String) (hint : Hint) :
      setting.Located tally (.danglingHint place target name hint)
  | otherKind {place : Place} (declared : setting.Declares tally place)
      (kind : RelationKind) (other : Place) (otherKind : PropertyKind) :
      setting.Located tally
        (.kindMismatch place (.relation kind) other otherKind)
  | otherTarget {place : Place} (declared : setting.Declares tally place)
      (other : Place) (found : String) :
      setting.Located tally (.targetMismatch place other found)
  | missed {place : Place} (declared : setting.Declares tally place)
      (miss : Miss) :
      setting.Located tally (miss.targetDefect place)
  | base {entity : String} {miss : Miss} (misses : setting.Misses entity miss) :
      setting.Located tally (miss.baseDefect entity)
  | cycle {entity : String} (registered : entity ∈ setting.schemas.keys)
      (chain : List String) :
      setting.Located tally (.inheritanceCycle entity chain)
  | key {entity : String} (registered : entity ∈ setting.schemas.keys) :
      setting.Located tally (.missingPrimaryKey entity)

theorem base?_scopeAt :
    (setting.scopeAt tally).entities.base? =
      (setting.linkedAt tally).bases.base? :=
  (Bases.forest_link rfl tally).base?_ofSchemas

theorem declares_of_own (declared : setting.own place = some property) :
    setting.Declares tally place := by
  rcases Option.bind_eq_some_iff.mp declared with ⟨schema, found, own⟩
  rcases Option.bind_eq_some_iff.mp own with ⟨entry, listed, -⟩
  refine ⟨Table.mem_keys_of_find? found, schema,
    (Table.find?_eq_some found).1, Table.mem_keys_of_find? listed, ?_⟩
  rw [(Table.find?_eq_some found).2]
  exact .refl _

theorem Declares.below {lower : String}
    (declares : setting.Declares tally place)
    (registered : lower ∈ setting.schemas.keys)
    (climb : Descends (setting.linkedAt tally).bases.base? lower
      place.entity) :
    setting.Declares tally ⟨lower, place.property⟩ := by
  rcases declares.declared with ⟨schema, member, named, above⟩
  exact ⟨registered, schema, member, named, climb.trans above⟩

/-- What an entity holds is declared by it or a base. -/
theorem declares_of_held
    (held : (setting.scopeAt tally).entities.property? place =
      some property) :
    setting.Declares tally place := by
  rcases merges_scopeAt.declared_of_held held with ⟨declared, named, climb⟩
  have registered := Entities.mem_keys_of_property? held
  rw [keys_scopeAt] at registered
  rw [base?_scopeAt] at climb
  have here : setting.Declares tally ⟨place.entity, property.name⟩ :=
    (declares_of_own declared).below registered climb
  rw [named] at here
  exact here

/-! ## Defects of pairing -/

theorem declares_place {side : Side}
    (held : side.Held (setting.scopeAt tally).entities) :
    setting.Declares tally side.place :=
  declares_of_held held.property

theorem declares_origin {side : Side}
    (held : side.Held (setting.scopeAt tally).entities) :
    setting.Declares tally side.property.origin :=
  declares_of_own (merges_scopeAt.declared_of_held held.property).1

theorem Adds.declares {source : Place} (adds : setting.Adds tally source place) :
    setting.Declares tally source ∧ place.entity ∈ setting.schemas.keys := by
  cases adds with
  | intro inverts registered => exact ⟨declares_place inverts.held, registered⟩

theorem located_of_faults {findings : Findings}
    (faults : (setting.scopeAt tally).Faults findings defect) :
    setting.Located tally defect := by
  cases faults with
  | missed held miss => exact .missed (declares_origin held) miss
  | misused held misuse => exact .misused (declares_place held) misuse
  | dangling refers absent kept hint =>
      exact .dangling (declares_place refers.held) _ _ hint
  | mistaken refers named mistakes =>
      cases mistakes with
      | kind differs => exact .otherKind (declares_place refers.held) _ _ _
      | target related reciprocal known apart =>
          exact .otherTarget (declares_place refers.held) _ _
  | conflict held heldOther ambiguity =>
      have first := declares_origin held
      have second := declares_origin heldOther
      unfold Defect.conflict
      split
      · exact .ambiguous first (Or.inl second) ambiguity
      · exact .ambiguous second (Or.inl first) ambiguity

/-! ## Defects of settling -/

theorem located_of_clash {decision : Decision}
    (grounded : (setting.scopeAt tally).Grounded decision)
    (clash : Settlement.Clash (setting.scopeAt tally).entities decision
      defect) :
    setting.Located tally defect := by
  cases clash with
  | settle registered below ambiguity =>
      rw [keys_scopeAt] at registered
      rw [base?_scopeAt] at below
      cases grounded with
      | settle held sides named =>
          refine .ambiguous ((declares_place held).below registered below) ?_
            ambiguity
          cases named with
          | held heldSource => exact Or.inl (declares_place heldSource)
          | inverse inverts registered =>
              exact Or.inr ⟨_, .intro inverts (keys_scopeAt ▸ registered)⟩
  | synthesize =>
      cases grounded with
      | synthesize inverts registered =>
          exact .misused (declares_place inverts.held) _

/-! ## Defects of completion and embedding -/

/-- A property that is settled at its origin is declared there or was added. -/
theorem own_or_added
    (held : (setting.settledAt tally).entities.property? property.origin =
      some property) :
    (∃ before sides, setting.own property.origin = some before ∧
        property = before.withSides sides) ∨
      ∃ (synthesis : Synthesis) (sides : Sides),
        setting.own property.origin = none ∧
          setting.Adds tally synthesis.source property.origin ∧
          property = synthesis.property.withSides sides := by
  rcases settledAt_cases held with
    ⟨before, sides, earlier, rfl⟩ | ⟨absent, synthesis, sides, member, rfl⟩
  · rw [Property.origin_withSides]
    exact Or.inl ⟨before, sides,
      (merges_scopeAt.declared_of_held earlier).1, rfl⟩
  · refine Or.inr ⟨synthesis, sides, ?_, ?_, rfl⟩
    · cases declared : setting.own (synthesis.property.withSides sides).origin
        with
      | none => rfl
      | some other =>
          rw [merges_scopeAt.held_of_declared declared] at absent
          cases absent
    · rw [Property.origin_withSides]
      cases accounted_pairedAt.decisions _ member with
      | synthesize inverts registered =>
          exact .intro inverts (keys_scopeAt ▸ registered)

/-- Nothing is lacking in an inverse that was added. -/
theorem located_of_lacks
    (held : (setting.settledAt tally).entities.property? property.origin =
      some property)
    (lacks : Completion.Lacks property defect) :
    setting.Located tally defect := by
  rcases own_or_added held with
    ⟨before, sides, declared, -⟩ | ⟨synthesis, sides, -, -, rfl⟩
  · cases lacks with
    | items enumerated misuse => exact .misused (declares_of_own declared) _
    | target pointed unknown miss => exact .missed (declares_of_own declared) _
  · cases lacks with
    | items enumerated misuse =>
        rw [Property.enumeration?_withSides] at enumerated
        cases enumerated
    | target pointed unknown miss =>
        rw [Property.target?_withSides] at pointed
        cases pointed
        cases unknown

/-- Nothing is found out about a place where nothing is declared. -/
theorem target?_visitedAt (absent : setting.own place = none) :
    (setting.visitedAt tally).findings.target? place = none := by
  have apart : ∀ {other : Property} {asked : Place},
      (setting.scopeAt tally).entities.property? asked = some other →
        other.origin ≠ place := by
    rintro other asked held rfl
    rw [(merges_scopeAt.declared_of_held held).1] at absent
    cases absent
  have paired : (setting.pairedAt tally).findings.target? place = none := by
    refine @Scope.kept_run (setting.scopeAt tally)
      (fun findings => findings.target? place = none) ?_ _ rfl
    intro asked property relation held _ findings unknown
    rw [Findings.target?_force fun here => absurd here (apart held)]
    exact unknown
  rw [visitedAt, Completion.run, Completion.target?_visitAll]
  · exact paired
  · intro property own target pointed here
    rcases settledAt_cases (Entities.mem_ownProperties_iff.mp own) with
      ⟨before, sides, earlier, rfl⟩ | ⟨-, synthesis, sides, -, rfl⟩
    · rw [Property.origin_withSides] at here
      exact absurd here (apart earlier)
    · rw [Property.target?_withSides] at pointed
      cases pointed
      exact Option.some_ne_none _

/-- An entity that is only stored inside others is one by its schema. -/
theorem embeddable_of_find? {name : String} {entity : Entity}
    (found : (setting.entitiesAt tally).find? name = some entity)
    (embeddable : entity.embeddable = true) :
    setting.Embeddable entity.name := by
  have same := (@alike_entitiesAt setting tally).find? name
  rw [found, show (setting.scopeAt tally).entities.find? name = _ from
    Entities.find?_ofSchemas _ _ name] at same
  rcases (Table.find?_eq_some found).2 with rfl
  cases registered : setting.schemas.find? entity.name with
  | none =>
      rw [registered] at same
      cases same
  | some schema =>
      rw [registered] at same
      have marks := (Entity.marks_of_bare (Option.some.inj same)).2.1
      exact ⟨schema, registered, marks.symm.trans embeddable⟩

/-- What is wrong with the target of a property belongs to its declaration, or to
that of the relation for which it was added. -/
theorem located_of_own {entity target : Entity}
    (member : entity ∈ (setting.entitiesAt tally).items)
    (owned : property ∈ entity.ownProperties)
    (known : property.targetName?.bind (setting.entitiesAt tally).find? =
      some target)
    (misuse : Misuse)
    (plain : property.isEmbedded = false → target.embeddable = true ∧
      misuse = .embeddableTarget target.name) :
    setting.Located tally
      (.configuration (entity.place property) misuse) := by
  rcases List.mem_filter.mp owned with ⟨holds, here⟩
  have origin : entity.place property = property.origin := by
    rw [Entity.place, Property.origin, of_decide_eq_true here]
  have held := Entities.property?_of_mem member holds
  rw [entitiesAt, Entities.property?_index, Entities.property?_complete,
    origin] at held
  rcases Option.map_eq_some_iff.mp held with ⟨before, kept, rfl⟩
  rw [Completion.origin_complete] at kept
  rw [origin, Completion.origin_complete]
  rcases own_or_added kept with
    ⟨first, sides, declared, -⟩ | ⟨synthesis, sides, absent, added, rfl⟩
  · exact .misused (declares_of_own declared) misuse
  · have related : Property.isEmbedded ((setting.visitedAt tally).complete
        (synthesis.property.withSides sides)) = false := by
      rw [Property.isEmbedded, Completion.kind_complete,
        Property.kind_withSides]
      rfl
    have pointed : (synthesis.property.withSides sides).target? =
        some ⟨.name synthesis.source.entity, some synthesis.source.entity⟩ := by
      rw [Property.target?_withSides]
      rfl
    -- Nothing was found out about the inverse, so it points where it was made to.
    rw [Completion.targetName?_complete _ pointed,
      target?_visitedAt absent] at known
    rcases plain related with ⟨embeddable, rfl⟩
    have found : (setting.entitiesAt tally).find? synthesis.source.entity =
        some target :=
      known
    have named := (Table.find?_eq_some found).2
    have stored := embeddable_of_find? found embeddable
    rw [named] at stored ⊢
    exact .added added stored

theorem located_of_embedding
    (member : defect ∈ (setting.entitiesAt tally).embeddingDefects) :
    setting.Located tally defect := by
  rcases Entities.exists_ownTarget_of_mem_embeddingDefects member with
    ⟨entity, property, target, misuse, inside, rfl, plain⟩
  rcases List.mem_flatMap.mp inside with ⟨other, item, here⟩
  rcases List.mem_filterMap.mp here with ⟨own, listed, found⟩
  rcases Option.map_eq_some_iff.mp found with ⟨_, known, same⟩
  cases same
  exact located_of_own item listed known misuse plain

/-! ## All defects -/

/-- Every defect that is collected is that of a registered entity or of a property
that is known to it. -/
theorem located_of_mem_collected
    (member : defect ∈ setting.collected tally) :
    setting.Located tally defect := by
  rcases mem_collected_iff.mp member with
    ⟨place, misuse, inside, rfl⟩ | linked | paired | settled | visited |
      embedding | keys
  · rcases mem_misuses_iff.mp inside with
      ⟨schema, registered, options, declared, same, -⟩
    refine .misused ⟨?_, schema, registered, ?_, ?_⟩ misuse
    · rw [← same]
      exact List.mem_map_of_mem registered
    · exact List.mem_map_of_mem declared
    · rw [same]
      exact .refl _
  · rcases Bases.exists_schema_of_mem_defects rfl linked with
      ⟨schema, inside, ⟨reference, earlier, miss, refers, missed, rfl⟩ |
        ⟨chain, rfl⟩⟩
    · exact .base ⟨schema, reference, Table.find?_key inside, refers, earlier,
        missed⟩
    · exact .cycle (List.mem_map_of_mem inside) chain
  · exact located_of_faults (accounted_pairedAt.defects defect paired)
  · rcases preserves_settledAt.clashes defect settled with
      ⟨decision, made, clash⟩
    exact located_of_clash (accounted_pairedAt.decisions decision made) clash
  · rcases Completion.lacks_of_run visited with ⟨property, held, lacks⟩
    exact located_of_lacks held lacks
  · exact located_of_embedding embedding
  · unfold keyDefectsAt at keys
    split at keys
    · rcases List.mem_map.mp keys with ⟨entity, inside, rfl⟩
      have registered : entity.name ∈ (setting.entitiesAt tally).keys :=
        List.mem_map_of_mem (List.mem_filter.mp inside).1
      exact .key (keys_entitiesAt ▸ registered)
    · cases keys

end Setting

end EntityCatalog.Resolution
