import EntityCatalog.Entity.Preparation
import EntityCatalog.Proofs.Registry.Reachable
import EntityCatalog.Proofs.Resolution.Requests
import EntityCatalog.Proofs.Resolution.Sourced

/-!
# What a registry evaluates

Freezing a registry does every task that its schemas leave once: one for each
entity that declares a base, one for each property that declares a target, and
one for each property that declares a mapping, however many entities inherit
the property and however often its target is asked for
(`Registry.evaluatesOnce`).  That holds whatever the sources answer later on,
as long as the first request for every target leads to a registered entity.

In the graph all targets and items are known, so that reading them evaluates
nothing.  Preparing records calls hooks, and nothing else.
-/

namespace EntityCatalog

/-! ## Preparing records -/

/-- Only hooks were called between two tallies. -/
def Tally.CallsHooks (before after : Tally) : Prop :=
  ∀ evaluation, (∀ source, evaluation ≠ .hook source) →
    after.count evaluation = before.count evaluation

theorem Sources.callsHooks_evaluateHook (sources : Sources) (hook : Hook)
    (tally : Tally) : tally.CallsHooks (sources.evaluateHook hook tally).2 := by
  intro evaluation other
  rw [evaluateHook, Tally.count_record, if_neg (other hook.source).symm,
    Nat.add_zero]

theorem Property.callsHooks_fillOnCreate (sources : Sources)
    (property : Property) (tally : Tally) :
    tally.CallsHooks (property.fillOnCreate sources tally).2 := by
  unfold fillOnCreate
  split
  · exact fun _ _ => rfl
  · split
    · exact sources.callsHooks_evaluateHook _ tally
    · exact fun _ _ => rfl
    · split
      · exact fun _ _ => rfl
      · split <;> exact fun _ _ => rfl

theorem Property.callsHooks_fillOnUpdate (sources : Sources)
    (property : Property) (tally : Tally) :
    tally.CallsHooks (property.fillOnUpdate sources tally).2 := by
  unfold fillOnUpdate
  split
  · exact sources.callsHooks_evaluateHook _ tally
  · exact fun _ _ => rfl

theorem callsHooks_fieldsOf {fill : Property → Tally → Field × Tally}
    (calls : ∀ property (tally : Tally),
      tally.CallsHooks (fill property tally).2)
    (record : Record) (properties : List Property) (tally : Tally) :
    tally.CallsHooks (fieldsOf fill record properties tally).2 := by
  induction properties generalizing tally with
  | nil => exact fun _ _ => rfl
  | cons property rest induction =>
      intro evaluation other
      rw [fieldsOf]
      cases record.find? property.name with
      | some entry => exact induction tally evaluation other
      | none =>
          exact (induction _ evaluation other).trans
            (calls property tally evaluation other)

theorem Entity.callsHooks_prepare {fill : Property → Tally → Field × Tally}
    (calls : ∀ property (tally : Tally),
      tally.CallsHooks (fill property tally).2)
    (entity : Entity) (record : Record) (tally : Tally) :
    tally.CallsHooks (entity.prepare fill record tally).2 := by
  have fields := callsHooks_fieldsOf calls record entity.properties.items tally
  unfold prepare
  dsimp only
  split <;> exact fields

/-! ## Freezing -/

/-- What is evaluated when a registry is frozen, and after. -/
structure Registry.EvaluatesOnce (registry : Registry) (sources : Sources)
    (tally : Tally) (graph : Graph) : Prop where
  /-- Freezing does every task that the schemas leave once, in some order, and
  evaluates nothing else. -/
  once : ∃ order : List Task, order.Perm (registry.setting sources).tasks ∧
    ∀ evaluation,
      (registry.finalize sources tally).tally.count evaluation =
        tally.count evaluation +
          (Task.evaluationsOfAll (registry.setting sources).directory order
            tally).count evaluation
  targets : ∀ entity ∈ graph.entities.items,
    ∀ property ∈ entity.properties.items,
      ∀ target, property.target? = some target →
        ∃ name ∈ graph.names, ∀ directory (findings : Findings),
          findings.force directory property.origin target =
            (.ok name, findings)
  items : ∀ entity ∈ graph.entities.items,
    ∀ property ∈ entity.properties.items,
      ∀ part, property.enumeration? = some part →
        ∃ items, part.items = some items ∧ ∀ sources value tally,
          part.contains sources value tally =
            (EnumItem.holds items value, tally)
  prepared : ∀ entity ∈ graph.entities.items, ∀ sources record (tally : Tally),
    tally.CallsHooks (entity.prepareCreate sources record tally).2 ∧
      tally.CallsHooks (entity.prepareUpdate sources record tally).2
  again : ∀ others later,
    (registry.finalize sources tally).registry.finalize others later =
      ⟨.ok graph, (registry.finalize sources tally).registry, later⟩

namespace Registry

/-- The attempt to freeze an open registry evaluates what its resolution
does. -/
theorem tally_finalize {registry : Registry} (unfrozen : registry.graph = none)
    (sources : Sources) (tally : Tally) :
    (registry.finalize sources tally).tally =
      ((registry.setting sources).visitedAt tally).findings.tally := by
  unfold finalize
  rw [unfrozen]
  dsimp only
  split <;> rfl

/-- A registry that was frozen gives its graph again. -/
theorem finalize_again {registry : Registry} {sources : Sources}
    {tally : Tally} {graph : Graph}
    (frozen : (registry.finalize sources tally).outcome = .ok graph)
    (others : Sources) (later : Tally) :
    (registry.finalize sources tally).registry.finalize others later =
      ⟨.ok graph, (registry.finalize sources tally).registry, later⟩ := by
  have kept : (registry.finalize sources tally).registry.graph =
      some graph := by
    unfold finalize at frozen ⊢
    cases present : registry.graph with
    | some other =>
        rw [present] at frozen
        cases frozen
        exact present
    | none =>
        rw [present] at frozen
        dsimp only at frozen ⊢
        split at frozen
        · cases frozen
          rfl
        · cases frozen
  generalize (registry.finalize sources tally).registry = next at kept ⊢
  rw [finalize, kept]

/-- Where the first request for every target leads to a registered entity, a
registry that can be frozen evaluates what its schemas leave deferred once, and
its graph evaluates none of it again. -/
theorem evaluatesOnce {registry : Registry} {sources : Sources}
    {tally : Tally} {graph : Graph} (unfrozen : registry.graph = none)
    (frozen : (registry.finalize sources tally).outcome = .ok graph)
    (answered : (registry.setting sources).FirstAnswered tally) :
    registry.EvaluatesOnce sources tally graph := by
  rcases (finalize_eq_ok_iff unfrozen tally graph).mp frozen with
    ⟨flawless, entities⟩
  have silent := Resolution.Setting.silent_of_run flawless
  have same : graph.entities =
      (registry.setting sources).entitiesAt tally := entities
  have held : ∀ entity ∈ graph.entities.items,
      ∀ property ∈ entity.properties.items,
        ((registry.setting sources).entitiesAt tally).property?
          (entity.place property) = some property := by
    intro entity member property holds
    rw [← same]
    exact Entities.property?_of_mem member holds
  constructor
  case once =>
    rcases silent.exists_order answered with ⟨order, all, made⟩
    refine ⟨order, all, fun evaluation => ?_⟩
    rw [tally_finalize unfrozen, made, Tally.count_recordAll]
  case targets =>
    intro entity member property holds target pointed
    rcases silent.exists_targetName (held entity member property holds)
      (Property.hasTarget_of_target? pointed) with ⟨name, registered, aims, -⟩
    rw [Property.targetName?, pointed, Option.bind_some] at aims
    refine ⟨name, ?_, fun directory findings => ?_⟩
    · rw [Graph.names, same, Resolution.Setting.keys_entitiesAt]
      exact registered
    · rw [Findings.force, aims]
      rfl
  case items =>
    intro entity member property holds part enumerated
    rcases silent.exists_items (held entity member property holds)
      enumerated with ⟨items, known, -⟩
    refine ⟨items, known, fun sources value tally => ?_⟩
    rw [Enumeration.contains, Enumeration.force, known]
  case prepared =>
    intro entity _ sources record tally
    exact ⟨entity.callsHooks_prepare
        (Property.callsHooks_fillOnCreate sources) record tally,
      entity.callsHooks_prepare
        (Property.callsHooks_fillOnUpdate sources) record tally⟩
  case again =>
    intro others later
    exact finalize_again frozen others later

end Registry

/-! ## An anthology -/

/-- Works of several kinds, which inherit their genre and their authors, and
authors who know their works: the targets of both relations are asked for from
either side and for each kind of work. -/
def anthology : Registry :=
  (Registry.registerAll {} [
    { name := "Work"
      isAbstract := true
      properties := .ofList [
        ("id", { Options.typed "integer" with primary := true }),
        ("genre", .enumeration (.deferred 0)),
        ("authors", { Options.manyToMany (.deferred 0) with
          owner := some true })] },
    { name := "Poem"
      base := some (.deferred 1) },
    { name := "Story"
      base := some (.deferred 2) },
    { name := "Author"
      properties := .ofList [
        ("id", { Options.typed "integer" with primary := true }),
        ("works", { Options.manyToMany (.deferred 3) with
          owner := some false })] }]).1

/-- Some references are deferred twice.  On any evaluation but the first one
the sources answer otherwise. -/
def anthologySources : Sources where
  reference source evaluation :=
    if evaluation ≠ 0 then .name "Nothing"
    else if source = 0 then .deferred 4
    else if source = 2 then .deferred 5
    else if source = 4 then .name "Author"
    else .name "Work"
  mapping _ evaluation :=
    if evaluation = 0 then
      [("Lyric", .string "lyric"), ("Epic", .string "epic")]
    else []
  hook _ _ := .null

/-- The graph of the anthology. -/
def anthologyGraph : Graph :=
  match (anthology.finalize anthologySources .empty).outcome with
  | .ok graph => graph
  | .error _ => default

theorem finalize_anthology :
    (anthology.finalize anthologySources .empty).outcome =
      .ok anthologyGraph := by
  have succeeds :
      (anthology.finalize anthologySources .empty).outcome.isOk := by
    decide +kernel
  exact Registry.outcome_of_isOk succeeds

/-- What the anthology leaves deferred is evaluated once, although most targets
are asked for several times. -/
theorem evaluatesOnce_anthology :
    anthology.graph = none ∧
      (anthology.finalize anthologySources .empty).outcome =
        .ok anthologyGraph ∧
      (anthology.setting anthologySources).FirstAnswered .empty ∧
      anthology.EvaluatesOnce anthologySources .empty anthologyGraph := by
  have unfrozen : anthology.graph = none := rfl
  have answered :
      (anthology.setting anthologySources).FirstAnswered .empty := by
    unfold Resolution.Setting.FirstAnswered
    decide +kernel
  exact ⟨unfrozen, finalize_anthology, answered,
    Registry.evaluatesOnce unfrozen finalize_anthology answered⟩

example :
    ((anthology.setting anthologySources).requests .empty).length = 13 ∧
      (anthology.setting anthologySources).tasks.length = 5 := by
  decide +kernel

end EntityCatalog
