import EntityCatalog.Proofs.Registry.Requests
import EntityCatalog.Proofs.Resolution.Sound

/-!
# Reachable registries

Requests lead from an empty registry to the reachable ones.  A reachable
registry that is frozen holds the result of resolving its schemas: requests do
not change it any more, and it was frozen by such a resolution.  A session that
starts from a reachable registry has one at any time (`Session.reachable_after`).
-/

namespace EntityCatalog

namespace Registry

/-- The registries that requests lead to, starting from an empty one. -/
inductive Reachable (sources : Sources) : Registry → Prop where
  | new (config : Config) : Reachable sources { config := config }
  | register {registry next : Registry} {schema : Schema}
      (before : Reachable sources registry)
      (accepted : registry.register schema = .ok next) :
      Reachable sources next
  | replace {registry next : Registry} {schema : Schema}
      {previous : Option Schema} (before : Reachable sources registry)
      (accepted : registry.replace schema = .ok (previous, next)) :
      Reachable sources next
  | finalize {registry : Registry} (before : Reachable sources registry)
      (tally : Tally) :
      Reachable sources (registry.finalize sources tally).registry

namespace Reachable

variable {sources : Sources} {registry : Registry}

/-- Registering several schemas is registering them in turn. -/
theorem registerAll (before : Reachable sources registry)
    (schemas : List Schema) :
    Reachable sources (registry.registerAll schemas).1 := by
  induction schemas generalizing registry with
  | nil => exact before
  | cons schema rest induction =>
      rw [Registry.registerAll]
      cases accepted : registry.register schema with
      | error refusal => exact before
      | ok next => exact induction (before.register accepted)

theorem registerText (before : Reachable sources registry) (text : String) :
    Reachable sources (registry.registerText text).1 := by
  unfold Registry.registerText
  split
  · exact before.registerAll _
  · exact before

end Reachable

/-- What the resolution of a registry starts from. -/
def setting (registry : Registry) (sources : Sources) : Resolution.Setting :=
  ⟨registry.config, sources, registry.schemas⟩

theorem outcome_eq_ok_iff (resolution : Resolution) (entities : Entities) :
    resolution.outcome = .ok entities ↔
      resolution.defects = [] ∧ entities = resolution.entities := by
  unfold Resolution.outcome
  cases resolution.defects with
  | nil => simp [eq_comm]
  | cons defect rest => simp

/-- What an attempt that succeeds gives. -/
theorem outcome_of_isOk {outcome : Except Refusal Graph} :
    outcome.isOk = true →
      outcome = .ok (match outcome with
        | .ok graph => graph
        | .error _ => default) := by
  intro succeeds
  cases outcome with
  | ok graph => rfl
  | error refusal => cases succeeds

/-- A registry that is not frozen is frozen exactly by a resolution that finds
nothing wrong, whose result it then holds. -/
theorem finalize_eq_ok_iff {sources : Sources} {registry : Registry}
    (unfrozen : registry.graph = none) (tally : Tally) (graph : Graph) :
    (registry.finalize sources tally).outcome = .ok graph ↔
      ((registry.setting sources).run tally).defects = [] ∧
        graph.entities = ((registry.setting sources).run tally).entities := by
  rw [← outcome_eq_ok_iff]
  unfold finalize
  rw [unfrozen]
  dsimp only
  change _ ↔ (Resolution.run registry.config sources registry.schemas
    tally).outcome = .ok graph.entities
  cases (Resolution.run registry.config sources registry.schemas
      tally).outcome with
  | ok entities =>
      rcases graph with ⟨other⟩
      simp
  | error defects => simp

/-- A registry that is not frozen refuses with everything that its resolution
finds wrong. -/
theorem finalize_eq_error {sources : Sources} {registry : Registry}
    (unfrozen : registry.graph = none) {tally : Tally}
    (wrong : ((registry.setting sources).run tally).defects ≠ []) :
    (registry.finalize sources tally).outcome =
      .error (.invalid ((registry.setting sources).run tally).defects) := by
  have refused : ((registry.setting sources).run tally).outcome =
      .error ((registry.setting sources).run tally).defects := by
    unfold Resolution.outcome
    split
    · rename_i none
      exact absurd none wrong
    · rfl
  change (Resolution.run registry.config sources registry.schemas
    tally).outcome = _ at refused
  unfold finalize
  rw [unfrozen]
  dsimp only
  rw [refused]

/-- Only an open registry takes schemas, and it stays open. -/
theorem graph_of_register {registry next : Registry} {schema : Schema}
    (accepted : registry.register schema = .ok next) :
    next.graph = none := by
  rcases registry.register_cases schema with
    ⟨other, here, adds⟩ | ⟨refusal, refused, -⟩
  · rw [here] at accepted
    cases accepted
    exact adds.graph.trans (adds.opened (List.cons_ne_nil _ _))
  · rw [refused] at accepted
    cases accepted

theorem graph_of_replace {registry next : Registry} {schema : Schema}
    {previous : Option Schema}
    (accepted : registry.replace schema = .ok (previous, next)) :
    next.graph = none := by
  rcases registry.replace_cases schema with
    ⟨other, here, exchanges⟩ | ⟨refused, -⟩
  · rw [here] at accepted
    cases accepted
    exact exchanges.graph
  · rw [refused] at accepted
    cases accepted

/-- An attempt that freezes a registry leaves its schemas. -/
theorem registry_finalize (sources : Sources) (registry : Registry)
    (tally : Tally) :
    (registry.finalize sources tally).registry = registry ∨
      ∃ graph, (registry.finalize sources tally).outcome = .ok graph ∧
        (registry.finalize sources tally).registry =
          { registry with graph := some graph } := by
  have effect := Session.effect_finalize sources registry tally
  generalize (registry.finalize sources tally).outcome = outcome at effect ⊢
  generalize (registry.finalize sources tally).registry = next at effect ⊢
  cases effect with
  | finalized => exact Or.inr ⟨_, rfl, rfl⟩
  | failed => exact Or.inl rfl

namespace Reachable

variable {sources : Sources} {registry : Registry} {graph : Graph}

/-- The graph of a frozen registry is the result of resolving its schemas. -/
theorem run_of_frozen (reachable : Reachable sources registry)
    (frozen : registry.graph = some graph) :
    ∃ tally, ((registry.setting sources).run tally).defects = [] ∧
      graph.entities = ((registry.setting sources).run tally).entities := by
  induction reachable generalizing graph with
  | new config => cases frozen
  | register before accepted induction =>
      rw [graph_of_register accepted] at frozen
      cases frozen
  | replace before accepted induction =>
      rw [graph_of_replace accepted] at frozen
      cases frozen
  | @finalize registry before tally induction =>
      rcases registry_finalize sources registry tally with
        same | ⟨present, resolved, changed⟩
      · rw [same] at frozen ⊢
        exact induction frozen
      · rw [changed] at frozen ⊢
        cases frozen
        cases earlier : registry.graph with
        | none => exact ⟨tally, (finalize_eq_ok_iff earlier tally _).mp resolved⟩
        | some other =>
            unfold Registry.finalize at resolved
            rw [earlier] at resolved
            cases resolved
            exact induction earlier

theorem run_of_finalize (reachable : Reachable sources registry)
    {tally : Tally}
    (resolved : (registry.finalize sources tally).outcome = .ok graph) :
    ∃ tally, ((registry.setting sources).run tally).defects = [] ∧
      graph.entities = ((registry.setting sources).run tally).entities := by
  cases earlier : registry.graph with
  | none => exact ⟨tally, (finalize_eq_ok_iff earlier tally graph).mp resolved⟩
  | some other =>
      unfold Registry.finalize at resolved
      rw [earlier] at resolved
      cases resolved
      exact reachable.run_of_frozen earlier

end Reachable

theorem reachable_ofSchemas (sources : Sources) (config : Config)
    (schemas : List Schema) :
    Reachable sources (ofSchemas config schemas) :=
  (Reachable.new config).registerAll schemas

end Registry

/-! ## Sessions -/

namespace Session

variable {sources : Sources} {session : Session}

/-- Every request leads from a reachable registry to a reachable one. -/
theorem reachable_serve (reachable : session.registry.Reachable sources)
    (request : Request) :
    (session.serve sources request).2.registry.Reachable sources := by
  cases request with
  | register schema =>
      rw [serve]
      cases accepted : session.registry.register schema with
      | ok next => exact reachable.register accepted
      | error refusal => exact reachable
  | registerAll schemas => exact reachable.registerAll schemas
  | registerText text => exact reachable.registerText text
  | replace schema =>
      rw [serve]
      cases accepted : session.registry.replace schema with
      | ok next => exact reachable.replace accepted
      | error refusal => exact reachable
  | finalize => exact reachable.finalize session.tally

theorem reachable_after (reachable : session.registry.Reachable sources)
    (requests : List Request) :
    (session.after sources requests).registry.Reachable sources := by
  induction requests generalizing session with
  | nil => exact reachable
  | cons request rest induction =>
      exact induction (reachable_serve reachable request)

end Session

end EntityCatalog
