import EntityCatalog.Proofs.Graph.Order
import EntityCatalog.Proofs.Resolution.Respelled

/-!
# The life of a registry

A registry starts without schemas and is used by any requests in any order.
Whatever was asked before, its schemas are kept under different names, every
request has its effect and no other one, and an attempt to freeze it comes to
what a new registry with the same schemas would: failed attempts leave no
trace.  Once it is frozen, the entities of its graph are its schemas, one by
one, and nothing changes any more (`Session.lawful_after`).
-/

namespace EntityCatalog

open Resolution

/-! ## Entities of schemas -/

/-- An entity as its schema declares it. -/
structure Entity.Presents (directory : Directory) (schema : Schema)
    (entity : Entity) : Prop where
  name : entity.name = schema.name
  isAbstract : entity.isAbstract = schema.isAbstract
  embeddable : entity.embeddable = schema.embeddable
  keyless : entity.keyless = schema.keyless
  base : entity.base = schema.base.bind fun reference =>
    (directory.meaning reference).toOption
  declares : ∀ name ∈ schema.properties.keys, ∃ property,
    entity.property? name = some property ∧
      property.origin = ⟨schema.name, name⟩

namespace Graph.Resolved

variable {graph : Graph} {setting : Setting}

/-- What a schema declares, the graph holds in its place. -/
theorem exists_declared (resolved : graph.Resolved setting) {schema : Schema}
    (member : schema ∈ setting.schemas.items) {name : String}
    (declares : name ∈ schema.properties.keys) :
    ∃ property, graph.property? ⟨schema.name, name⟩ = some property ∧
      property.origin = ⟨schema.name, name⟩ := by
  rcases Table.mem_keys_iff.mp declares with ⟨⟨same, options⟩, found⟩
  rcases show same = name from (Table.find?_eq_some found).2 with rfl
  have fits : schema.misuses = [] :=
    List.flatMap_eq_nil_iff.mp resolved.sound.fits schema member
  rcases Schema.misuses_eq_nil_iff.mp fits same options found with
    ⟨declared, read⟩
  have own : setting.own ⟨schema.name, same⟩ = some declared := by
    rw [Setting.own, Entities.declaredAt, Table.find?_key member,
      Option.bind_some, Schema.property?, found, Option.bind_some]
    exact read
  rcases resolved.exists_copy (resolved.sound.merges.held_of_declared own) with
    ⟨property, held, origin⟩
  exact ⟨property, held, origin.trans (resolved.sound.merges.placed _ _ own)⟩

/-- The entities of the graph are the schemas, one by one. -/
theorem presents (resolved : graph.Resolved setting) :
    List.Forall₂ (Entity.Presents setting.directory) setting.schemas.items
      graph.entities.items := by
  have alike : List.Forall₂
      (fun schema entity => (Entity.ofSchema setting.schemas
        (Bases.ofSchemas setting.directory setting.schemas.items)
          schema).bare = entity.bare)
      setting.schemas.items graph.entities.items := by
    have same := resolved.alike.symm
    rw [Setting.merged, Entities.ofSchemas, List.map_map] at same
    rw [← List.forall₂_eq_eq_eq, List.forall₂_map_left_iff,
      List.forall₂_map_right_iff] at same
    exact same
  -- The facts about properties need that both are members of their lists.
  rw [List.forall₂_iff_zip] at alike ⊢
  refine ⟨alike.1, fun {schema entity} paired => ?_⟩
  have same := alike.2 paired
  rcases List.of_mem_zip paired with ⟨member, memberEntity⟩
  have name : entity.name = schema.name := (congrArg Entity.name same).symm
  refine ⟨name, (congrArg Entity.isAbstract same).symm,
    (congrArg Entity.embeddable same).symm,
    (congrArg Entity.keyless same).symm, ?_, ?_⟩
  · refine (congrArg Entity.base same).symm.trans (Option.ext fun next => ?_)
    change (Bases.ofSchemas setting.directory setting.schemas.items).base?
      schema.name = some next ↔ _
    rw [Bases.base?_ofSchemas_eq_some_iff, Option.bind_eq_some_iff,
      Table.find?_key member]
    simp only [toOption_eq_some_iff]
    constructor
    · rintro ⟨_, reference, here, found⟩
      cases here
      exact ⟨reference, found⟩
    · rintro ⟨reference, found⟩
      exact ⟨schema, reference, rfl, found⟩
  · intro asked declares
    rcases resolved.exists_declared member declares with
      ⟨property, held, origin⟩
    refine ⟨property, ?_, origin⟩
    rw [← held, Graph.property?, Entities.property?, ← name,
      Table.find?_key memberEntity, Option.bind_some]

end Graph.Resolved

/-! ## Attempts that leave no trace -/

namespace Registry

/-- Open registries with the same schemas come to the same, whatever was
evaluated before, as far as enum mappings answer alike. -/
theorem outcome_finalize_alike {sources : Sources} (steady : sources.Steady)
    {registry other : Registry} (unfrozen : registry.graph = none)
    (unfrozenOther : other.graph = none)
    (config : other.config = registry.config)
    (items : other.schemas.items = registry.schemas.items)
    {tally later : Tally} (alike : sources.AlikeFrom tally later) :
    (registry.finalize sources tally).outcome =
      (other.finalize sources later).outcome := by
  have schemas : other.schemas = registry.schemas := Table.ext items
  rcases Resolution.run_alike steady registry.config registry.schemas alike
    with ⟨entities, defects⟩
  have outcome : (Resolution.run registry.config sources registry.schemas
        tally).outcome =
      (Resolution.run registry.config sources registry.schemas
        later).outcome := by
    simp only [Resolution.outcome, entities, defects]
  unfold finalize
  rw [unfrozen, unfrozenOther, config, schemas]
  dsimp only
  rw [outcome]
  cases (Resolution.run registry.config sources registry.schemas
    later).outcome <;> rfl

end Registry

/-! ## Sessions -/

/-- A registry in use that is frozen with a graph. -/
structure Session.Frozen (sources : Sources) (session : Session)
    (graph : Graph) : Prop where
  keeps : session.registry.graph = some graph
  presents : List.Forall₂
    (Entity.Presents (session.registry.setting sources).directory)
    session.registry.schemas.items graph.entities.items
  unchanged : ∀ requests,
    (session.after sources requests).registry = session.registry
  answers : ∀ requests request,
    ((session.after sources requests).serve sources request).1 =
      .ofFrozen graph request

/-- What holds at any time of a registry in use. -/
structure Session.Lawful (sources : Sources) (initial : Config)
    (session : Session) : Prop where
  config : session.registry.config = initial
  distinct : (session.registry.schemas.items.map Schema.name).Nodup
  named : ∀ schema ∈ session.registry.schemas.items,
    session.registry.schemas.find? schema.name = some schema
  effect : ∀ request,
    session.registry.Effect request (session.serve sources request).1
      (session.serve sources request).2.registry
  /-- As long as it is open, freezing it comes to the same as freezing a new
  registry with its schemas. -/
  retried : session.registry.graph = none →
    ∀ later, sources.AlikeFrom session.tally later →
      (session.serve sources .finalize).1 =
        .finalized ((Registry.ofSchemas initial
          session.registry.schemas.items).finalize sources later).outcome
  frozen : ∀ graph,
    (session.serve sources .finalize).1 = .finalized (.ok graph) →
      (session.serve sources .finalize).2.registry =
          { session.registry with graph := some graph } ∧
        (session.serve sources .finalize).2.Frozen sources graph

namespace Session

variable {sources : Sources} {session : Session} {graph : Graph}

/-- A frozen registry stays so. -/
theorem frozen_of_graph (steady : sources.Steady)
    (reachable : session.registry.Reachable sources)
    (frozen : session.registry.graph = some graph) :
    session.Frozen sources graph where
  keeps := frozen
  presents := by
    rcases reachable.run_of_frozen frozen with ⟨tally, silent, entities⟩
    exact (resolved_of_silent steady silent entities).presents
  unchanged := registry_after_of_frozen sources frozen
  answers := by
    intro requests request
    have same := registry_after_of_frozen sources frozen requests
    exact ((effect_serve sources _ request).of_frozen (same ▸ frozen)).1

/-- What freezing does to a registry, open or frozen. -/
theorem registry_of_finalize
    (freezes : (session.serve sources .finalize).1 = .finalized (.ok graph)) :
    (session.serve sources .finalize).2.registry =
      { session.registry with graph := some graph } := by
  have effect := effect_serve sources session .finalize
  rw [freezes] at effect
  generalize (session.serve sources .finalize).2.registry = next at effect ⊢
  cases effect
  rfl

theorem lawful_of_reachable (steady : sources.Steady)
    (reachable : session.registry.Reachable sources) :
    session.Lawful sources session.registry.config where
  config := rfl
  distinct := session.registry.schemas.distinct
  named := fun _ member => Table.find?_key member
  effect := effect_serve sources session
  retried := by
    intro unfrozen later alike
    rcases Registry.ofSchemas_of_nodup session.registry.config
      session.registry.schemas.distinct with ⟨config, fresh, items⟩
    exact congrArg Answer.finalized (Registry.outcome_finalize_alike steady
      unfrozen fresh config items alike)
  frozen := by
    intro graph freezes
    have changed := registry_of_finalize freezes
    refine ⟨changed, frozen_of_graph steady ?_ ?_⟩
    · exact reachable_serve reachable .finalize
    · rw [changed]

/-- Whatever a new registry was asked, it is lawful. -/
theorem lawful_after (steady : sources.Steady) (config : Config)
    (tally : Tally) (requests : List Request) :
    (after sources ⟨{ config := config }, tally⟩ requests).Lawful sources
      config := by
  have reachable : (after sources ⟨{ config := config }, tally⟩
      requests).registry.Reachable sources :=
    reachable_after (.new config) requests
  have lawful := lawful_of_reachable steady reachable
  rw [config_after] at lawful
  exact lawful

/-! ## A desk -/

/-- What a desk is asked: orders refer to articles, which are missing at first.
One registration is refused, one attempt to freeze fails, and the last request
comes too late. -/
def deskRequests : List Request := [
  .registerAll [
    keyedSchema "Order" [("articles", .manyToMany (.deferred 1))],
    keyedSchema "Order" [],
    keyedSchema "Article" []],
  .finalize,
  .replace (keyedSchema "Order" [
    ("articles", .manyToMany (.deferred 1)),
    ("gift", .manyToOne (.name "Article"))]),
  .register (keyedSchema "Article" []),
  .finalize,
  .register (keyedSchema "Customer" [])]

/-- The desk after some of its requests. -/
def desk (served : Nat) : Session :=
  after shopSources ⟨{}, .empty⟩ (deskRequests.take served)

/-- The desk is lawful all the time.  Open, it freezes like a new one that was
never asked anything else; frozen, it takes no more schemas. -/
theorem lawful_after_desk :
    shopSources.Steady ∧
      (∀ served, (desk served).Lawful shopSources {}) ∧
      (desk 4).registry.schemas.keys = ["Order", "Article"] ∧
      ((desk 4).serve shopSources .finalize).1 =
        .finalized ((Registry.ofSchemas {}
          (desk 4).registry.schemas.items).finalize shopSources
            .empty).outcome ∧
      (desk 6).registry.isFrozen = true ∧
      (desk 6).registry.schemas.keys = ["Order", "Article"] := by
  have lawful : ∀ served, (desk served).Lawful shopSources {} := fun served =>
    lawful_after steady_shopSources {} .empty (deskRequests.take served)
  have alike : ∀ left right, shopSources.AlikeFrom left right :=
    Sources.alikeFrom_of_steady fun _ _ => rfl
  exact ⟨steady_shopSources, lawful, rfl,
    (lawful 4).retried rfl .empty (alike _ _), rfl, rfl⟩

end Session

end EntityCatalog
