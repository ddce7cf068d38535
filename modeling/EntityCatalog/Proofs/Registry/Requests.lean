import EntityCatalog.Proofs.Table.Lookups
import EntityCatalog.Registry

/-!
# Requests

A registry is used by one request after the other.  `Registry.Effect` says what
a request may be answered and what it then makes of the registry, and every
request that is served has such an effect (`Session.effect_serve`).  Refused
requests leave the registry as it was, except that schemas that were registered
together are kept up to the refused one.  No request changes a registry that is
frozen (`Session.registry_after_of_frozen`).
-/

namespace EntityCatalog

namespace Registry

/-! ## Registering schemas -/

/-- A registry with some schemas added at the end; only an open one takes any. -/
structure Adds (registry next : Registry) (added : List Schema) : Prop where
  config : next.config = registry.config
  graph : next.graph = registry.graph
  items : next.schemas.items = registry.schemas.items ++ added
  opened : added ≠ [] → registry.graph = none

/-- Why a registry refuses a schema. -/
inductive Refuses (registry : Registry) (schema : Schema) : Refusal → Prop
  | frozen (frozen : registry.graph ≠ none) : Refuses registry schema .frozen
  | duplicate (unfrozen : registry.graph = none)
      (registered : schema.name ∈ registry.schemas.keys) :
      Refuses registry schema (.duplicate schema.name)

/-- A registry with the schemas before the first one that is refused. -/
def Stops (registry next : Registry) (schemas : List Schema)
    (refusal : Refusal) : Prop :=
  ∃ before refused after, schemas = before ++ refused :: after ∧
    registry.Adds next before ∧ next.Refuses refused refusal

theorem Adds.refl (registry : Registry) : registry.Adds registry [] :=
  ⟨rfl, rfl, (List.append_nil _).symm, fun some => absurd rfl some⟩

theorem Adds.trans {registry middle next : Registry} {first second : List Schema}
    (before : registry.Adds middle first) (after : middle.Adds next second) :
    registry.Adds next (first ++ second) where
  config := after.config.trans before.config
  graph := after.graph.trans before.graph
  items := by rw [after.items, before.items, List.append_assoc]
  opened := by
    intro some
    by_cases none : first = []
    · subst none
      exact before.graph.symm.trans (after.opened some)
    · exact before.opened none

/-- A registry has its new schema last, or refuses it. -/
theorem register_cases (registry : Registry) (schema : Schema) :
    (∃ next, registry.register schema = .ok next ∧
        registry.Adds next [schema]) ∨
      ∃ refusal, registry.register schema = .error refusal ∧
        registry.Refuses schema refusal := by
  unfold register isFrozen
  cases frozen : registry.graph with
  | some graph =>
      refine Or.inr ⟨.frozen, if_pos rfl, .frozen ?_⟩
      rw [frozen]
      exact Option.some_ne_none graph
  | none =>
      rw [if_neg (by simp)]
      by_cases registered : schema.name ∈ registry.schemas.keys
      · rw [if_pos ((Table.contains_iff_mem_keys _ _).mpr registered)]
        exact Or.inr ⟨_, rfl, .duplicate frozen registered⟩
      · rw [if_neg fun found =>
          registered ((Table.contains_iff_mem_keys _ _).mp found)]
        exact Or.inl ⟨_, rfl, rfl, frozen.symm,
          Table.items_insert_of_fresh registered, fun _ => frozen⟩

/-- Schemas that are registered together are all added, or up to the first one
that is refused. -/
theorem registerAll_cases (registry : Registry) (schemas : List Schema) :
    (∃ next, registry.registerAll schemas = (next, .ok ()) ∧
        registry.Adds next schemas) ∨
      ∃ next refusal,
        registry.registerAll schemas = (next, .error refusal) ∧
          registry.Stops next schemas refusal := by
  induction schemas generalizing registry with
  | nil => exact Or.inl ⟨registry, rfl, .refl registry⟩
  | cons schema rest induction =>
      rw [registerAll]
      rcases registry.register_cases schema with
        ⟨middle, accepted, adds⟩ | ⟨refusal, refused, refuses⟩
      · rw [accepted]
        rcases induction middle with
          ⟨next, all, more⟩ | ⟨next, refusal, stopped, stops⟩
        · exact Or.inl ⟨next, all, adds.trans more⟩
        · refine Or.inr ⟨next, refusal, stopped, ?_⟩
          rcases stops with ⟨before, last, after, rfl, more, refuses⟩
          exact ⟨schema :: before, last, after, rfl, adds.trans more, refuses⟩
      · rw [refused]
        exact Or.inr ⟨registry, refusal, rfl, [], schema, rest, rfl,
          .refl registry, refuses⟩

/-- Schemas with new names are all registered, in their order. -/
theorem registerAll_of_fresh {registry : Registry}
    (unfrozen : registry.graph = none) {schemas : List Schema}
    (distinct : (registry.schemas.keys ++ schemas.map Schema.name).Nodup) :
    registry.Adds (registry.registerAll schemas).1 schemas := by
  rcases registry.registerAll_cases schemas with
    ⟨next, all, adds⟩ | ⟨next, refusal, stopped, stops⟩
  · rw [all]
    exact adds
  · rcases stops with ⟨before, refused, after, rfl, adds, refuses⟩
    cases refuses with
    | frozen frozen => exact absurd (adds.graph.trans unfrozen) frozen
    | duplicate _ registered =>
        -- The schemas so far and the refused one have different names.
        rw [Table.keys, adds.items, List.map_append] at registered
        rw [List.map_append, List.map_cons, ← List.append_assoc] at distinct
        exact absurd rfl ((List.nodup_append.mp distinct).2.2 _ registered _
          (List.mem_cons_self ..))

/-- The registry in which schemas are registered in turn. -/
def ofSchemas (config : Config) (schemas : List Schema) : Registry :=
  (registerAll { config := config } schemas).1

theorem ofSchemas_of_nodup (config : Config) {schemas : List Schema}
    (distinct : (schemas.map Schema.name).Nodup) :
    (ofSchemas config schemas).config = config ∧
      (ofSchemas config schemas).graph = none ∧
      (ofSchemas config schemas).schemas.items = schemas := by
  have adds := @registerAll_of_fresh { config := config } rfl schemas distinct
  exact ⟨adds.config, adds.graph, adds.items⟩

/-! ## Replacing a schema -/

/-- An open registry with a schema in the place of the one of its name, or at
the end if there is none. -/
structure Exchanges (registry next : Registry) (schema : Schema) : Prop where
  opened : registry.graph = none
  config : next.config = registry.config
  graph : next.graph = none
  placed : schema.name ∈ registry.schemas.keys →
    next.schemas.items = registry.schemas.items.map fun other =>
      if other.name = schema.name then schema else other
  added : schema.name ∉ registry.schemas.keys →
    next.schemas.items = registry.schemas.items ++ [schema]

theorem replace_cases (registry : Registry) (schema : Schema) :
    (∃ next, registry.replace schema =
          .ok (registry.schemas.find? schema.name, next) ∧
        registry.Exchanges next schema) ∨
      registry.replace schema = .error .frozen ∧ registry.graph ≠ none := by
  unfold replace isFrozen
  cases frozen : registry.graph with
  | some graph => exact Or.inr ⟨if_pos rfl, Option.some_ne_none graph⟩
  | none =>
      rw [if_neg (by simp)]
      exact Or.inl ⟨_, rfl, frozen, rfl, rfl, Table.items_insert_of_mem,
        Table.items_insert_of_fresh⟩

end Registry

/-! ## Requests and answers -/

/-- What a registry is asked for. -/
inductive Request where
  | register (schema : Schema)
  | registerAll (schemas : List Schema)
  | registerText (text : String)
  | replace (schema : Schema)
  | finalize

/-- What a request is answered. -/
inductive Answer where
  | registered (outcome : Except Refusal Unit)
  | replaced (outcome : Except Refusal (Option Schema))
  | finalized (outcome : Except Refusal Graph)

/-- What a frozen registry answers: it takes no schemas, and gives its graph
again. -/
def Answer.ofFrozen (graph : Graph) : Request → Answer
  | .register _ => .registered (.error .frozen)
  | .registerAll schemas =>
    .registered (if schemas.isEmpty then .ok () else .error .frozen)
  | .registerText text =>
    .registered
      (match Schema.listOfText text with
      | .ok schemas => if schemas.isEmpty then .ok () else .error .frozen
      | .error error => .error (.unreadable error))
  | .replace _ => .replaced (.error .frozen)
  | .finalize => .finalized (.ok graph)

/-- What a request may be answered, and what it then makes of the registry. -/
inductive Registry.Effect (registry : Registry) :
    Request → Answer → Registry → Prop
  | registered {schema : Schema} {next : Registry}
      (adds : registry.Adds next [schema]) :
      Effect registry (.register schema) (.registered (.ok ())) next
  | refused {schema : Schema} {refusal : Refusal}
      (refuses : registry.Refuses schema refusal) :
      Effect registry (.register schema) (.registered (.error refusal)) registry
  | registeredAll {schemas : List Schema} {next : Registry}
      (adds : registry.Adds next schemas) :
      Effect registry (.registerAll schemas) (.registered (.ok ())) next
  | stopped {schemas : List Schema} {refusal : Refusal} {next : Registry}
      (stops : registry.Stops next schemas refusal) :
      Effect registry (.registerAll schemas) (.registered (.error refusal)) next
  | read {text : String} {schemas : List Schema} {answer : Answer}
      {next : Registry} (reads : Schema.listOfText text = .ok schemas)
      (effect : Effect registry (.registerAll schemas) answer next) :
      Effect registry (.registerText text) answer next
  | unreadable {text : String} {error : Json.DecodeError}
      (fails : Schema.listOfText text = .error error) :
      Effect registry (.registerText text)
        (.registered (.error (.unreadable error))) registry
  | replaced {schema : Schema} {next : Registry}
      (exchanges : registry.Exchanges next schema) :
      Effect registry (.replace schema)
        (.replaced (.ok (registry.schemas.find? schema.name))) next
  | closed {schema : Schema} (frozen : registry.graph ≠ none) :
      Effect registry (.replace schema) (.replaced (.error .frozen)) registry
  | finalized {graph : Graph}
      (same : ∀ earlier, registry.graph = some earlier → graph = earlier) :
      Effect registry .finalize (.finalized (.ok graph))
        { registry with graph := some graph }
  | failed {defects : List Defect} (unfrozen : registry.graph = none) :
      Effect registry .finalize (.finalized (.error (.invalid defects))) registry

/-- A registry in use, and how often each thing was evaluated so far. -/
structure Session where
  registry : Registry
  tally : Tally

namespace Session

/-- Serve a request. -/
def serve (sources : Sources) (session : Session) :
    Request → Answer × Session
  | .register schema =>
    match session.registry.register schema with
    | .ok registry =>
      (.registered (.ok ()), { session with registry := registry })
    | .error refusal => (.registered (.error refusal), session)
  | .registerAll schemas =>
    let (registry, outcome) := session.registry.registerAll schemas
    (.registered outcome, { session with registry := registry })
  | .registerText text =>
    let (registry, outcome) := session.registry.registerText text
    (.registered outcome, { session with registry := registry })
  | .replace schema =>
    match session.registry.replace schema with
    | .ok (previous, registry) =>
      (.replaced (.ok previous), { session with registry := registry })
    | .error refusal => (.replaced (.error refusal), session)
  | .finalize =>
    let attempt := session.registry.finalize sources session.tally
    (.finalized attempt.outcome, ⟨attempt.registry, attempt.tally⟩)

/-- The session after some requests were served in turn. -/
def after (sources : Sources) (session : Session)
    (requests : List Request) : Session :=
  requests.foldl (fun session request => (session.serve sources request).2)
    session

variable {sources : Sources} {session : Session}

/-! ## Effects -/

theorem effect_registerAll (registry : Registry) (schemas : List Schema) :
    registry.Effect (.registerAll schemas)
      (.registered (registry.registerAll schemas).2)
      (registry.registerAll schemas).1 := by
  rcases registry.registerAll_cases schemas with
    ⟨next, all, adds⟩ | ⟨next, refusal, stopped, stops⟩
  · rw [all]
    exact .registeredAll adds
  · rw [stopped]
    exact .stopped stops

theorem effect_finalize (sources : Sources) (registry : Registry)
    (tally : Tally) :
    registry.Effect .finalize
      (.finalized (registry.finalize sources tally).outcome)
      (registry.finalize sources tally).registry := by
  unfold Registry.finalize
  cases frozen : registry.graph with
  | some graph =>
      have still : registry = { registry with graph := some graph } := by
        rw [← frozen]
      dsimp only
      rw [still]
      exact .finalized fun _ same => Option.some.inj same
  | none =>
      dsimp only
      cases (Resolution.run registry.config sources registry.schemas
          tally).outcome with
      | ok entities =>
          refine .finalized fun earlier same => ?_
          rw [frozen] at same
          cases same
      | error defects => exact .failed frozen

/-- Every request that is served has its effect. -/
theorem effect_serve (sources : Sources) (session : Session)
    (request : Request) :
    session.registry.Effect request (session.serve sources request).1
      (session.serve sources request).2.registry := by
  cases request with
  | register schema =>
      rw [serve]
      rcases session.registry.register_cases schema with
        ⟨next, accepted, adds⟩ | ⟨refusal, refused, refuses⟩
      · rw [accepted]
        exact .registered adds
      · rw [refused]
        exact .refused refuses
  | registerAll schemas => exact effect_registerAll session.registry schemas
  | registerText text =>
      rw [serve, Registry.registerText]
      cases reads : Schema.listOfText text with
      | ok schemas => exact .read reads (effect_registerAll _ schemas)
      | error error => exact .unreadable reads
  | replace schema =>
      rw [serve]
      rcases session.registry.replace_cases schema with
        ⟨next, accepted, exchanges⟩ | ⟨refused, frozen⟩
      · rw [accepted]
        exact .replaced exchanges
      · rw [refused]
        exact .closed frozen
  | finalize => exact effect_finalize sources session.registry session.tally

end Session

namespace Registry

variable {registry next : Registry} {request : Request} {answer : Answer}
  {graph : Graph}

/-! ## Frozen registries -/

theorem Adds.eq_of_frozen {added : List Schema}
    (adds : registry.Adds next added) (frozen : registry.graph = some graph) :
    added = [] ∧ next = registry := by
  have none : added = [] := by
    by_contra some
    rw [adds.opened some] at frozen
    cases frozen
  subst none
  refine ⟨rfl, ?_⟩
  rcases adds with ⟨config, still, items, -⟩
  rcases registry with ⟨_, schemas, _⟩
  rcases next with ⟨_, later, _⟩
  cases config
  cases still
  have same : later = schemas := Table.ext (items.trans (List.append_nil _))
  rw [same]

/-- A frozen registry gives its answer and is left as it was. -/
theorem Effect.of_frozen (effect : registry.Effect request answer next)
    (frozen : registry.graph = some graph) :
    answer = .ofFrozen graph request ∧ next = registry := by
  induction effect with
  | registered adds => cases (adds.eq_of_frozen frozen).1
  | refused refuses =>
      cases refuses with
      | frozen => exact ⟨rfl, rfl⟩
      | duplicate unfrozen =>
          rw [unfrozen] at frozen
          cases frozen
  | registeredAll adds =>
      rcases adds.eq_of_frozen frozen with ⟨rfl, same⟩
      exact ⟨rfl, same⟩
  | stopped stops =>
      rcases stops with ⟨before, refused, after, rfl, adds, refuses⟩
      rcases adds.eq_of_frozen frozen with ⟨rfl, rfl⟩
      cases refuses with
      | frozen => exact ⟨rfl, rfl⟩
      | duplicate unfrozen =>
          rw [unfrozen] at frozen
          cases frozen
  | read reads _ induction =>
      rcases induction with ⟨rfl, same⟩
      refine ⟨?_, same⟩
      rw [Answer.ofFrozen, Answer.ofFrozen, reads]
  | unreadable fails =>
      refine ⟨?_, rfl⟩
      rw [Answer.ofFrozen, fails]
  | replaced exchanges =>
      rw [exchanges.opened] at frozen
      cases frozen
  | closed => exact ⟨rfl, rfl⟩
  | finalized same =>
      rcases same _ frozen with rfl
      refine ⟨rfl, ?_⟩
      rw [← frozen]
  | failed unfrozen =>
      rw [unfrozen] at frozen
      cases frozen

/-- Requests keep the configuration of a registry. -/
theorem Effect.config (effect : registry.Effect request answer next) :
    next.config = registry.config := by
  induction effect with
  | registered adds | registeredAll adds => exact adds.config
  | stopped stops =>
      rcases stops with ⟨_, _, _, -, adds, -⟩
      exact adds.config
  | refused | unreadable | closed | failed | finalized => rfl
  | read _ _ induction => exact induction
  | replaced exchanges => exact exchanges.config

end Registry

namespace Session

variable {session : Session} {graph : Graph}

theorem config_after (sources : Sources) (session : Session)
    (requests : List Request) :
    (session.after sources requests).registry.config =
      session.registry.config := by
  induction requests generalizing session with
  | nil => rfl
  | cons request rest induction =>
      exact (induction _).trans (effect_serve sources session request).config

/-- No request changes a frozen registry. -/
theorem registry_after_of_frozen (sources : Sources)
    (frozen : session.registry.graph = some graph) (requests : List Request) :
    (session.after sources requests).registry = session.registry := by
  induction requests generalizing session with
  | nil => rfl
  | cons request rest induction =>
      have same := ((effect_serve sources session request).of_frozen frozen).2
      rw [after, List.foldl_cons, ← after, induction (same ▸ frozen), same]

end Session

end EntityCatalog
