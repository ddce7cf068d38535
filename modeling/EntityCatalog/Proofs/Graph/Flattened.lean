import EntityCatalog.Graph.Columns
import EntityCatalog.Proofs.Graph.Linked
import EntityCatalog.Proofs.Entity.Embedding
import Mathlib.Data.Finset.Card

/-!
# Flattened columns

A route leads through embedded properties to a property with a column.  The
columns of an entity are those at the ends of its routes, each once and in the
order of a walk that follows a property to its ends before it turns to the next
one (`Graph.Flattens`).

The columns are computed with a bound on the number of embedded properties in
a row.  Where no embeddable entity inherits an embedded property, what the
check of embedding rules out covers every property that an embeddable entity
holds.  No entity is then reached from itself, each entity has a rank below the
number of entities, which falls along embedded properties, and the bound leaves
nothing out (`flattens_of_frozen`).
-/

namespace EntityCatalog

/-! ## Routes -/

/-- Properties that lead to a column: those that are embedded, from the outside
inwards, and the one that holds the column. -/
structure Route where
  embedded : List Property
  last : Property

namespace Route

/-- All properties of a route. -/
def properties (route : Route) : List Property :=
  route.embedded ++ [route.last]

/-- The names of the properties of a route. -/
def names (route : Route) : List String :=
  route.properties.map Property.name

/-- The column at the end of a route.  Its name has the prefixes of all embedded
properties on the way in front. -/
def column (route : Route) : Column where
  name := String.join (route.embedded.map Property.columnPrefix) ++
    route.last.name
  path := route.names
  property := route.last

/-- A route that goes through one more property. -/
def within (property : Property) (route : Route) : Route :=
  { route with embedded := property :: route.embedded }

/-- One more property on the way puts its prefix in front of the column. -/
@[simp]
theorem column_within (property : Property) (route : Route) :
    (route.within property).column = route.column.within property := by
  simp [column, within, Column.within, names, properties, String.append_assoc]

@[simp]
theorem column_own (property : Property) :
    (Route.mk [] property).column = Column.own property := by
  simp [column, Column.own, names, properties]

end Route

namespace Graph

/-- An entity holds an embedded property that points at another entity. -/
def Embeds (graph : Graph) (holder target : Entity) : Prop :=
  ∃ property ∈ holder.properties.items,
    property.isEmbedded = true ∧ graph.target? property = some target

/-- A route starts at an entity: each property on the way is embedded and leads
to the entity that holds the next one. -/
inductive Leads (graph : Graph) : Entity → Route → Prop where
  | own {entity : Entity} {property : Property}
      (held : property ∈ entity.properties.items)
      (plain : property.isEmbedded = false)
      (stored : property.hasColumn = true) :
      Leads graph entity ⟨[], property⟩
  | within {entity target : Entity} {property : Property} {route : Route}
      (held : property ∈ entity.properties.items)
      (embeds : property.isEmbedded = true)
      (aims : graph.target? property = some target)
      (rest : Leads graph target route) :
      Leads graph entity (route.within property)

/-- One route comes before another: where they part, its property comes first
in the entity that both have reached. -/
inductive Precedes (graph : Graph) :
    Entity → List Property → List Property → Prop where
  | part {entity : Entity} {first second : Property}
      {left right : List Property}
      (order : List.Sublist [first, second] entity.properties.items) :
      Precedes graph entity (first :: left) (second :: right)
  | share {entity target : Entity} {property : Property}
      {left right : List Property}
      (aims : graph.target? property = some target)
      (rest : Precedes graph target left right) :
      Precedes graph entity (property :: left) (property :: right)

/-- Routes in order have different names. -/
theorem Precedes.names_ne {graph : Graph} {entity : Entity}
    {left right : List Property} (precedes : graph.Precedes entity left right) :
    left.map Property.name ≠ right.map Property.name := by
  induction precedes with
  | @part entity first second left right order =>
      intro same
      have distinct := entity.properties.distinct.sublist (order.map _)
      have equal : first.name = second.name := (List.cons.inj same).1
      simp [equal] at distinct
  | share _ _ induction =>
      intro same
      exact induction (List.cons.inj same).2

/-! ## Walking to a bounded depth -/

section Walk

variable (graph : Graph)

/-- The routes that start with a property, given those from embedded
entities. -/
def routesThrough (embedded : Entity → List Route) (property : Property) :
    List Route :=
  if property.isEmbedded then
    ((graph.target? property).elim [] embedded).map (Route.within property)
  else if property.hasColumn then [⟨[], property⟩]
  else []

/-- The routes from an entity through fewer than `depth` embedded properties. -/
def routesWithin : Nat → Entity → List Route
  | 0, _ => []
  | depth + 1, entity =>
    entity.properties.items.flatMap (graph.routesThrough (routesWithin depth))

variable {graph}

theorem columnsOf_map_column (embedded : Entity → List Route)
    (properties : List Property) :
    graph.columnsOf (fun target => (embedded target).map Route.column)
        properties =
      (properties.flatMap (graph.routesThrough embedded)).map Route.column := by
  rw [columnsOf, List.map_flatMap]
  congr 1
  funext property
  rw [routesThrough]
  split
  · cases graph.target? property <;> simp
  · split <;> simp

/-- The columns within a depth are those at the ends of the routes. -/
theorem columnsWithin_eq (depth : Nat) (entity : Entity) :
    graph.columnsWithin depth entity =
      (graph.routesWithin depth entity).map Route.column := by
  induction depth generalizing entity with
  | zero => rfl
  | succ depth induction =>
      have below : graph.columnsWithin depth =
          fun target => (graph.routesWithin depth target).map Route.column :=
        funext induction
      rw [columnsWithin, routesWithin, below, columnsOf_map_column]

theorem mem_routesThrough_iff {embedded : Entity → List Route}
    {property : Property} {route : Route} :
    route ∈ graph.routesThrough embedded property ↔
      (property.isEmbedded = true ∧ ∃ target,
        graph.target? property = some target ∧
          ∃ rest ∈ embedded target, rest.within property = route) ∨
      (property.isEmbedded = false ∧ property.hasColumn = true ∧
        route = ⟨[], property⟩) := by
  rw [routesThrough]
  cases property.isEmbedded <;> cases property.hasColumn <;>
    cases graph.target? property <;> simp

theorem properties_of_mem_routesThrough {embedded : Entity → List Route}
    {property : Property} {route : Route}
    (member : route ∈ graph.routesThrough embedded property) :
    ∃ rest, route.properties = property :: rest := by
  rcases mem_routesThrough_iff.mp member with
    ⟨_, _, _, rest, _, rfl⟩ | ⟨_, _, rfl⟩
  · exact ⟨rest.properties, rfl⟩
  · exact ⟨[], rfl⟩

/-- The columns of an entity depend on those of the entities it embeds. -/
theorem columnsOf_congr {entity : Entity} {left right : Entity → List Column}
    (agree : ∀ target, graph.Embeds entity target →
      left target = right target) :
    graph.columnsOf left entity.properties.items =
      graph.columnsOf right entity.properties.items := by
  refine List.flatMap_congr fun property held => ?_
  split
  · rename_i embeds
    cases aims : graph.target? property with
    | none => rfl
    | some target =>
        rw [Option.elim_some, Option.elim_some,
          agree target ⟨property, held, embeds, aims⟩]
  · rfl

/-- What is found within a depth is a route. -/
theorem leads_of_mem_routesWithin {depth : Nat} {entity : Entity}
    {route : Route} (found : route ∈ graph.routesWithin depth entity) :
    graph.Leads entity route := by
  induction depth generalizing entity route with
  | zero => cases found
  | succ depth induction =>
      rcases List.mem_flatMap.mp found with ⟨property, held, through⟩
      rcases mem_routesThrough_iff.mp through with
        ⟨embeds, target, aims, rest, inside, rfl⟩ | ⟨plain, stored, rfl⟩
      · exact .within held embeds aims (induction inside)
      · exact .own held plain stored

/-- The routes through a property come before those through the next one. -/
theorem pairwise_routesWithin (depth : Nat) (entity : Entity) :
    (graph.routesWithin depth entity).Pairwise fun left right =>
      graph.Precedes entity left.properties right.properties := by
  induction depth generalizing entity with
  | zero => exact List.Pairwise.nil
  | succ depth induction =>
      rw [routesWithin, List.pairwise_flatMap]
      constructor
      · intro property _
        rw [routesThrough]
        split
        · cases aims : graph.target? property with
          | none => exact List.Pairwise.nil
          | some target =>
              rw [Option.elim_some, List.pairwise_map]
              exact (induction target).imp fun rest => .share aims rest
        · split <;> simp
      · rw [List.pairwise_iff_forall_sublist]
        intro first second order left inFirst right inSecond
        rcases properties_of_mem_routesThrough inFirst with ⟨leftRest, leftIs⟩
        rcases properties_of_mem_routesThrough inSecond with
          ⟨rightRest, rightIs⟩
        rw [leftIs, rightIs]
        exact .part order

end Walk

/-! ## Ranks -/

/-- A rank falls along embedded properties and stays below the number of
entities. -/
structure Ranks (graph : Graph) (rank : Entity → Nat) : Prop where
  falls : ∀ holder ∈ graph.entities.items, ∀ target,
    graph.Embeds holder target → rank target < rank holder
  below : ∀ entity ∈ graph.entities.items, rank entity < graph.entities.size

theorem mem_of_target? {graph : Graph} {property : Property} {target : Entity}
    (aims : graph.target? property = some target) :
    target ∈ graph.entities.items := by
  rcases Option.bind_eq_some_iff.mp aims with ⟨name, -, found⟩
  exact (Table.find?_eq_some found).1

theorem Embeds.mem {graph : Graph} {holder target : Entity}
    (embeds : graph.Embeds holder target) : target ∈ graph.entities.items := by
  rcases embeds with ⟨property, _, _, aims⟩
  exact mem_of_target? aims

namespace Ranks

variable {graph : Graph} {rank : Entity → Nat} (ranks : graph.Ranks rank)

include ranks

/-- Following embedded properties ends. -/
theorem acc {entity : Entity} (member : entity ∈ graph.entities.items) :
    Acc (fun target holder => graph.Embeds holder target) entity := by
  induction height : rank entity using Nat.strongRecOn
    generalizing entity with
  | ind height induction =>
      subst height
      refine Acc.intro entity fun target embeds => ?_
      exact induction _ (ranks.falls entity member target embeds) embeds.mem rfl

/-- A bound above the rank leaves nothing out. -/
theorem columnsWithin_eq_of_lt {depth more : Nat} {entity : Entity}
    (member : entity ∈ graph.entities.items) (enough : rank entity < depth)
    (also : rank entity < more) :
    graph.columnsWithin depth entity = graph.columnsWithin more entity := by
  induction depth generalizing more entity with
  | zero => exact absurd enough (Nat.not_lt_zero _)
  | succ depth induction =>
      cases more with
      | zero => exact absurd also (Nat.not_lt_zero _)
      | succ more =>
          refine columnsOf_congr fun target embeds => ?_
          have lower := ranks.falls entity member target embeds
          exact induction embeds.mem (by omega) (by omega)

/-- Every route is found within a bound above the rank. -/
theorem mem_routesWithin {depth : Nat} {entity : Entity} {route : Route}
    (leads : graph.Leads entity route)
    (member : entity ∈ graph.entities.items) (enough : rank entity < depth) :
    route ∈ graph.routesWithin depth entity := by
  induction depth generalizing entity route with
  | zero => exact absurd enough (Nat.not_lt_zero _)
  | succ depth induction =>
      cases leads with
      | @own _ property held plain stored =>
          exact List.mem_flatMap.mpr ⟨property, held,
            mem_routesThrough_iff.mpr (Or.inr ⟨plain, stored, rfl⟩)⟩
      | @within _ target property route held embeds aims rest =>
          have lower := ranks.falls entity member target
            ⟨property, held, embeds, aims⟩
          have inside := induction rest (mem_of_target? aims) (by omega)
          exact List.mem_flatMap.mpr ⟨property, held, mem_routesThrough_iff.mpr
            (Or.inl ⟨embeds, target, aims, route, inside, rfl⟩)⟩

end Ranks

/-- Where no entity is reached from itself, the number of entities that an
entity reaches is a rank. -/
theorem exists_ranks {graph : Graph}
    (acyclic : ∀ entity ∈ graph.entities.items,
      ¬ Relation.TransGen graph.Embeds entity entity) :
    ∃ rank, graph.Ranks rank := by
  classical
  let reached (entity : Entity) : Finset String :=
    graph.entities.keys.toFinset.filter fun name =>
      ∃ other, Relation.TransGen graph.Embeds entity other ∧ other.name = name
  have inside : ∀ {entity other}, Relation.TransGen graph.Embeds entity other →
      other.name ∈ reached entity := by
    intro entity other reaches
    refine Finset.mem_filter.mpr ⟨?_, other, reaches, rfl⟩
    rcases Relation.TransGen.tail'_iff.mp reaches with ⟨_, _, last⟩
    exact List.mem_toFinset.mpr (List.mem_map_of_mem last.mem)
  have apart : ∀ entity ∈ graph.entities.items,
      entity.name ∉ reached entity := by
    intro entity member found
    rcases (Finset.mem_filter.mp found).2 with ⟨other, reaches, named⟩
    rcases Relation.TransGen.tail'_iff.mp reaches with ⟨_, _, last⟩
    have same : other = entity :=
      List.inj_on_of_nodup_map graph.entities.distinct last.mem member named
    exact acyclic entity member (same ▸ reaches)
  refine ⟨fun entity => (reached entity).card, ⟨?_, ?_⟩⟩
  · intro holder member target embeds
    refine Finset.card_lt_card ⟨?_, fun all => ?_⟩
    · intro name found
      rcases (Finset.mem_filter.mp found).2 with ⟨other, reaches, rfl⟩
      exact inside (.head embeds reaches)
    · exact apart target embeds.mem (all (inside (.single embeds)))
  · intro entity member
    have fewer : reached entity ⊂ graph.entities.keys.toFinset := by
      refine ⟨Finset.filter_subset _ _, fun all => apart entity member (all ?_)⟩
      exact List.mem_toFinset.mpr (List.mem_map_of_mem member)
    calc (reached entity).card
      _ < graph.entities.keys.toFinset.card := Finset.card_lt_card fewer
      _ ≤ graph.entities.keys.length := List.toFinset_card_le _
      _ = graph.entities.size := Table.length_keys _

theorem columns_name {graph : Graph} {entity : Entity}
    (member : entity ∈ graph.entities.items) :
    graph.columns entity.name =
      graph.columnsWithin graph.entities.size entity := by
  rw [columns, entity?, Table.find?_key member, Option.map_some,
    Option.getD_some]

/-- The columns of an entity are the ends of its routes. -/
structure Flattens (graph : Graph) (entity : Entity) : Prop where
  ends : Acc (fun target holder => graph.Embeds holder target) entity
  /-- The bound on the depth is never met: the columns are those that following
  all embedded properties gives. -/
  unbounded : graph.columns entity.name =
    graph.columnsOf (fun target => graph.columns target.name)
      entity.properties.items
  /-- The columns are those at the ends of all routes, each route taken once
  and in the order of the walk. -/
  routes : ∃ routes : List Route,
    graph.columns entity.name = routes.map Route.column ∧
      (∀ route, route ∈ routes ↔ graph.Leads entity route) ∧
      (routes.map Route.names).Nodup ∧
      routes.Pairwise fun left right =>
        graph.Precedes entity left.properties right.properties

/-- With a rank the bound is enough for every entity. -/
theorem Ranks.flattens {graph : Graph} {rank : Entity → Nat}
    (ranks : graph.Ranks rank) {entity : Entity}
    (member : entity ∈ graph.entities.items) : graph.Flattens entity where
  ends := ranks.acc member
  unbounded := by
    have below := ranks.below entity member
    rw [columns_name member, ranks.columnsWithin_eq_of_lt member below
      (Nat.lt_succ_of_lt below), columnsWithin]
    refine columnsOf_congr fun target embeds => ?_
    rw [columns_name embeds.mem]
  routes := by
    refine ⟨graph.routesWithin graph.entities.size entity, ?_, ?_, ?_,
      pairwise_routesWithin ..⟩
    · rw [columns_name member, columnsWithin_eq]
    · intro route
      exact ⟨leads_of_mem_routesWithin, fun leads =>
        ranks.mem_routesWithin leads member (ranks.below entity member)⟩
    · exact List.pairwise_map.mpr
        ((pairwise_routesWithin ..).imp Precedes.names_ne)

end Graph

/-! ## Embedding in frozen graphs -/

/-- Embedded properties of embeddable entities are declared where they are
held. -/
def Graph.EmbedsOwn (graph : Graph) : Prop :=
  ∀ entity ∈ graph.entities.items, entity.embeddable = true →
    ∀ property ∈ entity.properties.items, property.isEmbedded = true →
      property.declaredBy = entity.name

instance (graph : Graph) : Decidable graph.EmbedsOwn :=
  inferInstanceAs (Decidable (∀ entity ∈ graph.entities.items,
    entity.embeddable = true → ∀ property ∈ entity.properties.items,
      property.isEmbedded = true → property.declaredBy = entity.name))

/-- An own property of an embeddable entity that points somewhere is among
those that were checked. -/
theorem Graph.EmbedsOwn.targets {graph : Graph} (own : graph.EmbedsOwn)
    {entity target : Entity} (member : entity ∈ graph.entities.items)
    (embeddable : entity.embeddable = true) {property : Property}
    (held : property ∈ entity.properties.items)
    (embeds : property.isEmbedded = true)
    (aims : graph.target? property = some target) :
    property.declaredBy = entity.name ∧
      graph.entities.Targets property target := by
  have declared := own entity member embeddable property held embeds
  refine ⟨declared, ?_, aims⟩
  rw [Property.origin, declared]
  exact Entities.property?_of_mem member held

namespace Resolution.Setting.Silent

variable {setting : Setting} {tally : Tally} (silent : setting.Silent tally)
  {graph : Graph} (entities : graph.entities = setting.entitiesAt tally)

include silent entities

/-- What is embedded is embeddable. -/
theorem embeddable_of_embeds {holder target : Entity}
    (member : holder ∈ graph.entities.items)
    (embeds : graph.Embeds holder target) : target.embeddable = true := by
  rcases embeds with ⟨property, held, embeds, aims⟩
  rcases (silent.links entities member).embedded property held embeds with
    ⟨other, found, embeddable⟩
  rw [aims] at found
  cases found
  exact embeddable

/-- Embedding among embeddable entities goes along the edges that were
checked. -/
theorem leads_of_embeds (own : graph.EmbedsOwn) {start stop : Entity}
    (leads : Relation.ReflTransGen graph.Embeds start stop)
    (member : start ∈ graph.entities.items)
    (embeddable : start.embeddable = true) :
    Relation.ReflTransGen graph.entities.Embeds start.name stop.name := by
  induction leads using Relation.ReflTransGen.head_induction_on with
  | refl => exact .refl
  | @head start next embeds _ induction =>
      have onward := silent.embeddable_of_embeds entities member embeds
      refine .head ?_ (induction embeds.mem onward)
      rcases embeds with ⟨property, held, isEmbedded, aims⟩
      rcases own.targets member embeddable held isEmbedded aims with
        ⟨declared, targets⟩
      exact ⟨property, next, targets, isEmbedded, onward, declared, rfl⟩

/-- Where embeddable entities embed only through properties of their own, no
entity is reached from itself. -/
theorem acyclic_of_embedsOwn (own : graph.EmbedsOwn) :
    ∀ entity ∈ graph.entities.items,
      ¬ Relation.TransGen graph.Embeds entity entity := by
  intro entity member cycle
  -- The entity is embedded by the last one on the way, so it is embeddable.
  have embeddable : entity.embeddable = true := by
    rcases Relation.TransGen.tail'_iff.mp cycle with ⟨holder, way, last⟩
    refine silent.embeddable_of_embeds entities ?_ last
    rcases Relation.ReflTransGen.cases_tail way with rfl | ⟨_, _, before⟩
    · exact member
    · exact before.mem
  rcases Relation.TransGen.head'_iff.mp cycle with ⟨first, embeds, back⟩
  have leads := silent.leads_of_embeds entities own back embeds.mem
    (silent.embeddable_of_embeds entities member embeds)
  rcases embeds with ⟨property, held, isEmbedded, aims⟩
  rcases own.targets member embeddable held isEmbedded aims with
    ⟨declared, targets⟩
  rw [← declared] at leads
  rw [entities] at leads targets
  exact (Entities.embeddingDefects_eq_nil_iff.mp silent.embedding _ _
    targets).2 isEmbedded leads

end Resolution.Setting.Silent

/-- In the graph of a frozen registry whose embeddable entities inherit no
embedded property, following embedded properties ends at every entity, and its
columns are those at the ends of its routes. -/
theorem flattens_of_frozen {sources : Sources} {registry : Registry}
    {tally : Tally} {graph : Graph} {entity : Entity}
    (reachable : registry.Reachable sources)
    (frozen : (registry.finalize sources tally).outcome = .ok graph)
    (own : graph.EmbedsOwn) (member : entity ∈ graph.entities.items) :
    graph.Flattens entity := by
  rcases reachable.run_of_finalize frozen with ⟨tally, none, entities⟩
  have silent := Resolution.Setting.silent_of_run none
  rw [Resolution.Setting.run_eq] at entities
  rcases Graph.exists_ranks (silent.acyclic_of_embedsOwn entities own) with
    ⟨rank, ranks⟩
  exact ranks.flattens member

/-! ## Letters -/

/-- Letters with two addresses, each with a street: embedding is nested, some
prefixes are declared, and a kind of letter inherits what it embeds. -/
def letters : Registry :=
  (Registry.registerAll {} [
    { name := "Letter"
      properties := .ofList [
        ("id", { Options.typed "integer" with primary := true }),
        ("sender", .embedded (.deferred 0)),
        ("receiver", { Options.embedded (.name "Address") with
          columnPrefix := some "to_" })] },
    { name := "Express"
      base := some (.name "Letter") },
    { name := "Address"
      embeddable := true
      properties := .ofList [
        ("street", { Options.embedded (.name "Street") with
          columnPrefix := some "" }),
        ("city", .typed "string")] },
    { name := "Street"
      embeddable := true
      properties := .ofList [("line", .typed "string")] }]).1

/-- The only source gives the address of the sender. -/
def letterSources : Sources where
  reference _ _ := .name "Address"
  mapping _ _ := []
  hook _ _ := .null

/-- The graph of the letters. -/
def letterGraph : Graph :=
  match (letters.finalize letterSources .empty).outcome with
  | .ok graph => graph
  | .error _ => default

theorem finalize_letters :
    (letters.finalize letterSources .empty).outcome = .ok letterGraph := by
  have succeeds : (letters.finalize letterSources .empty).outcome.isOk := by
    decide +kernel
  exact Registry.outcome_of_isOk succeeds

/-- An express letter has the columns of all its routes, among them those of
the addresses that it inherits. -/
theorem flattens_of_frozen_letters :
    Registry.Reachable letterSources letters ∧
      (letters.finalize letterSources .empty).outcome = .ok letterGraph ∧
      letterGraph.EmbedsOwn ∧
      ∃ entity ∈ letterGraph.entities.items, entity.name = "Express" ∧
        letterGraph.Flattens entity := by
  have reachable : Registry.Reachable letterSources letters :=
    (Registry.Reachable.new {}).registerAll _
  have own : letterGraph.EmbedsOwn := by
    decide +kernel
  have known : "Express" ∈ letterGraph.entities.keys := by
    decide +kernel
  rcases List.mem_map.mp known with ⟨entity, member, named⟩
  exact ⟨reachable, finalize_letters, own, entity, member, named,
    flattens_of_frozen reachable finalize_letters own member⟩

example : (letterGraph.columns "Express").map Column.name =
    ["id", "sender_line", "sender_city", "to_line", "to_city"] := by
  decide +kernel

end EntityCatalog
