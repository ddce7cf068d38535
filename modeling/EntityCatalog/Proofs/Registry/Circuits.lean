import EntityCatalog.Proofs.Entity.Embedding
import EntityCatalog.Proofs.Registry.Broken
import Mathlib.Data.List.Chain

/-!
# Circuits of embedded entities

Of every own embedded property it is told whether it closes a cycle.  A circuit
goes from a node through different nodes back to it (`Circuit`), and an edge
lies on one exactly if its end leads back to its start (`onCircuit_iff`).  This
is what the search along edges finds out, so that a property whose target is
embeddable is told of exactly if its edge lies on a circuit of embedded
entities.  The edge of a target that is not embeddable is not among those that
are searched.  Such a property is told of if the target leads to its entity all
the same (`Entities.tellsCycles`).
-/

namespace EntityCatalog

/-! ## Circuits -/

section

variable {Node : Type} {step : Node → Node → Prop}

/-- Steps from a node through different other nodes back to it. -/
structure Circuit (step : Node → Node → Prop) (start : Node)
    (between : List Node) : Prop where
  distinct : (start :: between).Nodup
  follows : (start :: between ++ [start]).IsChain step

/-- A circuit goes from one node directly to another. -/
def OnCircuit (step : Node → Node → Prop) (source target : Node) : Prop :=
  ∃ start between before after, Circuit step start between ∧
    start :: between ++ [start] = before ++ source :: target :: after

/-- Where steps lead, they lead without passing a node twice. -/
theorem exists_simple_path {first last : Node}
    (leads : Relation.ReflTransGen step first last) :
    ∃ front rest, front ++ [last] = first :: rest ∧
      (front ++ [last]).Nodup ∧ (front ++ [last]).IsChain step := by
  induction leads using Relation.ReflTransGen.head_induction_on with
  | refl =>
      exact ⟨[], [], rfl, List.nodup_singleton last,
        List.isChain_singleton last⟩
  | @head first second edge _ induction =>
      rcases induction with ⟨front, rest, starts, distinct, chain⟩
      by_cases here : first ∈ front ++ [last]
      · -- The path comes back to its first node, where it can be cut off.
        rcases List.mem_append.mp here with passed | ends
        · rcases List.append_of_mem passed with ⟨before, after, rfl⟩
          rw [List.append_assoc] at distinct chain
          exact ⟨first :: after, after ++ [last], rfl,
            (List.nodup_append.mp distinct).2.1, chain.right_of_append⟩
        · cases List.mem_singleton.mp ends
          exact ⟨[], [], rfl, List.nodup_singleton last,
            List.isChain_singleton last⟩
      · refine ⟨first :: front, front ++ [last], rfl,
          List.nodup_cons.mpr ⟨here, distinct⟩, ?_⟩
        rw [starts] at chain
        rw [List.cons_append, starts]
        exact List.isChain_cons_cons.mpr ⟨edge, chain⟩

/-- The first of a chain of steps leads to all of them. -/
theorem leads_of_isChain {first : Node} {nodes : List Node}
    (chain : (first :: nodes).IsChain step) :
    ∀ node ∈ first :: nodes, Relation.ReflTransGen step first node := by
  have leads : (first :: nodes).Pairwise (Relation.ReflTransGen step) :=
    (chain.imp fun _ _ => Relation.ReflTransGen.single).pairwise
  intro node member
  rcases List.mem_cons.mp member with rfl | after
  · exact .refl
  · exact (List.pairwise_cons.mp leads).1 node after

/-- An edge lies on a circuit exactly if its end leads back to its start. -/
theorem onCircuit_iff {source target : Node} :
    OnCircuit step source target ↔
      step source target ∧ Relation.ReflTransGen step target source := by
  constructor
  · rintro ⟨start, between, before, after, circuit, split⟩
    have chain := circuit.follows
    have onward : Relation.ReflTransGen step start source := by
      refine leads_of_isChain chain source ?_
      change source ∈ start :: between ++ [start]
      rw [split]
      exact List.mem_append_right _ (List.mem_cons_self ..)
    rw [split] at chain
    rcases List.isChain_append_cons_cons.mp chain with ⟨-, edge, later⟩
    have returns : start ∈ target :: after := by
      have last := congrArg List.getLast? split
      rw [List.getLast?_concat, List.append_cons,
        List.getLast?_append_of_ne_nil _ (List.cons_ne_nil _ _)] at last
      exact List.mem_of_getLast? last.symm
    exact ⟨edge, (leads_of_isChain later start returns).trans onward⟩
  · rintro ⟨edge, leads⟩
    rcases exists_simple_path leads with
      ⟨front, rest, starts, distinct, chain⟩
    refine ⟨source, front, [], rest, ⟨?_, ?_⟩, ?_⟩
    · exact List.nodup_append_comm.mp distinct
    · rw [List.cons_append, starts]
      rw [starts] at chain
      exact List.isChain_cons_cons.mpr ⟨edge, chain⟩
    · rw [List.cons_append, starts, List.nil_append]

end

namespace Entities

variable {entities : Entities}

/-! ## Properties that close a cycle -/

/-- An embedded property with a known target closes a cycle, in one of two
ways. -/
inductive Closes (entities : Entities) (property : Property)
    (target : Entity) : Prop
  /-- The target is embeddable, and the edge to it lies on a circuit. -/
  | circuit (embeddable : target.embeddable = true)
      (lies : OnCircuit entities.Embeds property.declaredBy target.name) :
      Closes entities property target
  /-- The target is not embeddable, but leads to the entity of the property. -/
  | misplaced (plain : target.embeddable = false)
      (leads : Relation.ReflTransGen entities.Embeds target.name
        property.declaredBy) :
      Closes entities property target

/-- What the search finds out about the target of an embedded property is
whether the property closes a cycle. -/
theorem closes_iff_reaches {property : Property} {target : Entity}
    (targets : entities.Targets property target)
    (isEmbedded : property.isEmbedded = true) :
    entities.Closes property target ↔
      entities.embeddingEdges.reaches target.name property.declaredBy =
        true := by
  rw [Edges.reaches_iff, leads_embeddingEdges_iff]
  constructor
  · rintro (⟨-, lies⟩ | ⟨-, leads⟩)
    · exact (onCircuit_iff.mp lies).2
    · exact leads
  · intro leads
    cases embeddable : target.embeddable with
    | false => exact .misplaced embeddable leads
    | true =>
        have edge : entities.Embeds property.declaredBy target.name :=
          ⟨property, target, targets, isEmbedded, embeddable, rfl, rfl⟩
        exact .circuit embeddable (onCircuit_iff.mpr ⟨edge, leads⟩)

/-- A cycle is told for the own embedded properties whose target leads back. -/
theorem mem_embeddingCycles_iff {defect : Defect} :
    defect ∈ entities.embeddingCycles ↔
      ∃ property target, entities.Targets property target ∧
        property.isEmbedded = true ∧
        entities.embeddingEdges.reaches target.name property.declaredBy =
          true ∧
        .configuration property.origin (.embeddingCycle target.name) =
          defect := by
  rw [embeddingCycles, List.mem_filterMap]
  constructor
  · rintro ⟨⟨entity, property, target⟩, member, told⟩
    rcases targets_of_mem member with ⟨named, targets⟩
    dsimp only at told
    split at told
    · rename_i closes
      rw [Bool.and_eq_true, named] at closes
      refine ⟨property, target, targets, closes.1, closes.2, ?_⟩
      rw [← Option.some.inj told, Entity.place, named]
      rfl
    · cases told
  · rintro ⟨property, target, targets, isEmbedded, returns, rfl⟩
    rcases targets.mem with ⟨entity, named, member⟩
    refine ⟨_, member, ?_⟩
    dsimp only
    rw [isEmbedded, named, returns, Entity.place, named]
    rfl

/-- A wrong target is no cycle. -/
theorem targetMisuse_ne_embeddingCycle {property : Property} {target : Entity}
    (name : String) :
    targetMisuse property target ≠ some (.embeddingCycle name) := by
  unfold targetMisuse
  cases property.isEmbedded <;> cases target.embeddable <;> simp

theorem not_mem_targetDefects {place : Place} {name : String} :
    .configuration place (.embeddingCycle name) ∉ entities.targetDefects := by
  intro member
  rcases List.mem_filterMap.mp member with ⟨⟨_, property, target⟩, -, told⟩
  rcases Option.map_eq_some_iff.mp told with ⟨misuse, wrong, same⟩
  cases same
  exact targetMisuse_ne_embeddingCycle name wrong

/-! ## What is told, once -/

/-- Own properties with known targets stand at different places. -/
theorem pairwise_ownTargets :
    entities.ownTargets.Pairwise fun first second =>
      first.1.place first.2.1 ≠ second.1.place second.2.1 := by
  rw [ownTargets, List.pairwise_flatMap]
  constructor
  · intro entity _
    have names : entity.ownProperties.Pairwise fun first second =>
        first.name ≠ second.name :=
      (List.pairwise_map.mp entity.properties.distinct).filter _
    refine names.filterMap _ fun first second different => ?_
    rintro earlier inFirst later inSecond
    rcases Option.map_eq_some_iff.mp inFirst with ⟨target, -, rfl⟩
    rcases Option.map_eq_some_iff.mp inSecond with ⟨other, -, rfl⟩
    exact fun same => different (congrArg Place.property same)
  · refine (List.pairwise_map.mp entities.distinct).imp fun different => ?_
    rintro earlier inFirst later inSecond
    rcases List.mem_filterMap.mp inFirst with ⟨property, -, first⟩
    rcases List.mem_filterMap.mp inSecond with ⟨other, -, second⟩
    rcases Option.map_eq_some_iff.mp first with ⟨target, -, rfl⟩
    rcases Option.map_eq_some_iff.mp second with ⟨another, -, rfl⟩
    exact fun same => different (congrArg Place.entity same)

/-- What is told of own properties at their places is told once. -/
theorem nodup_filterMap_ownTargets
    {tell : Entity × Property × Entity → Option Defect}
    (located : ∀ own defect, tell own = some defect →
      ∃ misuse, .configuration (own.1.place own.2.1) misuse = defect) :
    (entities.ownTargets.filterMap tell).Nodup := by
  refine pairwise_ownTargets.filterMap _ fun first second different => ?_
  rintro defect inFirst other inSecond same
  rcases located first defect inFirst with ⟨misuse, rfl⟩
  rcases located second other inSecond with ⟨another, rfl⟩
  exact different (Defect.configuration.inj same).1

theorem nodup_embeddingDefects : entities.embeddingDefects.Nodup := by
  refine List.nodup_append.mpr
    ⟨nodup_filterMap_ownTargets ?_, nodup_filterMap_ownTargets ?_, ?_⟩
  · rintro ⟨entity, property, target⟩ defect told
    rcases Option.map_eq_some_iff.mp told with ⟨misuse, -, same⟩
    exact ⟨misuse, same⟩
  · rintro ⟨entity, property, target⟩ defect told
    rw [Option.ite_none_right_eq_some] at told
    exact ⟨_, Option.some.inj told.2⟩
  · rintro defect wrong other cycle rfl
    rcases mem_embeddingCycles_iff.mp cycle with
      ⟨property, target, -, -, -, rfl⟩
    exact not_mem_targetDefects wrong

/-- Of the own embedded properties exactly those that close a cycle are told
of. -/
structure TellsCycles (entities : Entities) : Prop where
  /-- A cycle is told of a place if the own embedded property there closes
  one. -/
  told : ∀ place name,
    .configuration place (.embeddingCycle name) ∈ entities.embeddingDefects ↔
      ∃ property target, entities.Targets property target ∧
        property.isEmbedded = true ∧ property.origin = place ∧
        target.name = name ∧ entities.Closes property target
  once : entities.embeddingDefects.Nodup

theorem tellsCycles (entities : Entities) : entities.TellsCycles := by
  refine ⟨fun place name => ?_, nodup_embeddingDefects⟩
  rw [embeddingDefects, List.mem_append, or_iff_right not_mem_targetDefects,
    mem_embeddingCycles_iff]
  constructor
  · rintro ⟨property, target, targets, isEmbedded, returns, same⟩
    cases same
    exact ⟨property, target, targets, isEmbedded, rfl, rfl,
      (closes_iff_reaches targets isEmbedded).mpr returns⟩
  · rintro ⟨property, target, targets, isEmbedded, rfl, rfl, closes⟩
    exact ⟨property, target, targets, isEmbedded,
      (closes_iff_reaches targets isEmbedded).mp closes, rfl⟩

end Entities

open Resolution.Setting in
/-- The search along edges finds exactly what edges lead to.  So cycles are told
of exactly the own embedded properties that close one, and a resolution reports
what is told of the entities in the end, in its words. -/
theorem Entities.tells_embedding_cycles :
    (∀ (edges : Edges) (start goal : String),
        edges.reaches start goal = true ↔ edges.Leads start goal) ∧
      (∀ entities : Entities, entities.TellsCycles) ∧
      ∀ (setting : Resolution.Setting) (tally : Tally),
        ∀ defect ∈ (setting.entitiesAt tally).embeddingDefects,
          ∃ reported ∈ (setting.run tally).defects,
            reported.message = defect.message := by
  refine ⟨Edges.reaches_iff, tellsCycles, fun setting tally defect told => ?_⟩
  refine exists_worded (mem_collected_iff.mpr ?_)
  simp only [told, true_or, or_true]

/-- An entity that may not be embedded and embeds itself closes a cycle that has
no edge. -/
example :
    let entities : Entities := .ofList [{
      name := "Point"
      properties := .ofList [{
        name := "origin"
        nature := .embedded ⟨⟨.name "Point", some "Point"⟩, none⟩
        declaredBy := "Point" }] }]
    entities.embeddingEdges = [] ∧ entities.embeddingDefects =
      [.configuration ⟨"Point", "origin"⟩ (.notEmbeddable "Point"),
        .configuration ⟨"Point", "origin"⟩ (.embeddingCycle "Point")] := by
  cbv

end EntityCatalog
