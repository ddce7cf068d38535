import EntityCatalog.Entity.Embedding
import EntityCatalog.Proofs.Entity.Frame
import Mathlib.Logic.Relation

/-!
# What embedding depends on

The search along edges finds a node exactly if a path leads there
(`reaches_iff`), so it does not matter in which order the edges stand.  Nothing
is wrong with embedding exactly if every declared target may be the target of
its property and no path of embedded properties returns
(`embeddingDefects_eq_nil_iff`).
-/

namespace EntityCatalog

/-! ## Paths -/

namespace Edges

/-- A path of edges leads from one node to another. -/
def Leads (edges : Edges) : String → String → Prop :=
  Relation.ReflTransGen fun start stop => (start, stop) ∈ edges

theorem mem_successors_iff {edges : Edges} {node next : String} :
    next ∈ edges.successors node ↔ (node, next) ∈ edges := by
  simp only [successors, List.mem_map, List.mem_filter, decide_eq_true_eq]
  constructor
  · rintro ⟨⟨start, stop⟩, ⟨member, rfl⟩, rfl⟩
    exact member
  · intro member
    exact ⟨(node, next), ⟨member, rfl⟩, rfl⟩

theorem mem_without_iff {edges : Edges} {node start stop : String} :
    (start, stop) ∈ edges.without node ↔
      (start, stop) ∈ edges ∧ start ≠ node := by
  simp [without]

/-- A path leaves a node for good, or does not use it at all. -/
theorem Leads.avoid {edges : Edges} {start goal : String}
    (leads : edges.Leads start goal) (node : String) :
    (edges.without node).Leads start goal ∨
      ∃ next ∈ edges.successors node, (edges.without node).Leads next goal := by
  induction leads using Relation.ReflTransGen.head_induction_on with
  | refl => exact Or.inl .refl
  | @head first second edge rest induction =>
      rcases induction with onward | later
      · by_cases same : first = node
        · subst same
          exact Or.inr ⟨second, mem_successors_iff.mpr edge, onward⟩
        · exact Or.inl (.head (mem_without_iff.mpr ⟨edge, same⟩) onward)
      · exact Or.inr later

theorem Leads.of_without {edges : Edges} {node start goal : String}
    (leads : (edges.without node).Leads start goal) :
    edges.Leads start goal :=
  Relation.ReflTransGen.mono
    (fun _ _ member => (mem_without_iff.mp member).1) _ _ leads

/-- The search succeeds exactly if a path leads from the stack to the goal. -/
theorem search_iff (edges : Edges) (goal : String) (stack : List String) :
    edges.search goal stack = true ↔ ∃ node ∈ stack, edges.Leads node goal := by
  induction edges, stack using search.induct goal with
  | case1 edges => simp [search]
  | case2 edges stack =>
      rw [search, if_pos rfl]
      exact iff_of_true rfl ⟨goal, List.mem_cons_self .., .refl⟩
  | case3 edges node stack different induction =>
      rw [search, if_neg different, induction]
      constructor
      · rintro ⟨next, member, leads⟩
        rcases List.mem_append.mp member with after | waiting
        · exact ⟨node, List.mem_cons_self ..,
            .head (mem_successors_iff.mp after) leads.of_without⟩
        · exact ⟨next, List.mem_cons_of_mem _ waiting, leads.of_without⟩
      · rintro ⟨start, member, leads⟩
        rcases leads.avoid node with onward | ⟨next, after, later⟩
        · rcases List.mem_cons.mp member with rfl | waiting
          · -- No edge is left that starts at the node.
            rcases Relation.ReflTransGen.cases_head onward with
              same | ⟨next, edge, -⟩
            · exact absurd same different
            · exact absurd rfl (mem_without_iff.mp edge).2
          · exact ⟨start, List.mem_append_right _ waiting, onward⟩
        · exact ⟨next, List.mem_append_left _ after, later⟩

theorem reaches_iff (edges : Edges) (start goal : String) :
    edges.reaches start goal = true ↔ edges.Leads start goal := by
  rw [reaches, search_iff]
  simp

end Edges

/-! ## Embedded entities -/

namespace Entities

/-- A property that an entity declares points at a known entity. -/
structure Targets (entities : Entities) (property : Property)
    (target : Entity) : Prop where
  held : entities.property? property.origin = some property
  known : property.targetName?.bind entities.find? = some target

/-- An entity embeds another one, which may be embedded. -/
def Embeds (entities : Entities) (holder embedded : String) : Prop :=
  ∃ property target, entities.Targets property target ∧
    property.isEmbedded = true ∧ target.embeddable = true ∧
    property.declaredBy = holder ∧ target.name = embedded

variable {entities : Entities}

theorem targets_of_mem {entity target : Entity} {property : Property}
    (member : (entity, property, target) ∈ entities.ownTargets) :
    entity.name = property.declaredBy ∧ entities.Targets property target := by
  rcases List.mem_flatMap.mp member with ⟨holder, item, inside⟩
  rcases List.mem_filterMap.mp inside with ⟨own, owned, found⟩
  rcases Option.map_eq_some_iff.mp found with ⟨other, known, same⟩
  cases same
  refine ⟨(of_decide_eq_true (List.mem_filter.mp owned).2).symm, ?_, known⟩
  exact mem_ownProperties_iff.mp (List.mem_flatMap.mpr ⟨_, item, owned⟩)

theorem Targets.mem {property : Property} {target : Entity}
    (targets : entities.Targets property target) :
    ∃ entity, entity.name = property.declaredBy ∧
      (entity, property, target) ∈ entities.ownTargets := by
  rcases List.mem_flatMap.mp (mem_ownProperties_iff.mpr targets.held) with
    ⟨entity, item, owned⟩
  refine ⟨entity,
    (of_decide_eq_true (List.mem_filter.mp owned).2).symm, ?_⟩
  refine List.mem_flatMap.mpr ⟨entity, item, List.mem_filterMap.mpr ?_⟩
  exact ⟨property, owned, by rw [targets.known, Option.map_some]⟩

/-- The edges are those from entities to what they embed. -/
theorem mem_embeddingEdges_iff {holder embedded : String} :
    (holder, embedded) ∈ entities.embeddingEdges ↔
      entities.Embeds holder embedded := by
  rw [embeddingEdges, List.mem_filterMap]
  constructor
  · rintro ⟨⟨entity, property, target⟩, member, edge⟩
    rcases targets_of_mem member with ⟨named, targets⟩
    dsimp only at edge
    split at edge
    · rename_i embeds
      rw [Bool.and_eq_true] at embeds
      cases edge
      exact ⟨property, target, targets, embeds.1, embeds.2, named.symm, rfl⟩
    · cases edge
  · rintro ⟨property, target, targets, isEmbedded, embeddable, rfl, rfl⟩
    rcases targets.mem with ⟨entity, named, member⟩
    refine ⟨_, member, ?_⟩
    dsimp only
    rw [isEmbedded, embeddable, named]
    rfl

theorem leads_embeddingEdges_iff {start stop : String} :
    entities.embeddingEdges.Leads start stop ↔
      Relation.ReflTransGen entities.Embeds start stop := by
  have same : (fun start stop => (start, stop) ∈ entities.embeddingEdges) =
      entities.Embeds :=
    funext fun start => funext fun stop => propext mem_embeddingEdges_iff
  rw [Edges.Leads, same]

/-- What is wrong with embedding is wrong with an own property and its target.
Of a property that is not embedded it is only that the target is embeddable. -/
theorem exists_ownTarget_of_mem_embeddingDefects {defect : Defect}
    (member : defect ∈ entities.embeddingDefects) :
    ∃ (entity : Entity) (property : Property) (target : Entity)
      (misuse : Misuse), (entity, property, target) ∈ entities.ownTargets ∧
        .configuration (entity.place property) misuse = defect ∧
        (property.isEmbedded = false → target.embeddable = true ∧
          misuse = .embeddableTarget target.name) := by
  rcases List.mem_append.mp member with targeted | cycle
  · rcases List.mem_filterMap.mp targeted with
      ⟨⟨entity, property, target⟩, inside, wrong⟩
    rcases Option.map_eq_some_iff.mp wrong with ⟨misuse, misused, rfl⟩
    refine ⟨entity, property, target, misuse, inside, rfl, fun plain => ?_⟩
    rw [targetMisuse, plain, if_neg Bool.false_ne_true] at misused
    split at misused
    · rename_i embeddable
      exact ⟨embeddable, (Option.some.inj misused).symm⟩
    · cases misused
  · rcases List.mem_filterMap.mp cycle with
      ⟨⟨entity, property, target⟩, inside, wrong⟩
    dsimp only at wrong
    split at wrong
    · rename_i closes
      refine ⟨entity, property, target, _, inside, Option.some.inj wrong,
        fun plain => ?_⟩
      rw [plain] at closes
      cases closes
    · cases wrong

/-- A target fits its property exactly if it is embeddable where the property
embeds. -/
theorem targetMisuse_eq_none_iff {property : Property} {target : Entity} :
    targetMisuse property target = none ↔
      target.embeddable = property.isEmbedded := by
  unfold targetMisuse
  cases property.isEmbedded <;> cases target.embeddable <;> simp

/-- Nothing is wrong with embedding exactly if targets fit their properties
and no embedded entity embeds, in however many steps, where it is embedded. -/
theorem embeddingDefects_eq_nil_iff :
    entities.embeddingDefects = [] ↔
      ∀ property target, entities.Targets property target →
        targetMisuse property target = none ∧
          (property.isEmbedded = true →
            ¬ Relation.ReflTransGen entities.Embeds target.name
              property.declaredBy) := by
  rw [embeddingDefects, List.append_eq_nil_iff, targetDefects, embeddingCycles,
    List.filterMap_eq_nil_iff, List.filterMap_eq_nil_iff]
  constructor
  · rintro ⟨fits, acyclic⟩ property target targets
    rcases targets.mem with ⟨entity, named, member⟩
    have fit := fits _ member
    have open_end := acyclic _ member
    dsimp only at fit open_end
    refine ⟨Option.map_eq_none_iff.mp fit, fun isEmbedded leads => ?_⟩
    rw [← named, ← leads_embeddingEdges_iff, ← Edges.reaches_iff] at leads
    rw [isEmbedded, leads] at open_end
    cases open_end
  · intro every
    constructor
    · rintro ⟨entity, property, target⟩ member
      rcases targets_of_mem member with ⟨-, targets⟩
      exact Option.map_eq_none_iff.mpr (every property target targets).1
    · rintro ⟨entity, property, target⟩ member
      rcases targets_of_mem member with ⟨named, targets⟩
      refine if_neg fun closed => ?_
      rw [Bool.and_eq_true, Edges.reaches_iff, leads_embeddingEdges_iff,
        named] at closed
      exact (every property target targets).2 closed.1 closed.2

end Entities

end EntityCatalog
