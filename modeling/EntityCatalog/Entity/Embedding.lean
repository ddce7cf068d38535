import EntityCatalog.Entity.Basic

/-!
# Embedding

An embedded property leads from its entity to the one it embeds, which has to
be embeddable.  No entity may be reached from itself along such edges, since
its columns would have no end.  `reaches` searches the edges: it goes through
a stack of nodes and never follows an edge twice, so it ends on every list of
edges.
-/

namespace EntityCatalog

/-! ## Reachability -/

/-- Edges between nodes that have names. -/
abbrev Edges := List (String × String)

namespace Edges

/-- The ends of the edges that start at a node. -/
def successors (edges : Edges) (node : String) : List String :=
  (edges.filter fun edge => edge.1 = node).map Prod.snd

/-- The edges that start elsewhere. -/
def without (edges : Edges) (node : String) : Edges :=
  edges.filter fun edge => edge.1 ≠ node

/-- Every edge starts at a node or elsewhere. -/
theorem length_successors_add_without (edges : Edges) (node : String) :
    (edges.successors node).length + (edges.without node).length = edges.length := by
  induction edges with
  | nil => rfl
  | cons edge rest step =>
    simp [successors, without] at step ⊢
    by_cases same : edge.1 = node <;> simp [same] <;> omega

/-- Search the nodes on a stack and what they lead to.  Edges that were
followed are dropped. -/
def search (edges : Edges) (goal : String) : List String → Bool
  | [] => false
  | node :: stack =>
    if node = goal then true
    else (edges.without node).search goal (edges.successors node ++ stack)
  termination_by stack => edges.length + stack.length
  decreasing_by
    have count := length_successors_add_without edges node
    simp only [List.length_append, List.length_cons]
    omega

/-- Whether edges lead from one node to another; every node leads to itself. -/
def reaches (edges : Edges) (start goal : String) : Bool :=
  edges.search goal [start]

end Edges

/-! ## Embedded properties -/

namespace Entities

/-- The own properties of all entities whose target is known: the entity, the
property and the target. -/
def ownTargets (entities : Entities) : List (Entity × Property × Entity) :=
  entities.items.flatMap fun entity =>
    entity.ownProperties.filterMap fun property =>
      (property.targetName?.bind entities.find?).map fun target =>
        (entity, property, target)

/-- What is wrong with the target of a property: only embedded properties have
embeddable targets. -/
def targetMisuse (property : Property) (target : Entity) : Option Misuse :=
  if property.isEmbedded then
    if target.embeddable then none else some (.notEmbeddable target.name)
  else if target.embeddable then some (.embeddableTarget target.name)
  else none

/-- The edges from entities to the embeddable entities they embed. -/
def embeddingEdges (entities : Entities) : Edges :=
  entities.ownTargets.filterMap fun (entity, property, target) =>
    if property.isEmbedded && target.embeddable then
      some (entity.name, target.name)
    else none

/-- The properties whose target may not be theirs. -/
def targetDefects (entities : Entities) : List Defect :=
  entities.ownTargets.filterMap fun (entity, property, target) =>
    (targetMisuse property target).map fun misuse =>
      .configuration (entity.place property) misuse

/-- The embedded properties that close a cycle. -/
def embeddingCycles (entities : Entities) : List Defect :=
  let edges := entities.embeddingEdges
  entities.ownTargets.filterMap fun (entity, property, target) =>
    if property.isEmbedded && edges.reaches target.name entity.name then
      some (.configuration (entity.place property) (.embeddingCycle target.name))
    else none

/-- What is wrong with embedding. -/
def embeddingDefects (entities : Entities) : List Defect :=
  entities.targetDefects ++ entities.embeddingCycles

end Entities

end EntityCatalog
