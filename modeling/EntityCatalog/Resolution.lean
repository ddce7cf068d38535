import EntityCatalog.Entity.Completion
import EntityCatalog.Entity.Embedding
import EntityCatalog.Entity.OfSchema
import EntityCatalog.Relation.Settlement

/-!
# Resolution

All registered schemas are resolved together.  Properties are read from their
options, bases are linked, inherited properties are merged, relations are
paired and settled, and what is left is linked.  Everything that is wrong is
collected on the way; only if nothing is does the resolution succeed.
-/

namespace EntityCatalog

/-- What a resolution comes to. -/
structure Resolution where
  entities : Entities
  defects : List Defect
  tally : Tally

namespace Resolution

/-- Resolve schemas. -/
def run (config : Config) (sources : Sources) (schemas : Table Schema.name)
    (tally : Tally) : Resolution :=
  let directory : Directory := ⟨sources, config.maxDeferredDepth, schemas.keys⟩
  let misuses := schemas.items.flatMap Schema.misuses
  let dropped := misuses.map Prod.fst
  let linked := Bases.link directory schemas.items tally
  let merged := Entities.ofSchemas schemas linked.bases
  let scope : Pairing.Scope := ⟨directory, config, merged, dropped⟩
  let paired := scope.run { tally := linked.tally }
  let invalid := dropped ++ paired.missed
  let settled := Settlement.carryOut merged paired.decisions
  let visited :=
    Completion.run directory invalid paired.findings settled.entities
  let entities := (settled.entities.complete visited).index
  let keyDefects :=
    if config.requirePrimaryKey then entities.keyDefects schemas invalid else []
  { entities := entities
    defects := Defect.withoutRepeats []
      (misuses.map (fun (place, misuse) => .configuration place misuse) ++
        linked.defects ++ paired.defects ++ settled.defects ++
        visited.defects ++ entities.embeddingDefects ++ keyDefects)
    tally := visited.findings.tally }

/-- The entities, if nothing is wrong. -/
def outcome (resolution : Resolution) : Except (List Defect) Entities :=
  match resolution.defects with
  | [] => .ok resolution.entities
  | defects => .error defects

end Resolution

end EntityCatalog
