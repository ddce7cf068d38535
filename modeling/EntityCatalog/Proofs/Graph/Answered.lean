import EntityCatalog.Proofs.Graph.Inverses
import EntityCatalog.Proofs.Graph.Reciprocity
import EntityCatalog.Proofs.Resolution.Answered

/-!
# Children with inverses of their own

The target of a relation of an abstract entity may declare an inverse for each of
its children.  Where the relation is many to one, every child is then paired with
the inverse that is declared for it.  Any other relation is refused as soon as there
are two children (`children_answered_iff`).
-/

namespace EntityCatalog

open Pairing Resolution

namespace Graph.Resolved

variable {graph : Graph} {setting : Setting} {top target child : Schema}
  {children : List Schema} {property : Property} {relation : Relation}
  {inverse : Schema → String}

/-- A child and the answer that is declared for it are paired. -/
theorem reciprocal?_of_answer (resolved : graph.Resolved setting)
    (family : setting.Family top target children property relation
      (children.map fun child => (inverse child, child.name)))
    (inside : child ∈ children) :
    ∃ copy entity other,
      graph.property? ⟨child.name, property.name⟩ = some copy ∧
        copy.owner = true ∧ copy.inversedBy? = some (inverse child) ∧
        graph.reciprocal? ⟨child.name, property.name⟩ = some (entity, other) ∧
        entity.name = target.name ∧ other.name = inverse child := by
  have held := family.side_held (List.mem_cons_of_mem top inside)
  rcases resolved.exists_shown held with ⟨copy, sides, entity, shows⟩
  have told := family.proposed_of_answer inside
  have owner := shows.agreed.owner _ told
  have named := (shows.agreed.inversedBy _).mpr (Or.inr ⟨_, told, rfl⟩)
  have settled := resolved.sound.cleared.settled held shows.agreed
  have aims : entity.name = target.name := by
    have means := shows.means
    rw [family.means] at means
    exact (Except.ok.inj means).symm
  -- What answers was held before pairing, so the target still holds it.
  rcases family.exists_answer_of inside with ⟨side, back⟩
  rcases resolved.exists_shown back.held with ⟨other, _, _, answers⟩
  have holds : entity.property? (inverse child) = some other := by
    rw [shows.holds, aims, ← Setting.Family.place_of_answer back]
    exact answers.found
  have inverted : copy.inversedBy? = some (inverse child) :=
    shows.inversedBy?.trans named
  have unmapped : copy.mappedBy? = none :=
    shows.mappedBy?.trans (settled.owner.mp owner)
  exact ⟨copy, entity, other, shows.found, shows.owner.trans owner, inverted,
    Graph.reciprocal?_of_inversedBy shows.found unmapped inverted shows.aims
      holds, aims, answers.name.trans back.named⟩

end Graph.Resolved

/-! ## Posts and comments that tags know -/

/-- An abstract entity with tags. -/
def taggedEntry (kind : RelationKind) : Schema :=
  { keyedSchema "Entry"
      [("tags", .relation (.relation kind) (.name "Tag"))] with
    isAbstract := true }

/-- The inverse of the tags of posts or comments. -/
def answerOf (child : Schema) : String :=
  if child.name = "Post" then "posts" else "comments"

/-- Tags know the posts and comments that have them. -/
def answeringTag (kind : RelationKind) : Schema :=
  keyedSchema "Tag" (entries.map fun child =>
    (answerOf child, { Options.relation (.relation kind.reciprocal)
      (.name child.name) with mappedBy := some "tags" }))

/-- The registry of posts and comments with tags that know them. -/
def answeringRegistry (kind : RelationKind) : Registry :=
  .ofSchemas {} (answeringTag kind :: taggedEntry kind :: entries)

/-- The relation of posts and comments to their tags. -/
def taggedRelation (kind : RelationKind) : Relation where
  kind := kind
  target := ⟨.name "Tag", none⟩
  sides := ⟨decide (kind = .manyToOne), none, none⟩

theorem base?_answering (kind : RelationKind) : ∀ child ∈ entries,
    ((answeringRegistry kind).setting shopSources).base? child.name =
      some "Entry" := by
  have means : ((answeringRegistry kind).setting
      shopSources).directory.meaning (.name "Entry") = .ok "Entry" :=
    Directory.meaning_name (List.mem_cons_of_mem _ (List.mem_cons_self ..))
  refine List.forall_mem_cons.mpr ⟨?_, List.forall_mem_singleton.mpr ?_⟩
  · exact Bases.base?_ofSchemas_eq_some_iff.mpr ⟨_, _, rfl, rfl, means⟩
  · exact Bases.base?_ofSchemas_eq_some_iff.mpr ⟨_, _, rfl, rfl, means⟩

theorem family_answering {kind : RelationKind}
    (forward : kind = .manyToOne ∨ kind = .manyToMany) :
    ((answeringRegistry kind).setting shopSources).Family (taggedEntry kind)
      (answeringTag kind) entries
      { name := "tags", nature := .relation (taggedRelation kind),
        declaredBy := "Entry" } (taggedRelation kind)
      (entries.map fun child => (answerOf child, child.name)) where
  registered := .swap _ _ _
  top_rootless := rfl
  target_rootless := rfl
  below := fun child inside => .of_base (base?_answering kind child inside)
  declares := by rcases forward with rfl | rfl <;> rfl
  related := rfl
  unhinted := rfl
  unclaimed := rfl
  means := Directory.meaning_name (List.mem_cons_self ..)
  inherits := by
    show ∀ heir ∈ entries, "tags" ∉ heir.properties.keys
    decide
  answered := by
    refine List.forall_mem_cons.mpr ⟨?_, List.forall_mem_singleton.mpr ?_⟩
    · rcases forward with rfl | rfl <;>
        exact ⟨_, _, rfl, rfl, rfl, rfl, rfl⟩
    · rcases forward with rfl | rfl <;>
        exact ⟨_, _, rfl, rfl, rfl, rfl, rfl⟩
  top_columns := by rcases forward with rfl | rfl <;> decide
  heir_columns := by decide
  target_columns := by rcases forward with rfl | rfl <;> decide

/-! ## Frozen registries -/

variable {sources : Sources} {registry : Registry} {top target : Schema}
  {children : List Schema} {property : Property} {relation : Relation}
  {inverse : Schema → String}

/-- A registry that holds an abstract entity with a relation, its children, and a
target with an inverse for each of them freezes exactly if the relation is many to
one or there is one child at most.  Every child then owns its copy and is paired
with its inverse. -/
theorem children_answered_iff (steady : sources.Steady)
    (reachable : registry.Reachable sources)
    (family : (registry.setting sources).Family top target children property
      relation (children.map fun child => (inverse child, child.name)))
    (abstractTop : top.isAbstract = true)
    (direct : ∀ child ∈ children,
      (registry.setting sources).base? child.name = some top.name)
    (tally : Tally) :
    ((∃ graph, (registry.finalize sources tally).outcome = .ok graph) ↔
      (relation.kind = .manyToOne ∨ children.length ≤ 1) ∧
      (target.embeddable = false ∧
        ∀ child ∈ children, child.embeddable = false) ∧
      (registry.setting sources).Keyed) ∧
    ∀ graph, (registry.finalize sources tally).outcome = .ok graph →
      ∀ child ∈ children, ∃ copy entity other,
        graph.property? ⟨child.name, property.name⟩ = some copy ∧
          copy.owner = true ∧ copy.inversedBy? = some (inverse child) ∧
          graph.reciprocal? ⟨child.name, property.name⟩ =
            some (entity, other) ∧
          entity.name = target.name ∧ other.name = inverse child := by
  constructor
  · exact reachable.exists_finalize_iff
      (family.silent_run_iff_answered abstractTop direct steady) tally
  · intro graph frozen child inside
    exact (reachable.resolved steady frozen).reciprocal?_of_answer family inside

/-- Posts and comments have tags that know them if every post and every comment
has one tag, but not if they have many. -/
theorem children_answered_iff_entries :
    shopSources.Steady ∧
      (∀ kind, Registry.Reachable shopSources (answeringRegistry kind)) ∧
      (∃ graph, ((answeringRegistry .manyToOne).finalize shopSources
          .empty).outcome = .ok graph ∧
        ∃ copy entity other,
          graph.property? ⟨"Comment", "tags"⟩ = some copy ∧
            copy.owner = true ∧ copy.inversedBy? = some "comments" ∧
            graph.reciprocal? ⟨"Comment", "tags"⟩ = some (entity, other) ∧
            entity.name = "Tag" ∧ other.name = "comments") ∧
      ¬ ∃ graph, ((answeringRegistry .manyToMany).finalize shopSources
        .empty).outcome = .ok graph := by
  have steady := steady_shopSources
  have reachable := fun kind => Registry.reachable_ofSchemas shopSources {}
    (answeringTag kind :: taggedEntry kind :: entries)
  refine ⟨steady, reachable, ?_, ?_⟩
  · have frozen : ((answeringRegistry .manyToOne).finalize shopSources
        .empty).outcome.toOption.isSome = true :=
      rfl
    rcases Option.isSome_iff_exists.mp frozen with ⟨graph, present⟩
    have outcome := toOption_eq_some_iff.mp present
    exact ⟨graph, outcome, (children_answered_iff steady (reachable .manyToOne)
      (family_answering (Or.inl rfl)) rfl (base?_answering .manyToOne)
        .empty).2 graph outcome _
          (List.mem_cons_of_mem _ (List.mem_cons_self ..))⟩
  · intro freezes
    have few := ((children_answered_iff steady (reachable .manyToMany)
      (family_answering (Or.inr rfl)) rfl (base?_answering .manyToMany)
        .empty).1.mp freezes).1
    exact absurd few (by decide)

end EntityCatalog
