import EntityCatalog.Proofs.Graph.Inverses
import EntityCatalog.Proofs.Graph.Linked
import EntityCatalog.Proofs.Graph.Reciprocity

/-!
# Relations handed down

What is decided for a relation reaches the copies of it below, through whatever
entities lie between.  So in the graph of a frozen registry a copy follows the
relation that an ancestor holds (`follows_of_frozen`): it has the same target,
owns alike and bears the names that the relation bears.  The copy may bear
another name besides, which was decided for it alone, but no name in place of
one that was handed down.
-/

namespace EntityCatalog

open Pairing Resolution

/-! ## What is handed down -/

/-- Sides that have all that others have. -/
structure Sides.Follow (lower upper : Sides) : Prop where
  owner : lower.owner = upper.owner
  mappedBy : ∀ name, upper.mappedBy = some name → lower.mappedBy = some name
  inversedBy : ∀ name,
    upper.inversedBy = some name → lower.inversedBy = some name

/-- What more proposals come to has every name that fewer come to. -/
theorem Sides.Agreed.follow {initial final result : Sides}
    {fewer more : Sides → Prop} (agreed : Agreed initial fewer final)
    (agreedMore : Agreed initial more result)
    (subset : ∀ sides, fewer sides → more sides)
    (owner : result.owner = final.owner) : result.Follow final := by
  refine ⟨owner, fun name named => ?_, fun name named => ?_⟩
  · refine (agreedMore.mappedBy name).mpr
      (((agreed.mappedBy name).mp named).imp_right ?_)
    rintro ⟨sides, proposed, given⟩
    exact ⟨sides, subset sides proposed, given⟩
  · refine (agreedMore.inversedBy name).mpr
      (((agreed.inversedBy name).mp named).imp_right ?_)
    rintro ⟨sides, proposed, given⟩
    exact ⟨sides, subset sides proposed, given⟩

namespace Pairing.Scope.Cleared

variable {scope : Scope} {own : Place → Option Property} {upper lower : Side}
  {final result : Sides}

section

variable (cleared : scope.Cleared own) (held : upper.Held scope.entities)
  (heldLower : lower.Held scope.entities)
  (agreed : upper.relation.sides.Agreed (scope.Proposed upper.place) final)
  (agreedLower :
    lower.relation.sides.Agreed (scope.Proposed lower.place) result)

include cleared held heldLower agreed agreedLower

/-- Copies of one declaration own alike: many-to-one relations always own, and
all others are told who owns where they were declared. -/
theorem owner_eq_of_copies (same : lower.property = upper.property) :
    result.owner = final.owner := by
  by_cases kind : upper.relation.kind = .manyToOne
  · have unmapped := cleared.mappedBy_of_manyToOne held agreed kind
    have unmappedLower := cleared.mappedBy_of_manyToOne heldLower agreedLower
      (held.relation_eq heldLower same ▸ kind)
    rw [(cleared.settled held agreed).owner.mpr unmapped,
      (cleared.settled heldLower agreedLower).owner.mpr unmappedLower]
  · exact (cleared.owner_eq_of_origin_eq held heldLower
      (congrArg Property.origin same.symm) kind agreed agreedLower).symm

/-- What is agreed on for a relation is agreed on for its copies. -/
theorem follow_of_copyOf
    (copies : scope.entities.CopyOf lower.place upper.place) :
    result.Follow final := by
  rcases eq_of_copyOf held heldLower copies with ⟨same, relation⟩
  have owner := cleared.owner_eq_of_copies held heldLower agreed agreedLower same
  rw [relation] at agreedLower
  exact agreed.follow agreedLower
    (fun _ proposed => proposed.of_copyOf copies) owner

end

end Pairing.Scope.Cleared

/-! ## Copies in graphs -/

/-- A relation of a graph that follows another one. -/
structure Graph.Follows (graph : Graph) (copy property : Property) : Prop where
  target : ∃ target, graph.target? property = some target ∧
    graph.target? copy = some target
  owner : copy.owner = property.owner
  mappedBy : ∀ name,
    property.mappedBy? = some name → copy.mappedBy? = some name
  inversedBy : ∀ name,
    property.inversedBy? = some name → copy.inversedBy? = some name

namespace Graph.Resolved

variable {graph : Graph} {setting : Setting} {upper lower : Place}
  {property copy : Property}

/-- Where the graph shows the same relation twice, the lower one follows. -/
theorem follows_of_shows (resolved : graph.Resolved setting)
    {side lowerSide : Side} {sides lowerSides : Sides}
    {target lowerTarget : Entity} (held : side.Held setting.merged)
    (heldLower : lowerSide.Held setting.merged)
    (shows : graph.Shows setting side property sides target)
    (showsLower : graph.Shows setting lowerSide copy lowerSides lowerTarget)
    (below : Descends setting.merged.base? lowerSide.entity.name
      side.entity.name)
    (same : lowerSide.property = side.property) :
    graph.Follows copy property := by
  have copies : setting.merged.CopyOf lowerSide.place side.place := by
    refine ⟨congrArg Property.name same, below, ?_⟩
    rw [heldLower.property, held.property, same]
  have follow := resolved.sound.cleared.follow_of_copyOf held heldLower
    shows.agreed showsLower.agreed copies
  have target_eq : lowerTarget = target := by
    have means := showsLower.means
    rw [held.relation_eq heldLower same, shows.means] at means
    have known := ((target?_eq_some_iff shows.related).mp shows.aims).2
    rw [Except.ok.inj means,
      ((target?_eq_some_iff showsLower.related).mp showsLower.aims).2] at known
    exact Option.some.inj known
  refine ⟨⟨target, shows.aims, target_eq ▸ showsLower.aims⟩, ?_, ?_, ?_⟩
  · rw [shows.owner, showsLower.owner, follow.owner]
  · rw [shows.mappedBy?, showsLower.mappedBy?]
    exact follow.mappedBy
  · rw [shows.inversedBy?, showsLower.inversedBy?]
    exact follow.inversedBy

/-- A copy of a relation that an ancestor holds follows it: both were declared
in the same place or are the same inverse. -/
theorem follows_of_origin_eq (resolved : graph.Resolved setting)
    (found : graph.property? upper = some property)
    (foundCopy : graph.property? lower = some copy)
    (below : Descends setting.merged.base? lower.entity upper.entity)
    (same : copy.origin = property.origin) {target : Entity}
    (aims : graph.target? property = some target)
    (related : property.isRelation = true) :
    graph.Follows copy property := by
  rcases resolved.declared_or_added found with
    ⟨declared, own, kind, -⟩ | ⟨synthesis, -, -, outline⟩
  · have relating : declared.isRelation = true := by
      rw [Property.isRelation, kind]
      exact related
    rcases Property.exists_relation_of_isRelation relating with ⟨relation, here⟩
    rcases resolved.exists_shown_at found own here with
      ⟨side, sides, target, held, rfl, rfl, rfl, shows⟩
    rcases resolved.exists_shown_at foundCopy (same ▸ own) here with
      ⟨lowerSide, lowerSides, lowerTarget, heldLower, rfl, same, -, showsLower⟩
    exact resolved.follows_of_shows held heldLower shows showsLower below same
  · have synthesized := (Synthesis.reads_of_outline outline).2.2
    have alike := resolved.outline_eq_of_origin_eq found synthesized foundCopy
      same
    have relation_eq : copy.relation? = property.relation? := by
      rw [← Property.relation?_outline, alike, Property.relation?_outline]
    have target_eq : graph.target? copy = graph.target? property := by
      rw [Graph.target?, Graph.target?, Property.targetName?,
        Property.targetName?, ← Property.target?_outline, alike,
        Property.target?_outline]
    refine ⟨⟨target, aims, target_eq.trans aims⟩, ?_, ?_, ?_⟩
    · rw [Property.owner, relation_eq]
      rfl
    · rw [Property.mappedBy?, Property.mappedBy?, relation_eq]
      exact fun _ named => named
    · rw [Property.inversedBy?, Property.inversedBy?, relation_eq]
      exact fun _ named => named

end Graph.Resolved

/-! ## A gazette -/

/-- Articles are drafts, which are posts and have no table of their own.  Posts
declare which topics they have and which property of a topic leads back. -/
def gazette : Registry :=
  (Registry.registerAll {} [
    { name := "Post"
      properties := .ofList [
        ("id", { Options.typed "integer" with primary := true }),
        ("topics", { Options.manyToMany (.name "Topic") with
          inversedBy := some "posts" })] },
    { name := "Draft"
      base := some (.name "Post")
      isAbstract := true },
    { name := "Article"
      base := some (.name "Draft") },
    { name := "Topic"
      properties := .ofList [
        ("id", { Options.typed "integer" with primary := true }),
        ("posts", .manyToMany (.name "Post"))] }]).1

/-- The graph of the gazette. -/
def gazetteGraph : Graph :=
  match (gazette.finalize shopSources .empty).outcome with
  | .ok graph => graph
  | .error _ => default

theorem reachable_gazette : Registry.Reachable shopSources gazette :=
  (Registry.Reachable.new {}).registerAll _

theorem finalize_gazette :
    (gazette.finalize shopSources .empty).outcome = .ok gazetteGraph := by
  have succeeds : (gazette.finalize shopSources .empty).outcome.isOk := by
    decide +kernel
  exact Registry.outcome_of_isOk succeeds

/-! ## Frozen registries -/

/-- In the graph of a frozen registry a relation that an entity inherits from an
ancestor, abstract or not, follows the ancestor's. -/
theorem follows_of_frozen {sources : Sources} (steady : sources.Steady)
    {registry : Registry} (reachable : registry.Reachable sources)
    {tally : Tally} {graph : Graph}
    (frozen : (registry.finalize sources tally).outcome = .ok graph)
    {upper lower : Entity} (above : upper ∈ graph.entities.items)
    (member : lower ∈ graph.entities.items)
    (within : graph.entities.isWithin lower.name upper.name = true)
    {property copy : Property} (held : property ∈ upper.properties.items)
    (related : property.isRelation = true)
    (heldCopy : copy ∈ lower.properties.items)
    (name : copy.name = property.name)
    (declaredBy : copy.declaredBy = property.declaredBy) :
    graph.Follows copy property := by
  have resolved := reachable.resolved steady frozen
  have registered : lower.name ∈ graph.entities.keys :=
    List.mem_map_of_mem member
  rw [resolved.alike.keys] at registered
  rw [resolved.alike.isWithin,
    resolved.sound.merges.isWithin_iff registered] at within
  rcases (links_of_frozen reachable frozen above).1.relations property held
    related with ⟨target, aims, -⟩
  exact resolved.follows_of_origin_eq
    (Entities.property?_of_mem above held)
    (Entities.property?_of_mem member heldCopy) within
    (congrArg₂ Place.mk declaredBy name) aims related

/-- The topics of an article are those of a post, across the drafts between
them: they are the owning side and lead back to the posts of a topic. -/
theorem follows_of_frozen_gazette :
    shopSources.Steady ∧ Registry.Reachable shopSources gazette ∧
      (gazette.finalize shopSources .empty).outcome = .ok gazetteGraph ∧
      ∃ upper ∈ gazetteGraph.entities.items,
      ∃ lower ∈ gazetteGraph.entities.items,
        upper.name = "Post" ∧ lower.name = "Article" ∧
        gazetteGraph.entities.isWithin lower.name upper.name = true ∧
        ∃ property ∈ upper.properties.items, property.isRelation = true ∧
        ∃ copy ∈ lower.properties.items, copy.name = property.name ∧
          copy.declaredBy = property.declaredBy ∧
          gazetteGraph.Follows copy property ∧ copy.owner = true ∧
          copy.inversedBy? = some "posts" := by
  have present : ∃ upper lower property copy,
      gazetteGraph.entity? "Post" = some upper ∧
      gazetteGraph.entity? "Article" = some lower ∧
      upper.property? "topics" = some property ∧
      lower.property? "topics" = some copy ∧
      gazetteGraph.entities.isWithin "Article" "Post" = true ∧
      property.isRelation = true ∧ copy.declaredBy = property.declaredBy ∧
      property.owner = true ∧ property.inversedBy? = some "posts" :=
    ⟨_, _, _, _, rfl, rfl, rfl, rfl, rfl, rfl, rfl, rfl, rfl⟩
  rcases present with ⟨upper, lower, property, copy, known, knownLower, found,
    foundCopy, within, related, declaredBy, owner, inverted⟩
  rcases Table.find?_eq_some known with ⟨above, named⟩
  rcases Table.find?_eq_some knownLower with ⟨member, namedLower⟩
  rcases Table.find?_eq_some found with ⟨held, called⟩
  rcases Table.find?_eq_some foundCopy with ⟨heldCopy, calledToo⟩
  have inside : gazetteGraph.entities.isWithin lower.name upper.name = true := by
    rw [named, namedLower]
    exact within
  have alike : copy.name = property.name := calledToo.trans called.symm
  have follows := follows_of_frozen steady_shopSources reachable_gazette
    finalize_gazette above member inside held related heldCopy alike declaredBy
  exact ⟨steady_shopSources, reachable_gazette, finalize_gazette, upper, above,
    lower, member, named, namedLower, inside, property, held, related, copy,
    heldCopy, alike, declaredBy, follows, follows.owner.trans owner,
    follows.inversedBy _ inverted⟩

end EntityCatalog
