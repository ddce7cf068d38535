import EntityCatalog.Proofs.Graph.Order
import EntityCatalog.Proofs.Resolution.Inverses

/-!
# Inverses in graphs

The synthesized properties of the graph of a frozen registry are the inverses that
were added.  Where a many-to-many relation without hints is all that schemas have
besides columns, this tells what its target gains, and which inverse the copies of
the relation bear.

Below an abstract entity every child gets an inverse of its own, as far as their
names are different (`inverse_per_child_iff`).  Below a concrete entity all share
one, as far as no concrete entity extends an abstract one (`inverse_shared_iff`).
-/

namespace EntityCatalog

open Pairing Resolution

/-- What an added inverse is like in the end. -/
theorem Synthesis.reads_of_outline {synthesis : Synthesis} {added : Property}
    (outline : added.outline = synthesis.property) :
    added.name = synthesis.name ∧
      added.targetName? = some synthesis.source.entity ∧
      added.synthesized = true := by
  refine ⟨?_, ?_, ?_⟩
  · rw [← Property.name_outline, outline]
    rfl
  · rw [Property.targetName?, ← Property.target?_outline, outline]
    rfl
  · rw [← Property.synthesized_outline, outline]
    rfl

namespace Graph.Resolved

variable {graph : Graph} {setting : Setting}

/-- What a graph holds was declared, or it is an inverse that was added. -/
theorem declared_or_added (resolved : graph.Resolved setting) {place : Place}
    {property : Property} (found : graph.property? place = some property) :
    (∃ declared, setting.own property.origin = some declared ∧
        declared.kind = property.kind ∧ property.synthesized = false) ∨
      ∃ synthesis ∈ syntheses setting.scope.decisions,
        synthesis.covers setting.merged place = true ∧
          property.outline = synthesis.property := by
  have outline := resolved.outline place
  rw [found, Option.map_some] at outline
  rcases Option.map_eq_some_iff.mp outline.symm with ⟨settled, kept, same⟩
  rcases resolved.sound.settled_cases kept with
    ⟨before, sides, held, rfl, -⟩ | ⟨-, synthesis, member, covers, rfl⟩
  · have own := (resolved.sound.merges.declared_of_held held).1
    have origin : property.origin = before.origin := by
      rw [← Property.origin_outline, ← same, Property.origin_outline,
        Directory.origin_link, Property.origin_withSides]
    refine Or.inl ⟨before, origin ▸ own, ?_, ?_⟩
    · rw [← Property.kind_outline property, ← same, Property.kind_outline,
        Directory.kind_link, Property.kind_withSides]
    · rw [← Property.synthesized_outline property, ← same,
        Property.synthesized_outline, Directory.synthesized_link,
        Property.synthesized_withSides]
      exact (Entities.lawful_of_declaredAt own).2.declared
  · rw [Directory.link_of_known rfl rfl] at same
    exact Or.inr ⟨synthesis, member, covers, same.symm⟩

/-- A synthesized property is an inverse that was added. -/
theorem exists_synthesis (resolved : graph.Resolved setting) {place : Place}
    {added : Property} (found : graph.property? place = some added)
    (synthesized : added.synthesized = true) :
    ∃ synthesis ∈ syntheses setting.scope.decisions,
      synthesis.covers setting.merged place = true ∧
        added.outline = synthesis.property := by
  rcases resolved.declared_or_added found with ⟨-, -, -, plain⟩ | here
  · rw [synthesized] at plain
    cases plain
  · exact here

/-- Added properties with the same origin are the same inverse. -/
theorem outline_eq_of_origin_eq (resolved : graph.Resolved setting)
    {place other : Place} {added copy : Property}
    (found : graph.property? place = some added)
    (synthesized : added.synthesized = true)
    (foundCopy : graph.property? other = some copy)
    (same : copy.origin = added.origin) : copy.outline = added.outline := by
  have place_eq : ∀ {property : Property} {synthesis : Synthesis},
      property.outline = synthesis.property →
        property.origin = synthesis.place := by
    intro property synthesis outline
    rw [← Property.origin_outline, outline]
    rfl
  rcases resolved.exists_synthesis found synthesized with
    ⟨synthesis, member, -, outline⟩
  rcases resolved.declared_or_added foundCopy with
    ⟨declared, own, -⟩ | ⟨twin, twinMember, -, twinOutline⟩
  · have undeclared := resolved.sound.own_of_added member
    rw [← place_eq outline, ← same, own] at undeclared
    cases undeclared
  · have settled := resolved.sound.settled_of_added twinMember
    rw [← place_eq twinOutline, same, place_eq outline,
      resolved.sound.settled_of_added member] at settled
    rw [twinOutline, outline, Option.some.inj settled]

variable {top target member : Schema} {heirs : List Schema}
  {property : Property} {relation : Relation}
  (resolved : graph.Resolved setting)
  (family : setting.Family top target heirs property relation [])
  (steady : setting.sources.Steady)
  (adding : setting.config.synthesizeInverse = true)
  (kind : relation.kind = .manyToMany)

include resolved family steady adding kind

theorem parts : setting.scope.Parts (setting.entity target) :=
  (family.lone steady adding kind).parts_iff.mp
    ⟨resolved.sound.cleared, resolved.sound.accepts⟩

/-- The target gains the inverses of the schemas that lead, and no others. -/
theorem synthesized_perm {leaders : List Schema}
    (leads : ∀ member, (member ∈ top :: heirs ∧
      setting.Leads (top :: heirs) member) ↔ member ∈ leaders)
    (distinct : (leaders.map fun leader =>
      setting.config.inverseNaming.inverseName leader.name
        property.name).Nodup) :
    ∃ entity, graph.entity? target.name = some entity ∧
      ((entity.select Property.synthesized).map fun added =>
        (added.name, added.targetName?)).Perm
          (leaders.map fun leader =>
            (setting.config.inverseNaming.inverseName leader.name property.name,
              some leader.name)) := by
  have parts := resolved.parts family steady adding kind
  rcases resolved.exists_entity (Table.mem_keys_of_find?
    (family.find?_merged Setting.Family.mem_of_target)) with
      ⟨entity, found, name, holds⟩
  refine ⟨entity, found, ?_⟩
  have gained : ((entity.select Property.synthesized).map fun added =>
      (added.name, added.targetName?)).Nodup := by
    have names : ((entity.select Property.synthesized).map
        Property.name).Nodup :=
      entity.properties.distinct.sublist
        (List.Sublist.map _ List.filter_sublist)
    refine List.Nodup.of_map Prod.fst ?_
    rw [List.map_map]
    exact names
  have given : (leaders.map fun leader =>
      (setting.config.inverseNaming.inverseName leader.name property.name,
        some leader.name)).Nodup := by
    refine List.Nodup.of_map Prod.fst ?_
    rw [List.map_map]
    exact distinct
  apply (List.perm_ext_iff_of_nodup gained given).mpr
  intro entry
  rw [List.mem_map, List.mem_map]
  constructor
  · rintro ⟨added, member, rfl⟩
    rcases List.mem_filter.mp member with ⟨inside, synthesized⟩
    have here : graph.property? ⟨target.name, added.name⟩ = some added := by
      rw [← holds]
      exact Table.find?_key inside
    rcases resolved.exists_synthesis here synthesized with
      ⟨synthesis, made, -, outline⟩
    rcases (family.mem_syntheses_iff steady adding kind parts).mp made with
      ⟨leader, inFamily, leading, rfl⟩
    rcases Synthesis.reads_of_outline outline with ⟨named, aims, -⟩
    refine ⟨leader, (leads leader).mp ⟨inFamily, leading⟩, ?_⟩
    rw [named, aims]
  · rintro ⟨leader, inside, rfl⟩
    rcases (leads leader).mpr inside with ⟨inFamily, leading⟩
    have made := (family.mem_syntheses_iff steady adding kind parts).mpr
      ⟨leader, inFamily, leading, rfl⟩
    rcases resolved.exists_added made with ⟨added, here, outline⟩
    rcases Synthesis.reads_of_outline outline with ⟨named, aims, synthesized⟩
    have inside := Table.find?_eq_some ((holds _).trans here)
    refine ⟨added, List.mem_filter.mpr ⟨inside.1, synthesized⟩, ?_⟩
    rw [named, aims]

/-- Below a schema that leads, copies of the relation bear its inverse. -/
theorem inversedBy_of_leads {lead : Schema} (inside : member ∈ top :: heirs)
    (inLead : lead ∈ top :: heirs) (leads : setting.Leads (top :: heirs) lead)
    (below : Descends setting.base? member.name lead.name) :
    ∃ copy, graph.property? ⟨member.name, property.name⟩ = some copy ∧
      copy.owner = true ∧
      copy.inversedBy? = some (setting.config.inverseNaming.inverseName lead.name
        property.name) := by
  have held := family.side_held inside
  rw [← family.base?_merged] at below
  rcases resolved.exists_shown held with ⟨copy, sides, _, shows⟩
  rcases (family.lone steady adding kind).inversedBy_of_leads
    (resolved.parts family steady adding kind) held (family.side_held inLead)
    (family.leads_iff.mpr leads) below shows.agreed with ⟨owns, named⟩
  exact ⟨copy, shows.found, shows.owner.trans owns,
    shows.inversedBy?.trans named⟩

end Graph.Resolved

/-! ## Tags of entries and posts -/

/-- A many-to-many relation to tags. -/
def toTags : Relation where
  kind := .manyToMany
  target := ⟨.name "Tag", none⟩
  sides := ⟨false, none, none⟩

/-- The tags of an entity. -/
def tagsOf (entity : String) : Property where
  name := "tags"
  nature := .relation toTags
  declaredBy := entity

/-- An abstract entity with tags. -/
def entry : Schema :=
  { keyedSchema "Entry" [("tags", .manyToMany (.name "Tag"))] with
    isAbstract := true }

/-- Tags declare no relations. -/
def tag : Schema :=
  keyedSchema "Tag" []

/-- Posts and comments are entries. -/
def entries : List Schema :=
  [{ name := "Post", base := some (.name "Entry") },
    { name := "Comment", base := some (.name "Entry") }]

/-- The registry of entries and their tags. -/
def entriesRegistry (config : Config) : Registry :=
  .ofSchemas config (entry :: tag :: entries)

theorem base?_entries (config : Config) : ∀ child ∈ entries,
    ((entriesRegistry config).setting shopSources).base? child.name =
        some entry.name ∧
      child.isAbstract = false := by
  have means : ((entriesRegistry config).setting
      shopSources).directory.meaning (.name "Entry") = .ok "Entry" :=
    Directory.meaning_name (List.mem_cons_self ..)
  refine List.forall_mem_cons.mpr
    ⟨⟨?_, rfl⟩, List.forall_mem_singleton.mpr ⟨?_, rfl⟩⟩
  · exact Bases.base?_ofSchemas_eq_some_iff.mpr ⟨_, _, rfl, rfl, means⟩
  · exact Bases.base?_ofSchemas_eq_some_iff.mpr ⟨_, _, rfl, rfl, means⟩

theorem family_entries (config : Config) :
    ((entriesRegistry config).setting shopSources).Family entry tag entries
      (tagsOf "Entry") toTags [] where
  registered := .refl _
  top_rootless := rfl
  target_rootless := rfl
  below := fun child inside => .of_base (base?_entries config child inside).1
  declares := rfl
  related := rfl
  unhinted := rfl
  unclaimed := rfl
  means := Directory.meaning_name (List.mem_cons_of_mem _ (List.mem_cons_self ..))
  inherits := by decide
  answered := nofun
  top_columns := by decide
  heir_columns := by decide
  target_columns := by decide

/-- A concrete entity with tags. -/
def post : Schema :=
  keyedSchema "Post" [("tags", .manyToMany (.name "Tag"))]

/-- Drafts are posts, and notes are drafts. -/
def drafts (isAbstract : Bool) : List Schema :=
  [{ name := "Draft", base := some (.name "Post"), isAbstract := isAbstract },
    { name := "Note", base := some (.name "Draft") }]

/-- The registry of posts and their tags. -/
def postsRegistry (isAbstract : Bool) : Registry :=
  .ofSchemas {} (post :: tag :: drafts isAbstract)

theorem base?_drafts (isAbstract : Bool) :
    ((postsRegistry isAbstract).setting shopSources).base? "Draft" =
        some "Post" ∧
      ((postsRegistry isAbstract).setting shopSources).base? "Note" =
        some "Draft" := by
  cases isAbstract <;> exact ⟨rfl, rfl⟩

theorem family_drafts (isAbstract : Bool) :
    ((postsRegistry isAbstract).setting shopSources).Family post tag
      (drafts isAbstract) (tagsOf "Post") toTags [] where
  registered := .refl _
  top_rootless := rfl
  target_rootless := rfl
  below := by
    rcases base?_drafts isAbstract with ⟨draft, note⟩
    exact List.forall_mem_cons.mpr ⟨.of_base draft,
      List.forall_mem_singleton.mpr (.step note (.of_base draft))⟩
  declares := rfl
  related := rfl
  unhinted := rfl
  unclaimed := rfl
  means := rfl
  inherits := by cases isAbstract <;> decide
  answered := nofun
  top_columns := by decide
  heir_columns := by cases isAbstract <;> decide
  target_columns := by decide

/-! ## Frozen registries -/

variable {sources : Sources} {registry : Registry} {top target : Schema}
  {property : Property} {relation : Relation}

/-- Whether a registry freezes that holds an abstract entity with a many-to-many
relation and its children depends on the names of inverses.  Every child then
owns its copy of the relation and has an inverse of its own. -/
theorem inverse_per_child_iff {children : List Schema} (steady : sources.Steady)
    (reachable : registry.Reachable sources)
    (family : (registry.setting sources).Family top target children property
      relation [])
    (abstractTop : top.isAbstract = true)
    (direct : ∀ child ∈ children,
      (registry.setting sources).base? child.name = some top.name ∧
        child.isAbstract = false)
    (kind : relation.kind = .manyToMany)
    (adding : registry.config.synthesizeInverse = true)
    (fresh : ∀ child ∈ children,
      registry.config.inverseNaming.inverseName child.name property.name ∉
        target.properties.keys) (tally : Tally) :
    ((∃ graph, (registry.finalize sources tally).outcome = .ok graph) ↔
      (children.map fun child =>
        registry.config.inverseNaming.inverseName child.name
          property.name).Nodup ∧
      (target.embeddable = false ∧
        ∀ child ∈ children, child.embeddable = false) ∧
      (registry.setting sources).Keyed) ∧
    ∀ graph, (registry.finalize sources tally).outcome = .ok graph →
      (∃ entity, graph.entity? target.name = some entity ∧
        ((entity.select Property.synthesized).map fun added =>
          (added.name, added.targetName?)).Perm
            (children.map fun child =>
              (registry.config.inverseNaming.inverseName child.name
                property.name, some child.name))) ∧
      ∀ child ∈ children, ∃ copy,
        graph.property? ⟨child.name, property.name⟩ = some copy ∧
          copy.owner = true ∧
          copy.inversedBy? =
            some (registry.config.inverseNaming.inverseName child.name
              property.name) := by
  have leads : ∀ member, (member ∈ top :: children ∧
      (registry.setting sources).Leads (top :: children) member) ↔
        member ∈ children := by
    intro member
    constructor
    · rintro ⟨inside, leading⟩
      exact (family.leads_iff_mem abstractTop direct inside).mp leading
    · intro below
      have inside := List.mem_cons_of_mem top below
      exact ⟨inside,
        (family.leads_iff_mem abstractTop direct inside).mpr below⟩
  have unused : ∀ child ∈ children, target.property?
      (registry.config.inverseNaming.inverseName child.name property.name) =
        none := by
    intro child inside
    rw [Schema.property?, Table.find?_eq_none_iff.mpr (fresh child inside)]
    rfl
  have parts := family.parts_iff_of_direct abstractTop direct unused
  constructor
  · refine (reachable.exists_finalize_iff
      (family.silent_run_iff_parts steady adding kind) tally).trans ?_
    rw [parts]
    refine and_congr_right fun _ => and_congr_left fun _ => and_congr_right
      fun _ => ?_
    simp only [← leads, and_imp]
  · intro graph frozen
    have resolved := reachable.resolved steady frozen
    constructor
    · exact resolved.synthesized_perm family steady adding kind leads
        (parts.mp (resolved.parts family steady adding kind))
    · intro child below
      rcases (leads child).mpr below with ⟨inside, leading⟩
      exact resolved.inversedBy_of_leads family steady adding kind inside inside
        leading (.refl _)

/-- The inverses of the tags of posts and comments are different unless they are
named after the tags alone. -/
theorem inverse_per_child_iff_entries :
    shopSources.Steady ∧
      Registry.Reachable shopSources (entriesRegistry {}) ∧
      ((entriesRegistry {}).setting shopSources).Family entry tag entries
        (tagsOf "Entry") toTags [] ∧
      (∃ graph, ((entriesRegistry {}).finalize shopSources .empty).outcome =
          .ok graph ∧
        ∃ copy, graph.property? ⟨"Comment", "tags"⟩ = some copy ∧
          copy.owner = true ∧ copy.inversedBy? = some "comment_tags") ∧
      ¬ ∃ graph, ((entriesRegistry suffixed).finalize shopSources
        .empty).outcome = .ok graph := by
  have steady := steady_shopSources
  have reachable := fun config =>
    Registry.reachable_ofSchemas shopSources config (entry :: tag :: entries)
  refine ⟨steady, reachable {}, family_entries {}, ?_, ?_⟩
  · have frozen : ((entriesRegistry {}).finalize shopSources
        .empty).outcome.toOption.isSome = true :=
      rfl
    rcases Option.isSome_iff_exists.mp frozen with ⟨graph, present⟩
    have outcome := toOption_eq_some_iff.mp present
    exact ⟨graph, outcome, ((inverse_per_child_iff steady (reachable {})
      (family_entries {}) rfl (base?_entries {}) rfl rfl (by decide) .empty).2
        graph outcome).2 _ (List.mem_cons_of_mem _ (List.mem_cons_self ..))⟩
  · intro freezes
    have names := ((inverse_per_child_iff steady (reachable suffixed)
      (family_entries suffixed) rfl (base?_entries suffixed) rfl rfl (by decide)
        .empty).1.mp freezes).1
    exact absurd names (by decide)

/-- Named after its relation alone, the inverse of the second child is in the way
of the first one's, although the target declares nothing of that name. -/
theorem not_frozen_of_suffixed_entries :
    Registry.Reachable shopSources (entriesRegistry suffixed) ∧
      ((entriesRegistry suffixed).setting shopSources).Family entry tag entries
        (tagsOf "Entry") toTags [] ∧
      entry.isAbstract = true ∧
      (∀ child ∈ entries,
        ((entriesRegistry suffixed).setting shopSources).base? child.name =
            some entry.name ∧
          child.isAbstract = false) ∧
      suffixed.synthesizeInverse = true ∧
      (∀ child ∈ entries, suffixed.inverseNaming.inverseName child.name "tags" ∉
        tag.properties.keys) ∧
      ¬ ∃ graph, ((entriesRegistry suffixed).finalize shopSources
        .empty).outcome = .ok graph := by
  refine ⟨Registry.reachable_ofSchemas shopSources suffixed _,
    family_entries suffixed, rfl, base?_entries suffixed, rfl, by decide, ?_⟩
  rintro ⟨graph, frozen⟩
  have failed : ((entriesRegistry suffixed).finalize shopSources
      .empty).outcome.toOption.isSome = false :=
    rfl
  rw [frozen] at failed
  cases failed

/-- A registry that holds a concrete entity with a many-to-many relation and its
descendants freezes exactly if no concrete one of these extends an abstract one.
They then all own the relation and share the inverse of the first. -/
theorem inverse_shared_iff {heirs : List Schema} (steady : sources.Steady)
    (reachable : registry.Reachable sources)
    (family : (registry.setting sources).Family top target heirs property
      relation [])
    (concrete : top.isAbstract = false)
    (kind : relation.kind = .manyToMany)
    (adding : registry.config.synthesizeInverse = true)
    (fresh : registry.config.inverseNaming.inverseName top.name property.name ∉
      target.properties.keys) (tally : Tally) :
    ((∃ graph, (registry.finalize sources tally).outcome = .ok graph) ↔
      (∀ heir ∈ heirs, heir.isAbstract = false → ∀ base ∈ top :: heirs,
        (registry.setting sources).base? heir.name = some base.name →
          base.isAbstract = false) ∧
      (target.embeddable = false ∧ top.embeddable = false) ∧
      (registry.setting sources).Keyed) ∧
    ∀ graph, (registry.finalize sources tally).outcome = .ok graph →
      (∃ entity, graph.entity? target.name = some entity ∧
        ((entity.select Property.synthesized).map fun added =>
          (added.name, added.targetName?)) =
            [(registry.config.inverseNaming.inverseName top.name property.name,
              some top.name)]) ∧
      ∀ member ∈ top :: heirs, ∃ copy,
        graph.property? ⟨member.name, property.name⟩ = some copy ∧
          copy.owner = true ∧
          copy.inversedBy? =
            some (registry.config.inverseNaming.inverseName top.name
              property.name) := by
  have inTop : top ∈ top :: heirs := List.mem_cons_self ..
  have leadsTop := family.leads_top concrete
  have unused : target.property?
      (registry.config.inverseNaming.inverseName top.name property.name) =
        none := by
    rw [Schema.property?, Table.find?_eq_none_iff.mpr fresh]
    rfl
  have parts := family.parts_iff_of_concrete concrete unused
  have leads : (registry.setting sources).scope.Parts
      ((registry.setting sources).entity target) → ∀ member,
        (member ∈ top :: heirs ∧
          (registry.setting sources).Leads (top :: heirs) member) ↔
            member ∈ [top] := by
    intro apart member
    rw [List.mem_singleton]
    constructor
    · rintro ⟨inside, leading⟩
      rcases List.mem_cons.mp inside with same | below
      · exact same
      · exact absurd leading (parts.mp apart member below)
    · rintro rfl
      exact ⟨inTop, leadsTop⟩
  constructor
  · refine (reachable.exists_finalize_iff
      (family.silent_run_iff_parts steady adding kind) tally).trans ?_
    have follows : (∀ heir ∈ heirs,
        ¬ (registry.setting sources).Leads (top :: heirs) heir) ↔ _ :=
      forall₂_congr fun heir below => family.not_leads_iff below
    rw [← follows, ← parts]
    refine and_congr_right fun apart => and_congr_left fun _ =>
      and_congr_right fun _ => ?_
    constructor
    · exact fun stored => stored top inTop leadsTop
    · intro stored member inside leading
      rcases List.mem_singleton.mp ((leads apart member).mp ⟨inside, leading⟩)
        with rfl
      exact stored
  · intro graph frozen
    have resolved := reachable.resolved steady frozen
    constructor
    · rcases resolved.synthesized_perm family steady adding kind
        (leads (resolved.parts family steady adding kind))
        (List.nodup_singleton _) with ⟨entity, found, perm⟩
      exact ⟨entity, found, List.perm_singleton.mp perm⟩
    · intro member inside
      exact resolved.inversedBy_of_leads family steady adding kind inside inTop
        leadsTop (family.descends_top inside)

/-- Notes, which are drafts, share the inverse of posts unless drafts are
abstract. -/
theorem inverse_shared_iff_drafts :
    shopSources.Steady ∧
      (∀ isAbstract, Registry.Reachable shopSources (postsRegistry isAbstract) ∧
        ((postsRegistry isAbstract).setting shopSources).Family post tag
          (drafts isAbstract) (tagsOf "Post") toTags []) ∧
      (∃ graph, ((postsRegistry false).finalize shopSources .empty).outcome =
          .ok graph ∧
        ∃ copy, graph.property? ⟨"Note", "tags"⟩ = some copy ∧
          copy.owner = true ∧ copy.inversedBy? = some "post_tags") ∧
      ¬ ∃ graph, ((postsRegistry true).finalize shopSources .empty).outcome =
        .ok graph := by
  have steady := steady_shopSources
  have reachable := fun isAbstract => Registry.reachable_ofSchemas shopSources {}
    (post :: tag :: drafts isAbstract)
  refine ⟨steady, fun isAbstract => ⟨reachable isAbstract,
    family_drafts isAbstract⟩, ?_, ?_⟩
  · have frozen : ((postsRegistry false).finalize shopSources
        .empty).outcome.toOption.isSome = true :=
      rfl
    rcases Option.isSome_iff_exists.mp frozen with ⟨graph, present⟩
    have outcome := toOption_eq_some_iff.mp present
    have note : ({ name := "Note", base := some (.name "Draft") } : Schema) ∈
        post :: drafts false :=
      List.mem_cons_of_mem _ (List.mem_cons_of_mem _ (List.mem_cons_self ..))
    exact ⟨graph, outcome, ((inverse_shared_iff steady (reachable false)
      (family_drafts false) rfl rfl rfl (by decide) .empty).2 graph
        outcome).2 _ note⟩
  · intro freezes
    have bases := ((inverse_shared_iff steady (reachable true)
      (family_drafts true) rfl rfl rfl (by decide) .empty).1.mp freezes).1
    have draft := bases _ (List.mem_cons_of_mem _ (List.mem_cons_self ..)) rfl _
      (List.mem_cons_of_mem _ (List.mem_cons_self ..)) (base?_drafts true).2
    cases draft

end EntityCatalog
