import EntityCatalog.Proofs.Registry.Located
import EntityCatalog.Proofs.Resolution.Reported

/-!
# Hints at dropped properties

A property whose options do not fit together is reported and dropped.  A hint
at it is not reported on top of that, unless the entity inherits another
property under its name: then the hint is taken for one at that property.  So
what is reported of the hint says that the inherited property cannot be the
other side (`Registry.finalize_of_dropped`).
-/

namespace EntityCatalog

open Pairing

/-- A defect that is found by looking up what the hint of the property at a
place names. -/
inductive Defect.LooksUp (place : Place) : Defect → Prop
  | dangling (target name : String) (hint : Hint) :
      LooksUp place (.danglingHint place target name hint)
  | kind (kind : PropertyKind) (other : Place) (otherKind : PropertyKind) :
      LooksUp place (.kindMismatch place kind other otherKind)
  | target (other : Place) (found : String) :
      LooksUp place (.targetMismatch place other found)

/-! ## One relation, one target and one hint -/

namespace Pairing.Scope

variable {scope : Scope} {findings : Findings} {side other : Side}
  {target found : Entity} {name named : String} {defect : Defect}

/-- Where a relation is held determines its target and its hint. -/
theorem Refers.unique (refers : scope.Refers findings side target name)
    (refersToo : scope.Refers findings other found named)
    (same : other.place = side.place) :
    other = side ∧ found = target ∧ named = name := by
  rcases refersToo.held.eq_of_place_eq refers.held same with rfl
  have known := refersToo.known
  rw [refers.known] at known
  have registered := refersToo.registered
  rw [← Option.some.inj known, refers.registered] at registered
  have hinted := refersToo.hinted
  rw [refers.hinted] at hinted
  exact ⟨rfl, (Option.some.inj registered).symm, (Option.some.inj hinted).symm⟩

/-- What is looked up in vain for a hint is missing, or is wrong. -/
theorem Faults.of_looksUp (faults : scope.Faults findings defect)
    (refers : scope.Refers findings side target name)
    (looksUp : defect.LooksUp side.place) :
    (target.property? name = none ∧
        scope.entities.anyWithin scope.invalid ⟨target.name, name⟩ = false) ∨
      ∃ found, target.property? name = some found ∧
        scope.Mistakes findings side target found defect := by
  cases faults with
  | missed held miss => cases miss <;> cases looksUp
  | misused held misuse => cases looksUp
  | @dangling holder aim called refersToo absent kept hint =>
      have same : holder.place = side.place := by
        generalize holder.place = place at looksUp
        cases looksUp
        rfl
      rcases refers.unique refersToo same with ⟨rfl, rfl, rfl⟩
      exact Or.inl ⟨absent, kept⟩
  | @mistaken holder aim called found _ refersToo named mistakes =>
      have same : holder.place = side.place := by
        cases mistakes with
        | kind differs =>
            generalize holder.place = place at looksUp
            cases looksUp
            rfl
        | target related reciprocal known apart =>
            generalize holder.place = place at looksUp
            cases looksUp
            rfl
      rcases refers.unique refersToo same with ⟨rfl, rfl, rfl⟩
      exact Or.inr ⟨found, named, mistakes⟩
  | conflict held heldOther ambiguity =>
      unfold Defect.conflict at looksUp
      split at looksUp <;> cases looksUp

/-- With steady sources, what is known of the target of a held relation is its
meaning. -/
theorem Coherent.meaning_of_known {own : Place → Option Property}
    (coherent : scope.Coherent own) {start : Tally}
    (faithful : findings.Faithful scope.directory (references own) start)
    {place : Place} {property : Property} {relation : Relation}
    (held : scope.entities.property? place = some property)
    (related : property.relation? = some relation) {entity : String}
    (known : findings.known? property.origin relation.target = some entity) :
    scope.directory.meaning relation.target.declared = .ok entity := by
  rcases coherent.open_target held (Property.target?_of_relation? related) with
    ⟨declared, unknown⟩
  rw [Findings.known?, unknown] at known
  rcases faithful.means _ _ known with ⟨reference, here, means⟩
  rw [declared] at here
  cases here
  exact means

/-- What is wrong with a property that a hint names is what comes of the
relation, whose target is found. -/
theorem Coherent.ruling_of_mistakes {own : Place → Option Property}
    (coherent : scope.Coherent own) {start : Tally}
    (faithful : findings.Faithful scope.directory (references own) start)
    (refers : scope.Refers findings side target name) {found : Property}
    (named : target.property? name = some found)
    (kept : found.origin ∉ scope.invalid)
    (mistakes : scope.Mistakes findings side target found defect) :
    scope.directory.meaning side.relation.target.declared = .ok target.name ∧
      (scope.ruling side).defect = some defect := by
  have means := coherent.meaning_of_known faithful refers.held.property
    refers.held.relation refers.known
  have reply : ∀ hint, scope.reply side target hint name = .failure defect := by
    intro hint
    rw [reply, named, Property.kind_of_relation? refers.held.relation]
    dsimp only
    cases mistakes with
    | kind differs =>
        cases related : found.relation? with
        | none => rfl
        | some relation =>
            dsimp only
            rw [if_neg (differs relation related)]
    | @target relation back related reciprocal known apart =>
        have heldFound : scope.entities.property? ⟨target.name, name⟩ =
            some found := by
          rw [Entities.property?, refers.registered]
          exact named
        have aim : scope.aim found relation = some back := by
          rw [Scope.aim, if_neg kept,
            coherent.meaning_of_known faithful heldFound related known]
          rfl
        rw [related]
        dsimp only
        rw [if_pos reciprocal, aim]
        dsimp only
        rw [apart]
        rfl
  refine ⟨means, ?_⟩
  rw [ruling_of_means means refers.registered, verdict]
  have hinted := refers.hinted
  rw [Sides.reciprocalName?] at hinted
  cases mapped : side.relation.sides.mappedBy with
  | some owner =>
      rw [mapped] at hinted
      cases hinted
      dsimp only
      rw [hintedVerdict, reply]
      rfl
  | none =>
      rw [mapped] at hinted
      cases inverted : side.relation.sides.inversedBy with
      | some inverse =>
          rw [inverted] at hinted
          cases hinted
          dsimp only
          rw [hintedVerdict, reply]
          rfl
      | none =>
          rw [inverted] at hinted
          cases hinted

end Pairing.Scope

/-! ## Dropped properties -/

namespace Resolution.Setting

variable {setting : Setting} {tally : Tally} {defect : Defect} {side : Side}
  {target : Entity} {name : String}

/-- A hint of a relation names a property that the target of the relation
declares, but whose options do not fit together. -/
structure Drops (setting : Setting) (tally : Tally) (side : Side)
    (target : Entity) (name : String) : Prop
    extends (setting.scopeAt tally).Refers (setting.pairedAt tally).findings
      side target name where
  dropped : ⟨target.name, name⟩ ∈ setting.dropped

/-- Pairing alone looks up what hints name. -/
theorem faults_of_looksUp {place : Place}
    (member : defect ∈ setting.collected tally)
    (looksUp : defect.LooksUp place) :
    (setting.scopeAt tally).Faults (setting.pairedAt tally).findings
      defect := by
  rcases mem_collected_cases member with paired | settled | single
  · exact accounted_pairedAt.defects defect paired
  · rcases preserves_settledAt.clashes defect settled with ⟨decision, -, clash⟩
    cases clash <;> cases looksUp
  · cases single with
    | target place miss | base entity miss => cases miss <;> cases looksUp
    | configuration | cycle | key => cases looksUp

/-- What stands under the name of a dropped property is inherited. -/
theorem declaredBy_ne_of_dropped (drops : setting.Drops tally side target name)
    {found : Property} (named : target.property? name = some found) :
    found.declaredBy ≠ target.name ∧ found.origin ∉ setting.dropped := by
  have held : (setting.scopeAt tally).entities.property? ⟨target.name, name⟩ =
      some found := by
    rw [Entities.property?, drops.registered]
    exact named
  rcases merges_scopeAt.declared_of_held held with ⟨declared, same, -⟩
  have kept := not_mem_dropped declared
  refine ⟨fun own => kept ?_, kept⟩
  rw [Property.origin, own, same]
  exact drops.dropped

/-- What is looked up in vain for a hint at a dropped property is wrong with an
inherited one. -/
theorem exists_inherited_of_looksUp
    (drops : setting.Drops tally side target name)
    (member : defect ∈ setting.collected tally)
    (looksUp : defect.LooksUp side.place) :
    ∃ inherited, target.property? name = some inherited ∧
      inherited.declaredBy ≠ target.name ∧
      (setting.scopeAt tally).Mistakes (setting.pairedAt tally).findings side
        target inherited defect := by
  rcases (faults_of_looksUp member looksUp).of_looksUp drops.toRefers looksUp
    with ⟨-, kept⟩ | ⟨inherited, named, mistakes⟩
  · have known : target.name ∈ (setting.scopeAt tally).entities.keys :=
      Table.mem_keys_of_find? drops.registered
    have within : (setting.scopeAt tally).entities.anyWithin
        (setting.scopeAt tally).invalid ⟨target.name, name⟩ = true := by
      refine List.any_eq_true.mpr
        ⟨target.name, ?_, decide_eq_true drops.dropped⟩
      exact (merges_scopeAt.mem_ancestry_iff known).mpr (.refl _)
    rw [within] at kept
    cases kept
  · exact ⟨inherited, named, (declaredBy_ne_of_dropped drops named).1, mistakes⟩

/-- With steady sources, what is wrong with the inherited property is
collected for the relation where it is declared. -/
theorem mem_collected_of_inherited (steady : setting.sources.Steady)
    (drops : setting.Drops tally side target name)
    (here : side.property.declaredBy = side.entity.name)
    {inherited : Property} (named : target.property? name = some inherited)
    (mistakes : (setting.scopeAt tally).Mistakes
      (setting.pairedAt tally).findings side target inherited defect) :
    defect ∈ setting.collected tally := by
  have coherent : (setting.scopeAt tally).Coherent setting.own :=
    coherent_scopeAt steady
  have reports := coherent.reports_run (setting.linkedAt tally).tally
  have declared := (merges_scopeAt.declared_of_held drops.held.property).1
  rcases coherent.ruling_of_mistakes reports.faithful drops.toRefers named
    (declaredBy_ne_of_dropped drops named).2 mistakes with ⟨means, wrong⟩
  refine mem_collected_iff.mpr (Or.inr (Or.inr (Or.inl ?_)))
  exact reports.mem_defects_of_own coherent
    (Scope.mem_sides_iff.mpr drops.held)
    (concerns_of_own declared drops.held here.symm steady) here means wrong

end Resolution.Setting

namespace Registry

/-- Of a hint at a dropped property nothing is reported, unless the target of
the relation inherits another property under its name.  Then it is reported what
is wrong with that one, with steady sources always where the relation is
declared. -/
theorem finalize_of_dropped {sources : Sources} {registry : Registry}
    (reachable : Reachable sources registry) (tally : Tally) {side : Side}
    {target : Entity} {name : String}
    (drops : (registry.setting sources).Drops tally side target name) :
    ∃ defects, (registry.finalize sources tally).outcome =
        .error (.invalid defects) ∧
      (∀ reported ∈ defects, reported.LooksUp side.place →
        ∃ inherited, target.property? name = some inherited ∧
          inherited.declaredBy ≠ target.name ∧
          ((registry.setting sources).scopeAt tally).Mistakes
            ((registry.setting sources).pairedAt tally).findings side target
            inherited reported) ∧
      (sources.Steady → side.property.declaredBy = side.entity.name →
        ∀ inherited mistake, target.property? name = some inherited →
          ((registry.setting sources).scopeAt tally).Mistakes
            ((registry.setting sources).pairedAt tally).findings side target
            inherited mistake →
          ∃ reported ∈ defects, reported.message = mistake.message) := by
  have wrong : ∀ earlier,
      (registry.setting sources).collected earlier ≠ [] := by
    intro earlier none
    rcases List.mem_map.mp drops.dropped with ⟨⟨place, misuse⟩, member, -⟩
    have collected : Defect.configuration place misuse ∈
        (registry.setting sources).collected earlier :=
      Resolution.Setting.mem_collected_iff.mpr
        (Or.inl ⟨place, misuse, member, rfl⟩)
    rw [none] at collected
    cases collected
  rcases reachable.exists_invalid wrong tally with
    ⟨defects, refused, sound, complete⟩
  refine ⟨defects, refused, fun reported member looksUp => ?_,
    fun steady here inherited mistake named mistakes => ?_⟩
  · exact Resolution.Setting.exists_inherited_of_looksUp drops
      (sound reported member) looksUp
  · exact complete mistake (Resolution.Setting.mem_collected_of_inherited steady
      drops here named mistakes)

end Registry

/-! ## A site with posts -/

/-- Content has an author by name.  Posts are content and mean to have users as
authors, but name the owner of a relation that they own themselves. -/
def site : Registry :=
  .ofSchemas {} [
    { name := "Content"
      properties := .ofList [
        ("id", { Options.typed "integer" with primary := true }),
        ("author", .typed "string")] },
    { name := "Post"
      base := some (.name "Content")
      properties := .ofList [
        ("author", { Options.manyToOne (.name "User") with
          mappedBy := some "posts" })] },
    { name := "User"
      properties := .ofList [
        ("id", { Options.typed "integer" with primary := true }),
        ("posts", .oneToMany (.name "Post") "author")] }]

/-- The hint of the posts of a user is taken for the inherited name of the
author, and it is reported that this is no relation. -/
theorem finalize_of_dropped_site :
    Registry.Reachable ledgerSources site ∧
      (site.finalize ledgerSources .empty).outcome =
        .error (.invalid [
          .configuration ⟨"Post", "author"⟩
            (.notAllowed .mappedBy (.relation .manyToOne)),
          .kindMismatch ⟨"User", "posts"⟩ (.relation .oneToMany)
            ⟨"Post", "author"⟩ .scalar]) ∧
      ∃ side target inherited,
        (site.setting ledgerSources).Drops .empty side target "author" ∧
        side.place = ⟨"User", "posts"⟩ ∧ target.name = "Post" ∧
        target.property? "author" = some inherited ∧
        inherited.declaredBy ≠ "Post" ∧
        ((site.setting ledgerSources).scopeAt .empty).Mistakes
          ((site.setting ledgerSources).pairedAt .empty).findings side target
          inherited
          (.kindMismatch ⟨"User", "posts"⟩ (.relation .oneToMany)
            ⟨"Post", "author"⟩ .scalar) := by
  have reachable : Registry.Reachable ledgerSources site :=
    Registry.reachable_ofSchemas _ _ _
  have outcome : (site.finalize ledgerSources .empty).outcome =
      .error (.invalid [
        .configuration ⟨"Post", "author"⟩
          (.notAllowed .mappedBy (.relation .manyToOne)),
        .kindMismatch ⟨"User", "posts"⟩ (.relation .oneToMany)
          ⟨"Post", "author"⟩ .scalar]) :=
    rfl
  have posts : ∃ posts relation,
      ((site.setting ledgerSources).scopeAt .empty).entities.property?
        ⟨"User", "posts"⟩ = some posts ∧
      posts.relation? = some relation ∧
      relation.sides.reciprocalName? = some "author" ∧
      ((site.setting ledgerSources).pairedAt .empty).findings.known?
        posts.origin relation.target = some "Post" :=
    ⟨_, _, rfl, rfl, rfl, rfl⟩
  have post : ∃ post,
      ((site.setting ledgerSources).scopeAt .empty).entities.find? "Post" =
        some post :=
    ⟨_, rfl⟩
  rcases posts with ⟨posts, relation, held, related, hinted, known⟩
  rcases post with ⟨post, registered⟩
  have name : post.name = "Post" := (Table.find?_eq_some registered).2
  rcases exists_side_of_property? held related with ⟨user, -, heldSide, place⟩
  have drops : (site.setting ledgerSources).Drops .empty
      ⟨user, posts, relation⟩ post "author" := by
    refine ⟨⟨heldSide, ?_, ?_, hinted⟩, ?_⟩
    · rw [name]
      exact registered
    · rw [name]
      exact known
    · rw [name]
      decide
  rcases Registry.finalize_of_dropped reachable .empty drops with
    ⟨defects, refused, sound, -⟩
  rw [outcome] at refused
  cases refused
  rcases sound _ (List.mem_cons_of_mem _ (List.mem_singleton_self _))
    (place ▸ .kind _ _ _) with ⟨inherited, named, other, mistakes⟩
  exact ⟨reachable, outcome, _, post, inherited, drops, place, name, named,
    name ▸ other, mistakes⟩

end EntityCatalog
