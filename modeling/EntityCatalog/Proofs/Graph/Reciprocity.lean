import EntityCatalog.Proofs.Graph.Ownership
import EntityCatalog.Proofs.Relation.Reciprocity

/-!
# Inverses in graphs

An owning side can name an inverse that its target does not hold: a descendant
of the target that names the side as its owner enters its own name there.  The
inverse that a side names leads back to it exactly if the target holds it and it
answers the side (`Property.Answers`).
-/

namespace EntityCatalog

open Pairing Resolution

/-- How a property comes to be the inverse of another one. -/
inductive Property.Answers (schemas : Table Schema.name)
    (property other : Property) : Prop where
  | added (synthesized : other.synthesized = true)
      (mapped : other.mappedBy? = some property.name)
  | hinted (declared : Property)
      (found : Entities.declaredAt schemas other.origin = some declared)
      (mapped : declared.mappedBy? = some property.name)
  | unhinted (declared : Property)
      (found : Entities.declaredAt schemas other.origin = some declared)
      (unmapped : declared.mappedBy? = none)
      (uninverted : declared.inversedBy? = none)
      (different : other.origin ≠ property.origin)

/-- Where the other property is declared, it is up to the hints of the
declaration. -/
theorem Property.answers_iff_of_declared {schemas : Table Schema.name}
    {property other declared : Property} {relation : Relation}
    (found : Entities.declaredAt schemas other.origin = some declared)
    (related : declared.relation? = some relation)
    (synthesized : other.synthesized = false) :
    property.Answers schemas other ↔
      relation.sides.mappedBy = some property.name ∨
        relation.sides.isUnhinted = true ∧ other.origin ≠ property.origin := by
  have mapped_eq : declared.mappedBy? = relation.sides.mappedBy := by
    rw [mappedBy?, related, Option.bind_some]
  have inverted_eq : declared.inversedBy? = relation.sides.inversedBy := by
    rw [inversedBy?, related, Option.bind_some]
  rw [Sides.isUnhinted, Bool.and_eq_true, Option.isNone_iff_eq_none,
    Option.isNone_iff_eq_none, ← mapped_eq, ← inverted_eq]
  constructor
  · intro answers
    cases answers with
    | added synthesized' mapped =>
        rw [synthesized] at synthesized'
        cases synthesized'
    | hinted declared' found' mapped =>
        rw [found] at found'
        cases found'
        exact Or.inl mapped
    | unhinted declared' found' unmapped uninverted different =>
        rw [found] at found'
        cases found'
        exact Or.inr ⟨⟨unmapped, uninverted⟩, different⟩
  · rintro (mapped | ⟨⟨unmapped, uninverted⟩, different⟩)
    · exact .hinted declared found mapped
    · exact .unhinted declared found unmapped uninverted different

/-- The inverse of a property is held by its target, has the reciprocal kind,
does not own, names the property as its owner and points at the entity of the
property or an ancestor of it. -/
def Graph.LeadsBack (graph : Graph) (place : Place) (property : Property)
    (name : String) : Prop :=
  ∃ target other back, graph.target? property = some target ∧
    target.property? name = some other ∧
    graph.reciprocal? place = some (target, other) ∧
    property.kind.reciprocal? = some other.kind ∧ other.owner = false ∧
    other.mappedBy? = some property.name ∧
    graph.target? other = some back ∧
    graph.entities.isWithin place.entity back.name = true

/-! ## What resolutions settle -/

namespace Resolution.Setting.Resolves

variable {setting : Setting} {place : Place} {property other : Property}
  {relation otherRelation : Relation} {name : String}

/-- A relation that names an inverse was not added. -/
theorem held_of_inversedBy (resolves : setting.Resolves place property relation)
    (inverted : relation.sides.inversedBy = some name) :
    ∃ side : Side, side.Held setting.merged ∧ side.place = place ∧
      property.name = side.property.name ∧
      property.origin = side.property.origin ∧
      relation.kind = side.relation.kind ∧
      (∃ target, relation.target.entity = some target ∧
        setting.directory.meaning side.relation.target.declared = .ok target) ∧
      side.relation.sides.Agreed (setting.scope.Proposed place)
        relation.sides := by
  cases resolves with
  | held side sides target held here outline settled agreed means registered =>
      subst settled
      refine ⟨side, held, here, ?_, ?_, rfl, ⟨target.name, rfl, means⟩, agreed⟩
      · simpa using congrArg Property.name outline
      · simpa [Property.origin] using congrArg Property.origin outline
  | added synthesis absent member covers outline settled =>
      cases settled
      cases inverted

/-- Where a side names an inverse and the target holds a relation of that name
that has the reciprocal kind and points back, this relation names the side as
its owner exactly if it is meant to. -/
theorem answers_iff (sound : setting.Sound)
    (resolves : setting.Resolves place property relation)
    (inverted : relation.sides.inversedBy = some name) {target back : String}
    (aims : relation.target.entity = some target)
    (resolvesOther : setting.Resolves ⟨target, name⟩ other otherRelation)
    (otherRelated : other.relation? = some otherRelation)
    (kind : otherRelation.kind = relation.kind.reciprocal)
    (backward : otherRelation.target.entity = some back)
    (within : Descends setting.merged.base? place.entity back) :
    (otherRelation.sides.owner = false ∧
        otherRelation.sides.mappedBy = some property.name) ↔
      property.Answers setting.schemas other := by
  rcases resolves.held_of_inversedBy inverted with
    ⟨side, held, here, name_eq, origin, kind_eq, ⟨found, known, means⟩, agreed⟩
  rw [aims] at known
  cases known
  subst here
  have mapped_eq : other.mappedBy? = otherRelation.sides.mappedBy := by
    rw [Property.mappedBy?, otherRelated, Option.bind_some]
  have settled := resolvesOther.settled_sides sound
  cases resolvesOther with
  | added synthesis absent member covers outline same =>
      cases same
      have synthesized := congrArg Property.synthesized outline
      rw [Property.synthesized_outline] at synthesized
      constructor
      · rintro ⟨-, mapped⟩
        exact .added synthesized (mapped_eq.trans mapped)
      · have origin : other.origin = synthesis.place := by
          rw [← Property.origin_outline, outline]
          rfl
        have undeclared := sound.own_of_added member
        rw [← origin] at undeclared
        rintro (⟨-, mapped⟩ | ⟨declared, found, -⟩ | ⟨declared, found, -, -, -⟩)
        · exact ⟨rfl, mapped_eq.symm.trans mapped⟩
        · rw [show setting.own _ = _ from found] at undeclared
          cases undeclared
        · rw [show setting.own _ = _ from found] at undeclared
          cases undeclared
  | held otherSide sides otherTarget heldOther at_place outline same agreedOther
      otherMeans registered =>
      cases same
      cases backward
      have originOther : other.origin = otherSide.property.origin := by
        simpa [Property.origin] using congrArg Property.origin outline
      rcases sound.merges.declared_of_held heldOther.property with
        ⟨declared, -, -⟩
      rw [← originOther] at declared
      rw [← at_place] at agreedOther
      have synthesized : other.synthesized = false := by
        have lawful := (Entities.lawful_of_declaredAt declared).2
        rw [← lawful.declared]
        simpa using congrArg Property.synthesized outline
      rw [Property.answers_iff_of_declared declared heldOther.relation
        synthesized, name_eq, origin, originOther]
      exact sound.cleared.names_iff held agreed inverted means heldOther
        at_place agreedOther (kind.trans (kind_eq ▸ rfl)) otherMeans within

end Resolution.Setting.Resolves

/-! ## Targets of relations -/

namespace Graph

variable {graph : Graph} {property other : Property} {target : Entity}
  {name : String}

/-- What the entity of a graph holds under a name, the graph holds there. -/
theorem property?_of_entity? (found : graph.entity? target.name = some target)
    (holds : target.property? name = some other) :
    graph.property? ⟨target.name, name⟩ = some other := by
  rw [property?, Entities.property?,
    show graph.entities.find? target.name = some target from found]
  exact holds

/-- A side that names an inverse has it as the other side, where its target
holds it. -/
theorem reciprocal?_of_inversedBy {place : Place}
    (held : graph.property? place = some property)
    (unmapped : property.mappedBy? = none)
    (inverted : property.inversedBy? = some name)
    (aims : graph.target? property = some target)
    (holds : target.property? name = some other) :
    graph.reciprocal? place = some (target, other) := by
  have named : property.reciprocalName? = some name := by
    rcases Option.bind_eq_some_iff.mp inverted with ⟨relation, here, inverse⟩
    rw [Property.mappedBy?, here, Option.bind_some] at unmapped
    rw [Property.reciprocalName?, here, Option.bind_some,
      Sides.reciprocalName?, unmapped, inverse]
    rfl
  simp [reciprocal?, held, named, aims, holds]

end Graph

/-! ## Where an inverse is missing -/

/-- Authors are persons, but only those who are users have posts. -/
def blog : Registry :=
  (Registry.registerAll {} [
    { name := "Person"
      properties := .ofList [
        ("id", { Options.typed "integer" with primary := true })] },
    { name := "User"
      base := some (.name "Person")
      properties := .ofList [
        ("posts", .oneToMany (.name "Post") "author")] },
    { name := "Post"
      properties := .ofList [
        ("id", { Options.typed "integer" with primary := true }),
        ("author", .manyToOne (.name "Person"))] }]).1

/-- The graph of the blog, which needs no sources. -/
def blogGraph : Graph :=
  match (blog.finalize shopSources .empty).outcome with
  | .ok graph => graph
  | .error _ => default

theorem reachable_blog : Registry.Reachable shopSources blog :=
  (Registry.Reachable.new {}).registerAll _

theorem finalize_blog :
    (blog.finalize shopSources .empty).outcome = .ok blogGraph :=
  rfl

/-! ## Frozen registries -/

variable {sources : Sources} {registry : Registry} {tally : Tally}
  {graph : Graph} {place : Place} {property : Property}

/-- In the graph of a frozen registry the inverse that a property names leads
back to it exactly if the target holds a property of this name that has the
reciprocal kind, points at the entity or an ancestor of it, and was added for
the property, names it where it was declared, or names nothing there and is not
the same declaration. -/
theorem leadsBack_iff (steady : sources.Steady)
    (reachable : registry.Reachable sources)
    (frozen : (registry.finalize sources tally).outcome = .ok graph)
    (held : graph.property? place = some property) {name : String}
    (inverted : property.inversedBy? = some name) :
    graph.LeadsBack place property name ↔
      ∃ target other back, graph.target? property = some target ∧
        target.property? name = some other ∧
        property.kind.reciprocal? = some other.kind ∧
        graph.target? other = some back ∧
        graph.entities.isWithin place.entity back.name = true ∧
        property.Answers registry.schemas other := by
  have resolved := reachable.resolved steady frozen
  rcases Option.bind_eq_some_iff.mp inverted with ⟨relation, here, named⟩
  have resolves := resolved.resolves held here
  have settled := resolves.settled_sides resolved.sound
  have unmapped : property.mappedBy? = none := by
    rw [Property.mappedBy?, here, Option.bind_some]
    exact settled.owner.mp (settled.owner_of_inversedBy named)
  -- Both sides say the same of a property that faces the given one.
  have facing : ∀ target other back, graph.target? property = some target →
      target.property? name = some other →
      property.kind.reciprocal? = some other.kind →
      graph.target? other = some back →
      graph.entities.isWithin place.entity back.name = true →
      ((other.owner = false ∧ other.mappedBy? = some property.name) ↔
        property.Answers registry.schemas other) := by
    intro target other back aims holds kind backward within
    rw [Property.kind_of_relation? here] at kind
    rcases Property.exists_relation_of_kind (Option.some.inj kind).symm with
      ⟨otherRelation, otherHere, otherKind⟩
    rcases (Graph.target?_eq_some_iff here).mp aims with ⟨aims, found⟩
    have backward := ((Graph.target?_eq_some_iff otherHere).mp backward).1
    have resolvesOther := resolved.resolves
      (Graph.property?_of_entity? found holds) otherHere
    have registered := Entities.mem_keys_of_property? held
    rw [resolved.alike.keys] at registered
    rw [resolved.alike.isWithin,
      resolved.sound.merges.isWithin_iff registered] at within
    rw [Property.owner, Property.mappedBy?, otherHere]
    exact resolves.answers_iff resolved.sound named aims resolvesOther
      otherHere otherKind backward within
  constructor
  · rintro ⟨target, other, back, aims, holds, -, kind, owner, mapped, backward,
      within⟩
    exact ⟨target, other, back, aims, holds, kind, backward, within,
      (facing _ _ _ aims holds kind backward within).mp ⟨owner, mapped⟩⟩
  · rintro ⟨target, other, back, aims, holds, kind, backward, within, answers⟩
    rcases (facing _ _ _ aims holds kind backward within).mpr answers with
      ⟨owner, mapped⟩
    exact ⟨target, other, back, aims, holds,
      Graph.reciprocal?_of_inversedBy held unmapped inverted aims holds, kind,
      owner, mapped, backward, within⟩

/-- The party of an order has the orders; the author of a post need not have
the posts. -/
theorem leadsBack_iff_shop_blog :
    shopSources.Steady ∧ Registry.Reachable shopSources shop ∧
      (shop.finalize shopSources .empty).outcome = .ok shopGraph ∧
      Registry.Reachable shopSources blog ∧
      (blog.finalize shopSources .empty).outcome = .ok blogGraph ∧
      (∃ property, shopGraph.property? ⟨"Order", "party"⟩ = some property ∧
        property.inversedBy? = some "orders" ∧
        shopGraph.LeadsBack ⟨"Order", "party"⟩ property "orders") ∧
      ∃ property, blogGraph.property? ⟨"Post", "author"⟩ = some property ∧
        property.inversedBy? = some "posts" ∧
        ¬ blogGraph.LeadsBack ⟨"Post", "author"⟩ property "posts" := by
  refine ⟨steady_shopSources, reachable_shop, finalize_shop, reachable_blog,
    finalize_blog, ?_, ?_⟩
  · have present : (shopGraph.property? ⟨"Order", "party"⟩).isSome := rfl
    have held := (Option.some_get present).symm
    have inverted : ((shopGraph.property? ⟨"Order", "party"⟩).get
        present).inversedBy? = some "orders" :=
      rfl
    refine ⟨_, held, inverted, ?_⟩
    refine (leadsBack_iff steady_shopSources reachable_shop finalize_shop held
      inverted).mpr ⟨_, _, _, rfl, rfl, rfl, rfl, rfl, ?_⟩
    exact .hinted _ rfl rfl
  · have present : (blogGraph.property? ⟨"Post", "author"⟩).isSome := rfl
    have held := (Option.some_get present).symm
    have inverted : ((blogGraph.property? ⟨"Post", "author"⟩).get
        present).inversedBy? = some "posts" :=
      rfl
    refine ⟨_, held, inverted, fun back => ?_⟩
    rcases (leadsBack_iff steady_shopSources reachable_blog finalize_blog held
      inverted).mp back with ⟨target, other, _, aims, holds, _⟩
    have missing : (blogGraph.target?
        ((blogGraph.property? ⟨"Post", "author"⟩).get present)).bind
          (·.property? "posts") = none :=
      rfl
    rw [aims, Option.bind_some, holds] at missing
    cases missing

end EntityCatalog
