import EntityCatalog.Proofs.Graph.Resolved

/-!
# Ownership in graphs

In the graph of a frozen registry a relation owns exactly if it names no owner,
and only an owning side names an inverse.  An inverse side leads back: the
property that it names is held by its target, has the reciprocal kind, owns the
relation and names the inverse side.  Both follow from what a resolution settles
(`Resolves.settled_sides`, `Resolves.exists_owner`).
-/

namespace EntityCatalog

open Pairing Resolution

/-! ## What resolutions settle -/

namespace Resolution.Setting.Resolves

variable {setting : Setting} {place : Place} {property : Property}
  {relation : Relation}

theorem settled_sides (sound : setting.Sound)
    (resolves : setting.Resolves place property relation) :
    relation.sides.Settled := by
  cases resolves with
  | held side sides target held here outline settled agreed means registered =>
      subst here settled
      exact sound.cleared.settled held agreed
  | added synthesis absent member covers outline settled =>
      cases settled
      exact ⟨by simp, fun _ => rfl⟩

/-- The side that names an owner is held by an entity, or it was added for a
side that is; in either case a held side of the reciprocal kind becomes the
owner and names it. -/
theorem exists_owner (sound : setting.Sound)
    (resolves : setting.Resolves place property relation) {name : String}
    (mapped : relation.sides.mappedBy = some name) :
    ∃ other : Side, other.Held setting.merged ∧
      relation.target.entity = some other.place.entity ∧
      other.place.property = name ∧
      other.relation.kind = relation.kind.reciprocal ∧
      ∀ final,
        other.relation.sides.Agreed (setting.scope.Proposed other.place)
            final →
          final.owner = true ∧ final.inversedBy = some property.name := by
  cases resolves with
  | held side sides target held here outline settled agreed means registered =>
      subst here settled
      rcases sound.cleared.owner_of_mappedBy held agreed mapped with
        ⟨known, other, same, -, heldOther, at_place, kind, final⟩
      have target_eq : target.name = known.name := by
        change setting.directory.meaning _ = _ at same
        rw [means] at same
        exact Except.ok.inj same
      have name_eq : property.name = side.property.name := by
        simpa using congrArg Property.name outline
      refine ⟨other, heldOther, ?_, ?_, kind, ?_⟩
      · rw [at_place, settledRelation, target_eq]
      · rw [at_place]
      · rw [name_eq]
        exact final
  | added synthesis absent member covers outline settled =>
      cases settled
      rcases sound.cleared.source_of_added member with
        ⟨side, target, held, -, -, kind, -, rfl, given⟩
      cases mapped
      have name_eq := congrArg Property.name outline
      rw [Property.name_outline] at name_eq
      refine ⟨side, held, rfl, rfl, kind, fun final agrees => ?_⟩
      have inverted := (agrees.inversedBy _).mpr (Or.inr ⟨_, given, rfl⟩)
      rw [name_eq]
      exact ⟨agrees.owner _ given, inverted⟩

end Resolution.Setting.Resolves

/-! ## A shop -/

/-- A shop whose relations need all that pairing does: an inherited inverse
side, hints on either side and a relation that nobody answers. -/
def shop : Registry :=
  (Registry.registerAll {} [
    { name := "Party"
      isAbstract := true
      properties := .ofList [
        ("id", { Options.typed "integer" with primary := true }),
        ("orders", .oneToMany (.deferred 0) "party")] },
    { name := "Customer"
      base := some (.name "Party")
      properties := .ofList [
        ("account", { Options.oneToOne (.name "Account") with
          inversedBy := some "customer" })] },
    { name := "Account"
      properties := .ofList [
        ("number", { Options.typed "integer" with primary := true }),
        ("customer", .oneToOne (.schema "Customer"))] },
    { name := "Order"
      properties := .ofList [
        ("id", { Options.typed "integer" with primary := true }),
        ("party", .manyToOne (.name "Party")),
        ("articles", .manyToMany (.deferred 1))] },
    { name := "Article"
      properties := .ofList [
        ("id", { Options.typed "integer" with primary := true })] }]).1

/-- What the deferred references of the shop answer. -/
def shopSources : Sources where
  reference source _ := .name (if source = 0 then "Order" else "Article")
  mapping _ _ := []
  hook _ _ := .null

/-- The graph of the shop. -/
def shopGraph : Graph :=
  match (shop.finalize shopSources .empty).outcome with
  | .ok graph => graph
  | .error _ => default

theorem steady_shopSources : shopSources.Steady :=
  fun _ _ => rfl

theorem reachable_shop : Registry.Reachable shopSources shop :=
  (Registry.Reachable.new {}).registerAll _

theorem finalize_shop :
    (shop.finalize shopSources .empty).outcome = .ok shopGraph :=
  rfl

/-! ## Frozen registries -/

variable {sources : Sources} {registry : Registry} {tally : Tally}
  {graph : Graph} {place : Place} {property : Property}

/-- In the graph of a frozen registry every relation owns exactly if it names
no owner, never names both an owner and an inverse, and names an inverse only
if it owns.  So a one-to-one relation has no column exactly if it names an
owner. -/
theorem owner_eq_true_iff (steady : sources.Steady)
    (reachable : registry.Reachable sources)
    (frozen : (registry.finalize sources tally).outcome = .ok graph)
    (held : graph.property? place = some property)
    (related : property.isRelation = true) :
    (property.owner = true ↔ property.mappedBy? = none) ∧
      ¬ (property.mappedBy?.isSome = true ∧
        property.inversedBy?.isSome = true) ∧
      (property.inversedBy?.isSome = true → property.owner = true) ∧
      (property.kind = .relation .oneToOne →
        (property.hasColumn = false ↔ property.mappedBy?.isSome = true)) := by
  have resolved := reachable.resolved steady frozen
  rcases Property.exists_relation_of_isRelation related with ⟨relation, here⟩
  have settled := (resolved.resolves held here).settled_sides resolved.sound
  have owner : property.owner = relation.sides.owner := by
    rw [Property.owner, here]
    rfl
  have mapped : property.mappedBy? = relation.sides.mappedBy := by
    rw [Property.mappedBy?, here]
    rfl
  have inverted : property.inversedBy? = relation.sides.inversedBy := by
    rw [Property.inversedBy?, here]
    rfl
  have owns : property.inversedBy?.isSome = true → property.owner = true := by
    intro some
    rcases Option.isSome_iff_exists.mp some with ⟨name, named⟩
    rw [owner]
    exact settled.owner_of_inversedBy (inverted ▸ named)
  have encoding : property.owner = true ↔ property.mappedBy? = none := by
    rw [owner, mapped]
    exact settled.owner
  refine ⟨encoding, ?_, owns, ?_⟩
  · rintro ⟨present, inverse⟩
    rw [encoding.mp (owns inverse)] at present
    cases present
  · intro kind
    rw [Property.hasColumn, kind]
    dsimp only
    rw [← Bool.not_eq_true, encoding, Option.isSome_iff_ne_none]

theorem owner_eq_true_iff_shop :
    shopSources.Steady ∧ Registry.Reachable shopSources shop ∧
      (shop.finalize shopSources .empty).outcome = .ok shopGraph ∧
      ∃ property,
        shopGraph.property? ⟨"Account", "customer"⟩ = some property ∧
          property.isRelation = true ∧
          (property.owner = true ↔ property.mappedBy? = none) ∧
          ¬ (property.mappedBy?.isSome = true ∧
            property.inversedBy?.isSome = true) ∧
          (property.inversedBy?.isSome = true → property.owner = true) ∧
          (property.hasColumn = false ↔
            property.mappedBy?.isSome = true) := by
  have present :
      (shopGraph.property? ⟨"Account", "customer"⟩).any (fun property =>
        property.isRelation && property.kind = .relation .oneToOne) = true :=
    rfl
  rcases (Option.any_eq_true _ _).mp present with ⟨property, held, single⟩
  rw [Bool.and_eq_true, decide_eq_true_eq] at single
  rcases owner_eq_true_iff steady_shopSources reachable_shop finalize_shop held
    single.1 with ⟨encoding, apart, inverse, column⟩
  exact ⟨steady_shopSources, reachable_shop, finalize_shop, property, held,
    single.1, encoding, apart, inverse, column single.2⟩

/-- In the graph of a frozen registry a property that names an owner does not
own, and its target holds under that name a relation of the reciprocal kind
that owns and names the property. -/
theorem exists_owner_of_mappedBy (steady : sources.Steady)
    (reachable : registry.Reachable sources)
    (frozen : (registry.finalize sources tally).outcome = .ok graph)
    (held : graph.property? place = some property) {name : String}
    (mapped : property.mappedBy? = some name) :
    property.owner = false ∧
      ∃ target other, graph.target? property = some target ∧
        target.property? name = some other ∧
        property.kind.reciprocal? = some other.kind ∧
        other.owner = true ∧ other.inversedBy? = some property.name := by
  have resolved := reachable.resolved steady frozen
  rcases Option.bind_eq_some_iff.mp mapped with ⟨relation, here, named⟩
  have resolves := resolved.resolves held here
  constructor
  · rw [Property.owner, here]
    exact (resolves.settled_sides resolved.sound).owner_of_mappedBy named
  rcases resolves.exists_owner resolved.sound named with
    ⟨side, heldSide, aims, asked, kind, final⟩
  rcases resolved.exists_of_held heldSide with
    ⟨other, otherRelation, found, otherHere, -, -, -, sameKind, agreed⟩
  rcases final _ agreed with ⟨owner, inverted⟩
  rcases resolved.exists_entity (Table.mem_keys_of_find? heldSide.entity) with
    ⟨target, entity, -, holds⟩
  refine ⟨target, other, ?_, ?_, ?_, ?_, ?_⟩
  · rw [Graph.target?, Property.targetName?,
      Property.target?_of_relation? here, Option.bind_some, aims]
    exact entity
  · rw [holds, ← asked]
    exact found
  · rw [Property.kind_of_relation? here, Property.kind_of_relation? otherHere,
      sameKind, kind]
    rfl
  · rw [Property.owner, otherHere]
    exact owner
  · rw [Property.inversedBy?, otherHere]
    exact inverted

theorem exists_owner_of_mappedBy_shop :
    shopSources.Steady ∧ Registry.Reachable shopSources shop ∧
      (shop.finalize shopSources .empty).outcome = .ok shopGraph ∧
      ∃ property,
        shopGraph.property? ⟨"Customer", "orders"⟩ = some property ∧
          property.mappedBy? = some "party" ∧ property.owner = false ∧
          ∃ target other, shopGraph.target? property = some target ∧
            target.property? "party" = some other ∧
            property.kind.reciprocal? = some other.kind ∧
            other.owner = true ∧ other.inversedBy? = some property.name := by
  have present :
      (shopGraph.property? ⟨"Customer", "orders"⟩).bind Property.mappedBy? =
        some "party" :=
    rfl
  rcases Option.bind_eq_some_iff.mp present with ⟨property, held, mapped⟩
  exact ⟨steady_shopSources, reachable_shop, finalize_shop, property, held,
    mapped, exists_owner_of_mappedBy steady_shopSources reachable_shop
      finalize_shop held mapped⟩

end EntityCatalog
