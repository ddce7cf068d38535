import EntityCatalog.Proofs.Graph.Redeclared

/-!
# Redeclared relations are matched

A graph settles the relations of schemas without bases in such a way that each
one meets the relation that it names, or names none.  Declared anew, all
relations are therefore declared from both sides or have no other side to look
for (`Graph.Resolved.matched_redeclared`).
-/

namespace EntityCatalog

open Pairing Resolution

/-- The relation as it is before pairing, if it is declared with the names of
its sides. -/
def Relation.redeclared (relation : Relation) : Relation :=
  { relation with
    target := { relation.target with entity := none }
    sides := relation.sides.declared relation.kind
    ownerHint := none }

theorem Hint.slot_redeclared (hint : Hint) (relation : Relation) :
    hint.slot relation.redeclared.sides = hint.slot relation.sides := by
  cases hint <;> rfl

theorem Property.relation?_redeclared (property : Property) :
    property.redeclared.relation? =
      property.relation?.map Relation.redeclared := by
  rcases property with ⟨name, nature⟩
  cases nature <;> rfl

/-- What is declared anew does not depend on whether targets are known. -/
theorem Directory.redeclared_link (directory : Directory)
    (property : Property) :
    (directory.link property).relation?.map Relation.redeclared =
      property.relation?.map Relation.redeclared := by
  unfold Directory.link
  split
  · rfl
  · split
    · rw [Property.relation?_withTarget, Option.map_map]
      rfl
    · rfl

/-- An inverse is added for a relation of a registered schema. -/
theorem Resolution.Setting.Related.registered_of_added {setting : Setting}
    (related : setting.Related) {synthesis : Synthesis}
    (member : synthesis ∈ syntheses setting.scope.decisions) :
    synthesis.source.entity ∈ setting.schemas.keys := by
  rcases related.cleared.source_of_added member with
    ⟨side, -, held, -, -, -, -, rfl, -⟩
  rw [← Entities.keys_ofSchemas setting.schemas]
  exact Table.mem_keys_of_find? held.entity

namespace Resolution.Setting

variable (setting : Setting) (graph : Graph)

/-- A reference means the same among schemas as they were resolved. -/
theorem meaning_redeclared (reference : EntityRef) :
    (setting.redeclared graph).scope.directory.meaning reference =
      setting.directory.meaning reference :=
  congrArg (Directory.meaning · reference) (setting.directory_redeclared graph)

variable {setting} in
/-- Whether an inverse is added depends on the kind of a relation and on the
entity that holds it. -/
theorem Baseless.adds_redeclared (baseless : setting.Baseless)
    {side first : Side} (held : side.Held (setting.redeclared graph).merged)
    (heldFirst : first.Held setting.merged) (here : first.place = side.place)
    (kind : first.relation.kind = side.relation.kind) :
    (setting.redeclared graph).scope.adds side = setting.scope.adds first := by
  have alike := (baseless.alike_redeclared graph).find? side.entity.name
  have name : first.entity.name = side.entity.name :=
    congrArg Place.entity here
  rw [held.entity, ← name, heldFirst.entity, Option.map_some, Option.map_some]
    at alike
  have bare : side.entity.bare = first.entity.bare := Option.some.inj alike
  have mark := congrArg Entity.isAbstract bare
  change side.entity.isAbstract = first.entity.isAbstract at mark
  rw [Scope.adds, Scope.adds, mark, kind]
  rfl

end Resolution.Setting

namespace Graph.Resolved

variable {graph : Graph} {setting : Setting} {place across : Place}
  {property other : Property} {relation back : Relation}
  (resolved : graph.Resolved setting)

include resolved

/-! ## Relations of the graph -/

/-- The target of a relation is what its reference means. -/
theorem means_target (found : graph.property? place = some property)
    (related : property.relation? = some relation) :
    ∃ target, relation.target.entity = some target ∧
      setting.directory.meaning relation.target.declared = .ok target ∧
      target ∈ setting.schemas.keys := by
  cases resolved.resolves found related with
  | held side sides target held here outline settled agreed means registered =>
      subst settled
      have known := Table.mem_keys_of_find? registered
      rw [Setting.merged, Entities.keys_ofSchemas] at known
      exact ⟨target.name, rfl, means, known⟩
  | added synthesis absent member covers outline settled =>
      cases settled
      have known := resolved.sound.registered_of_added member
      exact ⟨synthesis.source.entity, rfl, Directory.meaning_name known, known⟩

/-- What a relation names, its reference means. -/
theorem means_of_names (found : graph.property? place = some property)
    (related : property.relation? = some relation)
    (names : property.Names across) :
    setting.directory.meaning relation.target.declared =
      .ok across.entity := by
  rcases resolved.means_target found related with ⟨target, aims, means, -⟩
  have named := names.1
  rw [Property.targetName?, Property.target?_of_relation? related,
    Option.bind_some, aims] at named
  rw [means, Option.some.inj named]

theorem settled_sides (found : graph.property? place = some property)
    (related : property.relation? = some relation) :
    relation.sides.Settled :=
  (resolved.resolves found related).settled_sides resolved.sound

/-- A relation that does not own names the one that it meets, which has the
reciprocal kind and names it. -/
theorem slots_of_inverse (meets : graph.Meets place property across other)
    (related : property.relation? = some relation)
    (relatedOther : other.relation? = some back)
    (inverse : relation.sides.owner = false) :
    back.kind = relation.kind.reciprocal ∧
      relation.sides.mappedBy = some across.property ∧
      back.sides.inversedBy = some place.property := by
  have settled := resolved.settled_sides meets.found related
  have settledOther := resolved.settled_sides meets.foundOther relatedOther
  have named := meets.names.2
  have namedOther := meets.namesOther.2
  have owner := meets.owner
  rw [Property.owner_of_relation? related, inverse,
    Property.owner_of_relation? relatedOther] at owner
  have owning := (Bool.not_eq_eq_eq_not.mp owner.symm : back.sides.owner = _)
  rw [Property.reciprocalName?, related, Option.bind_some,
    Sides.reciprocalName?, settled.inverse inverse] at named
  rw [Property.reciprocalName?, relatedOther, Option.bind_some,
    Sides.reciprocalName?, settledOther.owner.mp owning] at namedOther
  have mapped : relation.sides.mappedBy = some across.property := by
    rw [← named]
    cases relation.sides.mappedBy <;> rfl
  refine ⟨?_, mapped, namedOther⟩
  -- The owner is held before pairing, and it is what the relation meets.
  rcases (resolved.resolves meets.found related).exists_owner resolved.sound
    mapped with ⟨side, held, aims, here, kind, -⟩
  have target := meets.names.1
  rw [Property.targetName?, Property.target?_of_relation? related,
    Option.bind_some, aims] at target
  have same : side.place = across :=
    congrArg₂ Place.mk (Option.some.inj target) here
  rcases resolved.exists_of_held held with
    ⟨shown, settledOther, foundOther, shows, -, -, -, kept, -⟩
  rw [same] at foundOther
  cases meets.foundOther.symm.trans foundOther
  cases relatedOther.symm.trans shows
  rw [kept, kind]

/-- The relation that a slot names is met, has the reciprocal kind and names the
relation in return. -/
theorem slots_of_meets (meets : graph.Meets place property across other)
    (related : property.relation? = some relation)
    (relatedOther : other.relation? = some back) {hint : Hint} {name : String}
    (named : hint.slot relation.sides = some name) :
    back.kind = relation.kind.reciprocal ∧ name = across.property ∧
      hint.across.slot back.sides = some place.property := by
  have settled := resolved.settled_sides meets.found related
  cases hint with
  | mappedBy =>
      have mapped : relation.sides.mappedBy = some name := named
      rcases resolved.slots_of_inverse meets related relatedOther
        (settled.owner_of_mappedBy mapped) with ⟨kind, here, there⟩
      exact ⟨kind, Option.some.inj (mapped.symm.trans here), there⟩
  | inversedBy =>
      have inverted : relation.sides.inversedBy = some name := named
      have inverse : back.sides.owner = false := by
        have owner := meets.owner
        rw [Property.owner_of_relation? related,
          settled.owner_of_inversedBy inverted,
          Property.owner_of_relation? relatedOther] at owner
        exact Bool.not_eq_eq_eq_not.mp owner.symm
      rcases resolved.slots_of_inverse meets.symm relatedOther related
        inverse with ⟨kind, here, there⟩
      refine ⟨?_, Option.some.inj (inverted.symm.trans there), here⟩
      rw [kind, RelationKind.reciprocal_reciprocal]

/-! ## Relations declared anew -/

variable (baseless : setting.Baseless)

include baseless

/-- Held before pairing is what the graph holds, declared anew. -/
theorem relation?_redeclared (place : Place) :
    ((setting.redeclared graph).merged.property? place).bind
        Property.relation? =
      (graph.property? place).bind fun property =>
        property.relation?.map Relation.redeclared := by
  have shown := resolved.map_eq
    (fun property => property.relation?.map Relation.redeclared)
    (fun property => by rw [Property.relation?_outline])
    setting.directory.redeclared_link place
  rw [(baseless.redeclared graph).property?_merged,
    resolved.own_redeclared baseless]
  have joined := congrArg (Option.bind · id) shown
  simp only [Option.bind_map, Function.comp_def, id] at joined
  rw [joined, Option.bind_map]
  exact congrArg (Option.bind _) (funext Property.relation?_redeclared)

/-- A relation that is held before pairing is in the graph. -/
theorem exists_of_redeclared {side : Side}
    (held : side.Held (setting.redeclared graph).merged) :
    ∃ property relation, graph.property? side.place = some property ∧
      property.relation? = some relation ∧
      side.relation = relation.redeclared := by
  have here := resolved.relation?_redeclared baseless side.place
  rw [held.property, Option.bind_some, held.relation] at here
  rcases Option.bind_eq_some_iff.mp here.symm with ⟨property, found, shown⟩
  rcases Option.map_eq_some_iff.mp shown with ⟨relation, related, same⟩
  exact ⟨property, relation, found, related, same.symm⟩

/-- A relation of the graph is held before pairing. -/
theorem exists_redeclared (found : graph.property? place = some property)
    (related : property.relation? = some relation) :
    ∃ side : Side, side.Held (setting.redeclared graph).merged ∧
      side.place = place ∧ side.relation = relation.redeclared := by
  have here := resolved.relation?_redeclared baseless place
  rw [found, Option.bind_some, related, Option.map_some] at here
  rcases Option.bind_eq_some_iff.mp here with ⟨declared, held, shown⟩
  rcases exists_side_of_property? held shown with ⟨entity, -, side, same⟩
  exact ⟨⟨entity, declared, relation.redeclared⟩, side, same, rfl⟩

omit baseless in
/-- A relation that names no other one was held before pairing, with other
sides at most, and named none. -/
theorem exists_unhinted (found : graph.property? place = some property)
    (related : property.relation? = some relation)
    (unhinted : relation.sides.isUnhinted = true) :
    ∃ side : Side, side.Held setting.merged ∧ side.place = place ∧
      side.relation.kind = relation.kind ∧
      side.relation.target.declared = relation.target.declared ∧
      side.relation.sides.Agreed (setting.scope.Proposed side.place)
        relation.sides := by
  cases resolved.resolves found related with
  | held side sides target held here outline settled agreed means registered =>
      subst here settled
      exact ⟨side, held, rfl, rfl, rfl, agreed⟩
  | added synthesis absent member covers outline settled =>
      cases settled
      cases unhinted

/-- A relation that names no other one gets no inverse, and nothing could be its
other side. -/
theorem alone_redeclared {side : Side} {target : Entity}
    (held : side.Held (setting.redeclared graph).merged)
    (means : (setting.redeclared graph).scope.directory.meaning
      side.relation.target.declared = .ok target.name)
    (registered :
      (setting.redeclared graph).merged.find? target.name = some target)
    (unhinted : side.relation.sides.isUnhinted = true)
    (kind : side.relation.kind = .oneToOne ∨
      side.relation.kind = .manyToMany) :
    (setting.redeclared graph).scope.adds side = false ∧
      ∀ rival ∈ (setting.redeclared graph).scope.rivals side target,
        rival.relation.sides.isUnhinted = false := by
  have flat := resolved.sound.flat baseless
  rcases resolved.exists_of_redeclared baseless held with
    ⟨property, relation, found, related, same⟩
  rw [same] at unhinted kind means
  rcases resolved.exists_unhinted found related unhinted with
    ⟨first, heldFirst, here, kindFirst, declared, agreed⟩
  rcases resolved.sound.cleared.alone_of_unhinted flat heldFirst agreed unhinted
    (kindFirst ▸ kind) with ⟨aimed, pairs, lonely, content⟩
  constructor
  · rw [baseless.adds_redeclared graph held heldFirst here
      (kindFirst.trans (congrArg Relation.kind same).symm)]
    exact content
  intro rival member
  refine Bool.eq_false_iff.mpr fun single => ?_
  rcases Scope.rivals_of_mem member with ⟨back, rivals⟩
  rcases rivals.held registered with ⟨heldRival, place⟩
  rcases resolved.exists_of_redeclared baseless heldRival with
    ⟨other, relationOther, foundOther, relatedOther, sameOther⟩
  rw [sameOther] at single
  rcases resolved.exists_unhinted foundOther relatedOther single with
    ⟨second, heldSecond, there, kindSecond, declaredOther, agreedOther⟩
  -- What could be the other side now could have been it before.
  have entity : second.entity = aimed := by
    have name : aimed.name = second.entity.name := by
      have aims : setting.directory.meaning _ = .ok aimed.name := pairs.means
      rw [declared, ← setting.meaning_redeclared graph] at aims
      rw [← Except.ok.inj (means.symm.trans aims)]
      exact (congrArg Place.entity (there.trans place)).symm
    have known := heldSecond.entity
    rw [← name] at known
    exact Option.some.inj (known.symm.trans pairs.registered)
  have backward : setting.scope.directory.meaning
      second.relation.target.declared = .ok first.entity.name := by
    have aims := means_of_aim rivals.aim
    rw [setting.meaning_redeclared graph, sameOther,
      (baseless.redeclared graph).flat.eq_of_isRelated rivals.related] at aims
    rw [show first.entity.name = side.entity.name from
      congrArg Place.entity here, declaredOther]
    exact aims
  have kinds : second.relation.kind = first.relation.kind := by
    have kinds := rivals.kind
    rw [same, sameOther] at kinds
    rw [kindSecond, kindFirst]
    exact kinds
  have before := lonely second (entity ▸ resolved.sound.cleared.mem_rivals
    resolved.sound.cleared.dropped heldFirst heldSecond kinds
    (by rw [there, here]; exact rivals.different) backward)
  rw [agreedOther.isUnhinted single] at before
  cases before

/-- The target of a relation is one of the entities. -/
theorem aimed_redeclared {side : Side}
    (held : side.Held (setting.redeclared graph).merged) :
    ∃ target : Entity, (setting.redeclared graph).scope.directory.meaning
        side.relation.target.declared = .ok target.name ∧
      (setting.redeclared graph).merged.find? target.name = some target := by
  rcases resolved.exists_of_redeclared baseless held with
    ⟨property, relation, found, related, same⟩
  rcases resolved.means_target found related with ⟨name, -, means, known⟩
  rw [← setting.keys_redeclared graph,
    ← Entities.keys_ofSchemas (setting.redeclared graph).schemas] at known
  rcases Table.mem_keys_iff.mp known with ⟨target, registered⟩
  have named := (Table.find?_eq_some registered).2
  refine ⟨target, ?_, named.symm ▸ registered⟩
  rw [setting.meaning_redeclared graph, same, named]
  exact means

/-- A relation meets what it names. -/
theorem meets_redeclared {side : Side}
    (held : side.Held (setting.redeclared graph).merged) {hint : Hint}
    {name : String} (named : hint.slot side.relation.sides = some name) :
    ∃ other, (setting.redeclared graph).scope.Meets side hint other := by
  rcases resolved.exists_of_redeclared baseless held with
    ⟨property, relation, found, related, same⟩
  rw [same, Hint.slot_redeclared] at named
  have names : property.reciprocalName?.isSome = true := by
    rw [Property.reciprocalName?, related, Option.bind_some,
      Sides.reciprocalName?]
    cases hint <;> simp_all [Hint.slot]
  rcases resolved.exists_meeting (resolved.sound.flat baseless) found names with
    ⟨across, other, meets⟩
  rcases Option.bind_eq_some_iff.mp meets.namesOther.2 with
    ⟨back, relatedOther, -⟩
  rcases resolved.slots_of_meets meets related relatedOther named with
    ⟨kind, here, there⟩
  rcases resolved.exists_redeclared baseless meets.foundOther relatedOther with
    ⟨second, heldSecond, place, sameOther⟩
  have forward := resolved.means_of_names found related meets.names
  have backward := resolved.means_of_names meets.foundOther relatedOther
    meets.namesOther
  refine ⟨second, held, heldSecond, ?_, ?_, ?_, ?_, ?_⟩
  · rw [setting.meaning_redeclared graph, same,
      show second.entity.name = across.entity from
        congrArg Place.entity place]
    exact forward
  · rw [setting.meaning_redeclared graph, sameOther]
    exact backward
  · rw [same, sameOther]
    exact kind
  · rw [same, Hint.slot_redeclared, named, here, ← place]
    rfl
  · rw [sameOther, Hint.slot_redeclared]
    exact there

/-- Declared as they were resolved, all relations are declared from both sides
or have no other side to look for. -/
theorem matched_redeclared (steady : setting.sources.Steady) :
    (setting.redeclared graph).scope.Matched
      (setting.redeclared graph).own where
  toCoherent := Setting.coherent steady (baseless.redeclared graph).linkable
  flat := (baseless.redeclared graph).flat
  dropped := rfl
  aimed := fun side held => resolved.aimed_redeclared baseless held
  unclaimed := by
    intro side held
    rcases resolved.exists_of_redeclared baseless held with
      ⟨property, relation, -, -, same⟩
    rw [same]
    rfl
  meets := fun side held hint name named =>
    resolved.meets_redeclared baseless held named
  lonely := fun side target held means registered unhinted kind =>
    (resolved.alone_redeclared baseless held means registered unhinted kind).2
  content := by
    intro side held unhinted
    rcases resolved.aimed_redeclared baseless held with
      ⟨target, means, registered⟩
    by_cases kind : side.relation.kind = .manyToMany
    · exact (resolved.alone_redeclared baseless held means registered unhinted
        (Or.inr kind)).1
    · simp [Scope.adds, kind]

end Graph.Resolved

end EntityCatalog
