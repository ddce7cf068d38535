import EntityCatalog.Proofs.Graph.Reciprocity
import EntityCatalog.Proofs.Relation.Hints

/-!
# Hints in graphs

In the graph of a frozen registry every copy of a declared relation bears the
name that its options give, and owns as that name says.  A declared word on
ownership can be overruled: the property that was entered as the other side
names the relation in the other role, but leads to another declaration of its
name, whose word is different (`Graph.Overruled`).  That is the only way in
which it is not heeded.
-/

namespace EntityCatalog

open Pairing Resolution

/-- What a property declares of its ownership is overruled.  The other side that
was entered for it was declared to own where the property is to own, or not to
own where it is not, and leads to a different declaration of the same name. -/
structure Graph.Overrules (graph : Graph) (schemas : Table Schema.name)
    (property : Property) (owner : Bool) (target : Entity) (other : Property)
    (back : Entity) (twin : Property) : Prop where
  aims : graph.target? property = some target
  holds : target.property? other.name = some other
  kind : other.kind = property.kind
  /-- The other side was entered in the role that the property declines. -/
  entered : (if owner then property.mappedBy? else property.inversedBy?) =
    some other.name
  /-- The declaration of the other side names the property in that role. -/
  named : ∃ declared,
    Entities.declaredAt schemas other.origin = some declared ∧
      (if owner then declared.inversedBy? else declared.mappedBy?) =
        some property.name
  returns : graph.target? other = some back
  related : graph.entities.isRelated back.name property.declaredBy = true
  meets : back.property? property.name = some twin
  different : twin.origin ≠ property.origin

/-- What a property declares of its ownership is overruled by the other side. -/
def Graph.Overruled (graph : Graph) (schemas : Table Schema.name)
    (property : Property) (owner : Bool) : Prop :=
  ∃ target other back twin,
    graph.Overrules schemas property owner target other back twin

/-! ## Declared relations -/

namespace Graph.Resolved

variable {graph : Graph} {setting : Setting} {side : Side}
  {property : Property} {sides : Sides} {target : Entity}

/-- Where a declared word on ownership is not heeded it was overruled. -/
theorem overruled (resolved : graph.Resolved setting)
    (held : side.Held setting.merged)
    (shows : graph.Shows setting side property sides target)
    (consistent : side.relation.Consistent) {owner : Bool}
    (claims : side.relation.ownerHint = some owner)
    (unheeded : property.owner ≠ owner) :
    graph.Overruled setting.schemas property owner := by
  have sound := resolved.sound
  rw [shows.owner] at unheeded
  rcases sound.cleared.owner_or_answered held shows.agreed consistent claims with
    owns | ⟨known, other, aimed, means, -, heldOther, place, kind, answer, aims,
      isRelated, -, entered⟩
  · exact absurd owns unheeded
  rcases slot_of_answer answer with ⟨hint, slot, role⟩
  have owner_eq : owner = decide (hint = .inversedBy) := by simpa using role
  rcases sound.cleared.exists_counterpart heldOther slot with
    ⟨back, twin, backMeans, heldTwin, twinPlace, objected⟩
  have different := sound.cleared.origin_ne_of_objection held heldTwin
    (owner_eq ▸ claims) objected
  rcases resolved.exists_shown heldOther with
    ⟨otherCopy, _, returned, showsOther⟩
  rcases resolved.exists_shown heldTwin with ⟨twinCopy, _, _, showsTwin⟩
  have target_eq : known.name = target.name :=
    Except.ok.inj (means.symm.trans shows.means)
  have returned_eq : back.name = returned.name :=
    Except.ok.inj (backMeans.symm.trans showsOther.means)
  have aimed_eq : aimed = returned.name := by
    rw [Scope.aim_of_means sound.cleared.dropped backMeans, returned_eq] at aims
    exact (Option.some.inj aims).symm
  rw [target_eq] at place
  rw [returned_eq] at twinPlace
  refine ⟨target, otherCopy, returned, twinCopy, ?_⟩
  constructor
  case aims => exact shows.aims
  case holds =>
    rw [shows.holds, showsOther.name, ← place]
    exact showsOther.found
  case kind => rw [showsOther.kind, shows.kind, kind]
  case entered =>
    rw [shows.mappedBy?, shows.inversedBy?, showsOther.name]
    exact entered
  case named =>
    refine ⟨other.property, ?_, ?_⟩
    · rw [showsOther.origin]
      exact (sound.merges.declared_of_held heldOther.property).1
    · rw [Property.mappedBy?_of_relation? heldOther.relation,
        Property.inversedBy?_of_relation? heldOther.relation, shows.name,
        owner_eq]
      cases hint with
      | mappedBy => exact slot
      | inversedBy => exact slot
  case returns => exact showsOther.aims
  case related =>
    rw [shows.declaredBy, ← aimed_eq, Entities.isRelated,
      resolved.alike.isWithin]
    exact isRelated
  case meets =>
    rw [showsOther.holds, shows.name, ← twinPlace]
    exact showsTwin.found
  case different =>
    rw [showsTwin.origin, shows.origin]
    exact different

/-- A copy of a declared relation bears the names that its declaration gives. -/
theorem named (resolved : graph.Resolved setting)
    (held : side.Held setting.merged)
    (shows : graph.Shows setting side property sides target) :
    (∀ name, side.property.mappedBy? = some name →
        property.mappedBy? = some name ∧ property.owner = false) ∧
      ∀ name, side.property.inversedBy? = some name →
        property.inversedBy? = some name ∧ property.owner = true := by
  have settled := resolved.sound.cleared.settled held shows.agreed
  rw [shows.mappedBy?, shows.inversedBy?, shows.owner,
    Property.mappedBy?_of_relation? held.relation,
    Property.inversedBy?_of_relation? held.relation]
  constructor
  · intro name mapped
    have told := (shows.agreed.mappedBy name).mpr (Or.inl mapped)
    exact ⟨told, settled.owner_of_mappedBy told⟩
  · intro name inverted
    have told := (shows.agreed.inversedBy name).mpr (Or.inl inverted)
    exact ⟨told, settled.owner_of_inversedBy told⟩

/-- A declared word on ownership is heeded unless it was overruled. -/
theorem owner_eq_iff_not_overruled (resolved : graph.Resolved setting)
    (held : side.Held setting.merged)
    (shows : graph.Shows setting side property sides target)
    (consistent : side.relation.Consistent) {owner : Bool}
    (claims : side.relation.ownerHint = some owner) :
    property.owner = owner ↔ ¬ graph.Overruled setting.schemas property owner := by
  constructor
  · rintro rfl ⟨_, _, _, _, overrules⟩
    have settled := resolved.sound.cleared.settled held shows.agreed
    have entered := overrules.entered
    rw [shows.owner, shows.mappedBy?, shows.inversedBy?] at entered
    cases owns : sides.owner with
    | true =>
        rw [owns, if_pos rfl, settled.owner.mp owns] at entered
        cases entered
    | false =>
        rw [owns, if_neg Bool.false_ne_true, settled.inverse owns] at entered
        cases entered
  · intro heeded
    refine Decidable.byContradiction fun unheeded => heeded ?_
    exact resolved.overruled held shows consistent claims unheeded

end Graph.Resolved

/-! ## A badge that is passed on -/

/-- A person's badge does not own its relation.  Employees have a badge of their
own, and it is their badge that badges know. -/
def badges : Registry :=
  (Registry.registerAll {} [
    { name := "Person"
      properties := .ofList [
        ("id", { Options.typed "integer" with primary := true }),
        ("badge", { Options.oneToOne (.name "Badge") with owner := some false })] },
    { name := "Employee"
      base := some (.name "Person")
      properties := .ofList [("badge", .oneToOne (.name "Badge"))] },
    { name := "Badge"
      properties := .ofList [
        ("id", { Options.typed "integer" with primary := true }),
        ("holder", { Options.oneToOne (.name "Employee") with
          mappedBy := some "badge" })] }]).1

/-- The graph of persons, employees and badges. -/
def badgesGraph : Graph :=
  match (badges.finalize shopSources .empty).outcome with
  | .ok graph => graph
  | .error _ => default

theorem reachable_badges : Registry.Reachable shopSources badges :=
  (Registry.Reachable.new {}).registerAll _

theorem finalize_badges :
    (badges.finalize shopSources .empty).outcome = .ok badgesGraph :=
  rfl

/-! ## Frozen registries -/

variable {sources : Sources} {registry : Registry} {tally : Tally}
  {graph : Graph} {schema : Schema} {name : String} {options : Options}

/-- In the graph of a frozen registry an entity holds what it declares.  Every
copy of it bears the name of its options' hint and owns as that says; a word of
the options on ownership is heeded exactly if it was not overruled. -/
theorem hints_heeded_iff (steady : sources.Steady)
    (reachable : registry.Reachable sources)
    (frozen : (registry.finalize sources tally).outcome = .ok graph)
    (registered : registry.schemas.find? schema.name = some schema)
    (declares : schema.properties.find? name = some (name, options)) :
    (∃ property, graph.property? ⟨schema.name, name⟩ = some property ∧
        property.declaredBy = schema.name) ∧
      ∀ holder property, graph.property? ⟨holder, name⟩ = some property →
        property.declaredBy = schema.name →
        (∀ owner, options.mappedBy = some owner →
          property.mappedBy? = some owner ∧ property.owner = false) ∧
        (∀ inverse, options.inversedBy = some inverse →
          property.inversedBy? = some inverse ∧ property.owner = true) ∧
        ∀ owner, options.owner = some owner →
          (property.owner = owner ↔
            ¬ graph.Overruled registry.schemas property owner) := by
  have resolved := reachable.resolved steady frozen
  have fits := List.flatMap_eq_nil_iff.mp resolved.sound.fits schema
    (Table.find?_eq_some registered).1
  rcases Schema.misuses_eq_nil_iff.mp fits name options declares with
    ⟨declared, read⟩
  have own : (registry.setting sources).own ⟨schema.name, name⟩ =
      some declared := by
    rw [Setting.own, Entities.declaredAt]
    dsimp only [Registry.setting]
    rw [registered, Option.bind_some, Schema.property?, declares,
      Option.bind_some]
    exact read
  have bears := Property.bears_of_ofOptions read
  constructor
  · rcases resolved.exists_copy (resolved.sound.merges.held_of_declared own) with
      ⟨property, found, origin⟩
    rw [resolved.sound.merges.placed _ _ own] at origin
    exact ⟨property, found, congrArg Place.entity origin⟩
  · intro holder property found declaredBy
    have origin : property.origin = ⟨schema.name, name⟩ :=
      congrArg₂ Place.mk declaredBy (Entities.name_of_property? found)
    have declares : (registry.setting sources).own property.origin =
        some declared :=
      origin ▸ own
    refine ⟨?_, ?_, ?_⟩
    · intro owner hinted
      rw [← bears.mappedBy] at hinted
      rcases Option.bind_eq_some_iff.mp hinted with ⟨relation, related, -⟩
      rcases resolved.exists_shown_of_declared found declares related with
        ⟨side, sides, target, held, rfl, rfl, shows⟩
      exact (resolved.named held shows).1 owner hinted
    · intro inverse hinted
      rw [← bears.inversedBy] at hinted
      rcases Option.bind_eq_some_iff.mp hinted with ⟨relation, related, -⟩
      rcases resolved.exists_shown_of_declared found declares related with
        ⟨side, sides, target, held, rfl, rfl, shows⟩
      exact (resolved.named held shows).2 inverse hinted
    · intro owner hinted
      rw [← bears.owner] at hinted
      rcases Option.bind_eq_some_iff.mp hinted with ⟨relation, related, claims⟩
      have consistent := Property.consistent_of_ofOptions read related
      rcases resolved.exists_shown_of_declared found declares related with
        ⟨side, sides, target, held, rfl, rfl, shows⟩
      exact resolved.owner_eq_iff_not_overruled held shows consistent claims

/-- The badge of a person owns its relation although it is declared not to, since
it was overruled; the holder of a badge bears the name it was given. -/
theorem hints_heeded_iff_badges :
    shopSources.Steady ∧ Registry.Reachable shopSources badges ∧
      (badges.finalize shopSources .empty).outcome = .ok badgesGraph ∧
      (∃ property, badgesGraph.property? ⟨"Person", "badge"⟩ = some property ∧
        property.owner = true ∧
        badgesGraph.Overruled badges.schemas property false) ∧
      ∃ property, badgesGraph.property? ⟨"Badge", "holder"⟩ = some property ∧
        property.mappedBy? = some "badge" ∧ property.owner = false := by
  refine ⟨steady_shopSources, reachable_badges, finalize_badges, ?_, ?_⟩
  · have present :
        (badgesGraph.property? ⟨"Person", "badge"⟩).any (fun property =>
          property.declaredBy = "Person" && property.owner) = true :=
      rfl
    rcases (Option.any_eq_true _ _).mp present with ⟨property, found, here⟩
    rw [Bool.and_eq_true, decide_eq_true_eq] at here
    rcases here with ⟨declaredBy, owns⟩
    have person : badges.schemas.find? badges.schemas.items[0].name =
        some badges.schemas.items[0] :=
      rfl
    have heeded := ((hints_heeded_iff steady_shopSources reachable_badges
      finalize_badges person rfl).2 "Person" property found declaredBy).2.2
        false rfl
    refine ⟨property, found, owns, ?_⟩
    refine Classical.byContradiction fun kept => ?_
    rw [owns] at heeded
    exact absurd (heeded.mpr kept) (by decide)
  · have present :
        (badgesGraph.property? ⟨"Badge", "holder"⟩).any (fun property =>
          property.declaredBy = "Badge") = true :=
      rfl
    rcases (Option.any_eq_true _ _).mp present with ⟨property, found, here⟩
    have badge : badges.schemas.find? badges.schemas.items[2].name =
        some badges.schemas.items[2] :=
      rfl
    exact ⟨property, found, ((hints_heeded_iff steady_shopSources
      reachable_badges finalize_badges badge rfl).2 "Badge" property found
        (of_decide_eq_true here)).1 "badge" rfl⟩

end EntityCatalog
