import EntityCatalog.Proofs.Snapshot.Values
import Mathlib.Data.List.Forall2

/-!
# What snapshots tell apart

Two graphs have equal snapshots exactly if entity by entity and property by
property they agree in what is kept as it is, in whether there are hooks, and in
their values, items and rules up to what is shown alike
(`Graph.snapshot_eq_iff`).  Where all of these are plain, the graphs agree in
them too (`Graph.snapshot_eq_iff_of_plain`).  Types and rules are kept by name,
which determines them unless a type or a rule of its own takes the name of a
standard one (`ScalarType.Regular`, `ReferentialAction.Regular`).
-/

namespace EntityCatalog

/-! ## Names of types and rules -/

namespace ScalarType

/-- A type that its name means. -/
def Regular (type : ScalarType) : Prop :=
  ofName type.name = type

theorem eq_of_ofName_eq_custom {name other : String}
    (meaning : ofName name = .custom other) : name = other := by
  unfold ofName at meaning
  repeat' split at meaning
  all_goals cases meaning
  rfl

theorem regular_of_standard {type : ScalarType}
    (standard : type.isCustom = false) : type.Regular := by
  cases type with
  | custom name => cases standard
  | _ => rfl

theorem regular_ofName (name : String) : (ofName name).Regular := by
  cases meaning : ofName name with
  | custom other =>
      have same := eq_of_ofName_eq_custom meaning
      subst same
      exact meaning
  | _ => exact regular_of_standard rfl

theorem name_eq_iff {left right : ScalarType} (first : left.Regular)
    (second : right.Regular) : left.name = right.name ↔ left = right := by
  refine ⟨fun same => ?_, congrArg name⟩
  rw [← first, same]
  exact second

end ScalarType

namespace ReferentialAction

/-- A rule that its text means. -/
def Regular (action : ReferentialAction) : Prop :=
  ofText action.text = action

/-- Rules that a snapshot does not tell apart. -/
inductive Matches : ReferentialAction → ReferentialAction → Prop
  | same (rule : ReferentialAction) : Matches rule rule
  | custom {rule : ReferentialAction} (standard : rule.isCustom = false) :
      Matches (.custom rule.text) rule
  | standard {rule : ReferentialAction} (standard : rule.isCustom = false) :
      Matches rule (.custom rule.text)

theorem eq_of_ofText_eq_custom {text other : String}
    (meaning : ofText text = .custom other) : text = other := by
  unfold ofText at meaning
  split at meaning
  all_goals cases meaning
  rfl

/-- What a declared text means, the text of the rule means too. -/
theorem regular_ofText (text : String) : (ofText text).Regular := by
  cases meaning : ofText text with
  | custom other =>
      have same := eq_of_ofText_eq_custom meaning
      subst same
      exact meaning
  | _ => rfl

theorem regular_of_standard {rule : ReferentialAction}
    (standard : rule.isCustom = false) : rule.Regular := by
  cases rule with
  | custom text => cases standard
  | _ => rfl

theorem eq_custom_of_isCustom {rule : ReferentialAction}
    (own : rule.isCustom = true) : rule = .custom rule.text := by
  cases rule with
  | custom text => rfl
  | _ => cases own

theorem eq_of_text_eq {left right : ReferentialAction} (first : left.Regular)
    (second : right.Regular) (same : left.text = right.text) : left = right := by
  rw [← first, same]
  exact second

/-- Rules have one text where they match. -/
theorem text_eq_iff {left right : ReferentialAction} :
    left.text = right.text ↔ left.Matches right := by
  constructor
  · intro same
    cases kind : left.isCustom with
    | true =>
        have leftOwn := eq_custom_of_isCustom kind
        rw [same] at leftOwn
        cases other : right.isCustom with
        | true =>
            have rightOwn := eq_custom_of_isCustom other
            rw [leftOwn, rightOwn]
            exact .same _
        | false => exact leftOwn ▸ .custom other
    | false =>
        cases other : right.isCustom with
        | true =>
            have rightOwn := eq_custom_of_isCustom other
            rw [← same] at rightOwn
            exact rightOwn ▸ .standard kind
        | false =>
            have equal := eq_of_text_eq (regular_of_standard kind)
              (regular_of_standard other) same
            exact equal ▸ .same _
  · intro alike
    cases alike <;> rfl

/-- No two regular rules are taken for one another. -/
theorem matches_iff_of_regular {left right : ReferentialAction}
    (first : left.Regular) (second : right.Regular) :
    left.Matches right ↔ left = right := by
  rw [← text_eq_iff]
  exact ⟨eq_of_text_eq first second, congrArg text⟩

end ReferentialAction

theorem CheckTime.text_eq_iff {left right : CheckTime} :
    left.text = right.text ↔ left = right := by
  refine ⟨fun same => ?_, congrArg text⟩
  have read := congrArg ofText? same
  simpa using read

theorem PropertyKind.tag_eq_iff {left right : PropertyKind} :
    left.tag = right.tag ↔ left = right := by
  refine ⟨fun same => ?_, congrArg tag⟩
  have read := congrArg ofTag? same
  simpa using read

/-! ## Parts that may be absent, and lists -/

section

variable {First Second Third : Type} {relates : First → Second → Prop}
  {left : First → Third} {right : Second → Third}

theorem option_map_eq_iff {first : Option First} {second : Option Second}
    (agree : ∀ a ∈ first, ∀ b ∈ second, left a = right b ↔ relates a b) :
    first.map left = second.map right ↔ Option.Rel relates first second := by
  cases first with
  | none =>
      cases second with
      | none => exact iff_of_true rfl .none
      | some b => exact iff_of_false (fun same => nomatch same) (fun same => nomatch same)
  | some a =>
      cases second with
      | none => exact iff_of_false (fun same => nomatch same) (fun same => nomatch same)
      | some b =>
          rw [Option.map_some, Option.map_some, Option.some.injEq,
            agree a rfl b rfl]
          exact ⟨.some, fun related => by cases related; assumption⟩

theorem option_map_inj {Value Text : Type} {text : Value → Text}
    {first second : Option Value}
    (determines : ∀ a ∈ first, ∀ b ∈ second, text a = text b ↔ a = b) :
    first.map text = second.map text ↔ first = second := by
  rw [option_map_eq_iff determines]
  constructor
  · intro related
    cases related with
    | none => rfl
    | some same => exact congrArg some same
  · rintro rfl
    cases first with
    | none => exact .none
    | some a => exact .some rfl

theorem list_map_eq_iff {firsts : List First} {seconds : List Second}
    (agree : ∀ a ∈ firsts, ∀ b ∈ seconds, left a = right b ↔ relates a b) :
    firsts.map left = seconds.map right ↔
      List.Forall₂ relates firsts seconds := by
  induction firsts generalizing seconds with
  | nil => cases seconds <;> simp
  | cons a firsts induction =>
      cases seconds with
      | nil => simp
      | cons b seconds =>
          rw [List.map_cons, List.map_cons, List.cons.injEq,
            List.forall₂_cons, agree a (by simp) b (by simp), induction]
          intro a inside b within
          exact agree a (List.mem_cons_of_mem _ inside) b
            (List.mem_cons_of_mem _ within)

end

/-! ## Properties -/

/-- When two values, two items or two rules are taken for the same. -/
structure Likeness where
  value : Value → Value → Prop
  item : EnumItem → EnumItem → Prop
  rule : ReferentialAction → ReferentialAction → Prop

namespace Likeness

/-- What is shown alike is taken for the same. -/
def shown : Likeness :=
  ⟨Value.Matches, EnumItem.Matches, ReferentialAction.Matches⟩

/-- Only what is equal is taken for the same. -/
def exact : Likeness :=
  ⟨Eq, Eq, Eq⟩

end Likeness

namespace Property

variable (property : Property)

/-- The items of an enum, as far as they are known. -/
def items : List EnumItem :=
  (property.enumeration?.bind (·.items)).getD []

/-- What happens when the referenced row is deleted. -/
def deleteRule? : Option ReferentialAction :=
  property.relation?.bind (·.deleteRule)

/-- What happens when the referenced key changes. -/
def updateRule? : Option ReferentialAction :=
  property.relation?.bind (·.updateRule)

/-- When the constraint of a relation is checked. -/
def checkTime? : Option CheckTime :=
  property.relation?.bind (·.checkTime)

/-- Whether the order of a collection is stored. -/
def fixedOrder : Bool :=
  property.relation?.any (·.fixedOrder)

/-- What the columns of an embedded entity start with. -/
def columnPrefix? : Option String :=
  property.embedding?.bind (·.columnPrefix)

/-- A property whose type is the one that its name means. -/
def Typed : Prop :=
  ∀ type ∈ property.scalarType?, type.Regular

/-- A property whose values, items and rules can be read in one way only. -/
structure Plain : Prop where
  default : ∀ value ∈ property.default, value.Plain
  items : ∀ item ∈ property.items, item.Plain
  deleteRule : ∀ rule ∈ property.deleteRule?, rule.Regular
  updateRule : ∀ rule ∈ property.updateRule?, rule.Regular

/-- Properties that agree in what a snapshot keeps.  Defaults, items and rules do
so up to a likeness, and hooks are there on both sides or on neither. -/
structure Agree (likeness : Likeness) (left right : Property) : Prop where
  name : left.name = right.name
  kind : left.kind = right.kind
  scalarType : left.scalarType? = right.scalarType?
  nullable : left.nullable = right.nullable
  array : left.array = right.array
  reference : left.reference = right.reference
  primary : left.primary = right.primary
  mapToKey : left.mapToKey = right.mapToKey
  default : Option.Rel likeness.value left.default right.default
  onCreate : left.onCreate.isSome = right.onCreate.isSome
  onUpdate : left.onUpdate.isSome = right.onUpdate.isSome
  target : left.targetName? = right.targetName?
  owner : left.owner = right.owner
  mappedBy : left.mappedBy? = right.mappedBy?
  inversedBy : left.inversedBy? = right.inversedBy?
  deleteRule : Option.Rel likeness.rule left.deleteRule? right.deleteRule?
  updateRule : Option.Rel likeness.rule left.updateRule? right.updateRule?
  checkTime : left.checkTime? = right.checkTime?
  fixedOrder : left.fixedOrder = right.fixedOrder
  columnPrefix : left.columnPrefix? = right.columnPrefix?
  items : List.Forall₂ likeness.item left.items right.items
  declaredBy : left.declaredBy = right.declaredBy
  synthesized : left.synthesized = right.synthesized

theorem isSome_eq {First Second : Type} {relates : First → Second → Prop}
    {first : Option First} {second : Option Second}
    (related : Option.Rel relates first second) :
    first.isSome = second.isSome := by
  cases related <;> rfl

section

variable {likeness : Likeness} {left right : Property}

/-- The shape of a property is read off what is kept anyway. -/
theorem Agree.shape (agree : Agree likeness left right) :
    left.shape.render left.targetName? =
      right.shape.render right.targetName? := by
  rw [Property.shape, Property.shape, isGenerated, isGenerated, agree.kind,
    agree.scalarType, agree.array, agree.reference, agree.nullable,
    agree.target, isSome_eq agree.default, agree.onCreate]

/-- Whether the texts of two properties are equal exactly where their values,
items and rules are alike. -/
structure Renders (likeness : Likeness) (left right : Property) : Prop where
  default : ∀ value ∈ left.default, ∀ other ∈ right.default,
    value.display = other.display ↔ likeness.value value other
  items : ∀ item ∈ left.items, ∀ other ∈ right.items,
    item.text = other.text ↔ likeness.item item other
  deleteRule : ∀ rule ∈ left.deleteRule?, ∀ other ∈ right.deleteRule?,
    rule.text = other.text ↔ likeness.rule rule other
  updateRule : ∀ rule ∈ left.updateRule?, ∀ other ∈ right.updateRule?,
    rule.text = other.text ↔ likeness.rule rule other

/-- Snapshots of properties are equal where the properties agree, up to the
likeness that their texts render. -/
theorem ofProperty_eq_iff (typed : left.Typed) (alsoTyped : right.Typed)
    (renders : Renders likeness left right) :
    PropertySnapshot.ofProperty left = PropertySnapshot.ofProperty right ↔
      Agree likeness left right := by
  have types : left.scalarType?.map ScalarType.name =
      right.scalarType?.map ScalarType.name ↔
        left.scalarType? = right.scalarType? :=
    option_map_inj fun a inside b within =>
      ScalarType.name_eq_iff (typed a inside) (alsoTyped b within)
  have times : left.checkTime?.map CheckTime.text =
      right.checkTime?.map CheckTime.text ↔
        left.checkTime? = right.checkTime? :=
    option_map_inj fun _ _ _ _ => CheckTime.text_eq_iff
  have defaults := option_map_eq_iff renders.default
  have items := list_map_eq_iff renders.items
  have deletions := option_map_eq_iff renders.deleteRule
  have updates := option_map_eq_iff renders.updateRule
  simp only [PropertySnapshot.ofProperty, PropertySnapshot.mk.injEq]
  -- The shape adds nothing to the other fields.
  constructor
  · rintro ⟨name, kind, scalarType, nullable, array, reference, primary,
      mapToKey, default, onCreate, onUpdate, target, owner, mappedBy,
      inversedBy, deleteRule, updateRule, checkTime, fixedOrder, columnPrefix,
      texts, -, declaredBy, synthesized⟩
    exact ⟨name, PropertyKind.tag_eq_iff.mp kind, types.mp scalarType,
      nullable, array, reference, primary, mapToKey, defaults.mp default,
      onCreate, onUpdate, target, owner, mappedBy, inversedBy,
      deletions.mp deleteRule, updates.mp updateRule, times.mp checkTime,
      fixedOrder, columnPrefix, items.mp texts, declaredBy, synthesized⟩
  · intro agree
    exact ⟨agree.name, PropertyKind.tag_eq_iff.mpr agree.kind,
      types.mpr agree.scalarType, agree.nullable, agree.array,
      agree.reference, agree.primary, agree.mapToKey,
      defaults.mpr agree.default, agree.onCreate, agree.onUpdate,
      agree.target, agree.owner, agree.mappedBy, agree.inversedBy,
      deletions.mpr agree.deleteRule, updates.mpr agree.updateRule,
      times.mpr agree.checkTime, agree.fixedOrder, agree.columnPrefix,
      items.mpr agree.items, agree.shape, agree.declaredBy,
      agree.synthesized⟩

theorem renders_shown : Renders .shown left right where
  default := fun _ _ _ _ => Value.display_eq_iff
  items := fun _ _ _ _ => EnumItem.text_eq_iff
  deleteRule := fun _ _ _ _ => ReferentialAction.text_eq_iff
  updateRule := fun _ _ _ _ => ReferentialAction.text_eq_iff

/-- Plain properties render nothing alike that is not equal. -/
theorem renders_exact (first : left.Plain) (second : right.Plain) :
    Renders .exact left right where
  default := by
    intro value inside other within
    rw [Value.display_eq_iff]
    exact Value.matches_iff_of_plain (first.default value inside)
      (second.default other within)
  items := by
    intro item inside other within
    rw [EnumItem.text_eq_iff]
    exact EnumItem.matches_iff_of_plain (first.items item inside)
      (second.items other within)
  deleteRule := by
    intro rule inside other within
    rw [ReferentialAction.text_eq_iff]
    exact ReferentialAction.matches_iff_of_regular (first.deleteRule rule inside)
      (second.deleteRule other within)
  updateRule := by
    intro rule inside other within
    rw [ReferentialAction.text_eq_iff]
    exact ReferentialAction.matches_iff_of_regular (first.updateRule rule inside)
      (second.updateRule other within)

end

end Property

/-! ## Entities and graphs -/

/-- Entities that agree in what a snapshot keeps, up to a likeness. -/
structure Entity.Agree (likeness : Likeness) (left right : Entity) : Prop where
  name : left.name = right.name
  base : left.base = right.base
  isAbstract : left.isAbstract = right.isAbstract
  embeddable : left.embeddable = right.embeddable
  keyless : left.keyless = right.keyless
  primaryKeys : left.primaryKeys = right.primaryKeys
  properties : List.Forall₂ (Property.Agree likeness)
    left.properties.items right.properties.items

namespace Graph

/-- Whether an entity of a graph holds a property. -/
def Holds (graph : Graph) (property : Property) : Prop :=
  ∃ entity ∈ graph.entities.items, property ∈ entity.properties.items

/-- A graph whose types are the ones that their names mean. -/
def Typed (graph : Graph) : Prop :=
  ∀ property, graph.Holds property → property.Typed

/-- A graph whose values, items and rules can be read in one way only. -/
def Plain (graph : Graph) : Prop :=
  ∀ property, graph.Holds property → property.Plain

/-- Graphs whose entities agree in order, up to a likeness. -/
def Agree (likeness : Likeness) (left right : Graph) : Prop :=
  List.Forall₂ (Entity.Agree likeness) left.entities.items right.entities.items

section

variable {left right : Graph} (typed : left.Typed) (alsoTyped : right.Typed)

include typed alsoTyped

/-- Snapshots of graphs are equal where the graphs agree, up to the likeness that
the texts of their properties render. -/
theorem snapshot_eq_iff_of_renders {likeness : Likeness}
    (renders : ∀ property, left.Holds property → ∀ other, right.Holds other →
      Property.Renders likeness property other) :
    left.snapshot = right.snapshot ↔ Agree likeness left right := by
  rw [snapshot, snapshot, Snapshot.mk.injEq, Agree]
  refine list_map_eq_iff fun entity inside other within => ?_
  have properties : entity.properties.items.map PropertySnapshot.ofProperty =
      other.properties.items.map PropertySnapshot.ofProperty ↔
        List.Forall₂ (Property.Agree likeness) entity.properties.items
          other.properties.items := by
    refine list_map_eq_iff fun a holds b has => ?_
    have here : left.Holds a := ⟨entity, inside, holds⟩
    have there : right.Holds b := ⟨other, within, has⟩
    exact Property.ofProperty_eq_iff (typed a here) (alsoTyped b there)
      (renders a here b there)
  simp only [EntitySnapshot.ofEntity, EntitySnapshot.mk.injEq, properties]
  constructor
  · rintro ⟨name, base, isAbstract, embeddable, keyless, primaryKeys, agree⟩
    exact ⟨name, base, isAbstract, embeddable, keyless, primaryKeys, agree⟩
  · intro agree
    exact ⟨agree.name, agree.base, agree.isAbstract, agree.embeddable,
      agree.keyless, agree.primaryKeys, agree.properties⟩

/-- Snapshots of graphs are equal where the graphs agree up to what is shown
alike. -/
theorem snapshot_eq_iff :
    left.snapshot = right.snapshot ↔ Agree .shown left right :=
  snapshot_eq_iff_of_renders typed alsoTyped fun _ _ _ _ =>
    Property.renders_shown

/-- Snapshots of plain graphs are equal where the graphs agree. -/
theorem snapshot_eq_iff_of_plain (plain : left.Plain) (alsoPlain : right.Plain) :
    left.snapshot = right.snapshot ↔ Agree .exact left right :=
  snapshot_eq_iff_of_renders typed alsoTyped fun property here other there =>
    Property.renders_exact (plain property here) (alsoPlain other there)

end

end Graph

end EntityCatalog
