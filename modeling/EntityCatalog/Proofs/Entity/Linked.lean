import EntityCatalog.Entity.Completion
import EntityCatalog.Proofs.Entity.Frame
import EntityCatalog.Proofs.Reference.Steady

/-!
# Linked properties

Completion looks up every target that is still open and evaluates every enum.
With steady sources a target becomes what its reference means
(`Directory.link`), whoever looked it up.  What the items of an enum are may
depend on how often its source was evaluated before, so the judgement on
defaults (`DefaultsHold`) follows the order of the properties.

Completion finds nothing wrong exactly if every open target means an entity
and all defaults hold.
-/

namespace EntityCatalog

/-! ## Defaults of enums -/

/-- The default of every enum among some properties is one of its items, when
the enums are evaluated in turn. -/
def DefaultsHold (sources : Sources) : List Property → Tally → Prop
  | [], _ => True
  | property :: rest, tally =>
    match property.enumeration? with
    | none => DefaultsHold sources rest tally
    | some part =>
      property.defaultMisuse (part.evaluate sources tally).1 = none ∧
        DefaultsHold sources rest (part.evaluate sources tally).2

/-- Where nothing is an enum all defaults hold. -/
theorem DefaultsHold.of_forall {sources : Sources} {properties : List Property}
    (plain : ∀ property ∈ properties, property.enumeration? = none)
    (tally : Tally) : DefaultsHold sources properties tally := by
  induction properties with
  | nil => exact trivial
  | cons property rest induction =>
      rw [DefaultsHold, plain property (List.mem_cons_self ..)]
      exact induction fun other inside =>
        plain other (List.mem_cons_of_mem _ inside)

theorem Enumeration.evaluate_of_sameMappings (part : Enumeration)
    (sources : Sources) {left right : Tally} (same : left.SameMappings right) :
    (part.evaluate sources left).1 = (part.evaluate sources right).1 ∧
      (part.evaluate sources left).2.SameMappings
        (part.evaluate sources right).2 := by
  unfold evaluate
  cases part.declared with
  | literal values => exact ⟨rfl, same⟩
  | deferred source =>
      simp only [Sources.evaluateMapping, same source, true_and]
      exact same.record _

/-- Only the evaluations of enums count. -/
theorem DefaultsHold.congr {sources : Sources} (properties : List Property)
    {left right : Tally} (same : left.SameMappings right) :
    DefaultsHold sources properties left ↔
      DefaultsHold sources properties right := by
  induction properties generalizing left right with
  | nil => exact Iff.rfl
  | cons property rest induction =>
      rw [DefaultsHold, DefaultsHold]
      cases property.enumeration? with
      | none => exact induction same
      | some part =>
          rcases part.evaluate_of_sameMappings sources same with
            ⟨items, later⟩
          dsimp only
          rw [items, induction later]

/-! ## Targets -/

/-- An open target of a property means an entity. -/
def Directory.Finds (directory : Directory) (property : Property) : Prop :=
  ∀ target, property.target? = some target → target.entity = none →
    ∃ entity, directory.meaning target.declared = .ok entity

/-- The property with its open target filled in. -/
def Directory.link (directory : Directory) (property : Property) : Property :=
  match property.target? with
  | none => property
  | some target =>
    match target.entity, directory.meaning target.declared with
    | none, .ok entity => property.withTarget (some entity)
    | _, _ => property

namespace Directory

variable {directory : Directory} {property : Property} {target : Target}
  {entity : String}

theorem link_of_meaning (pointed : property.target? = some target)
    (unknown : target.entity = none)
    (means : directory.meaning target.declared = .ok entity) :
    directory.link property = property.withTarget (some entity) := by
  rw [link, pointed]
  dsimp only
  rw [unknown, means]

theorem link_of_known (pointed : property.target? = some target)
    (known : target.entity = some entity) :
    directory.link property = property := by
  rw [link, pointed]
  dsimp only
  rw [known]

theorem link_of_target?_eq_none (pointless : property.target? = none) :
    directory.link property = property := by
  rw [link, pointless]

@[simp]
theorem kind_link (directory : Directory) (property : Property) :
    (directory.link property).kind = property.kind := by
  unfold link
  split
  · rfl
  · split
    · simp
    · rfl

@[simp]
theorem synthesized_link (directory : Directory) (property : Property) :
    (directory.link property).synthesized = property.synthesized := by
  unfold link
  split
  · rfl
  · split
    · rw [Property.synthesized_withTarget]
    · rfl

@[simp]
theorem primary_link (directory : Directory) (property : Property) :
    (directory.link property).primary = property.primary := by
  unfold link
  split
  · rfl
  · split
    · rw [Property.primary_withTarget]
    · rfl

@[simp]
theorem origin_link (directory : Directory) (property : Property) :
    (directory.link property).origin = property.origin := by
  unfold link
  split
  · rfl
  · split
    · simp [Property.origin]
    · rfl

@[simp]
theorem enumeration?_link (directory : Directory) (property : Property) :
    (directory.link property).enumeration? = property.enumeration? := by
  unfold link
  split
  · rfl
  · split
    · rw [Property.enumeration?_withTarget]
    · rfl

end Directory

/-- The target of a property is open and declared at its origin, or known while
nothing is declared there. -/
def Linkable (reference : Place → Option EntityRef) (property : Property) :
    Prop :=
  ∀ target, property.target? = some target →
    (target.entity = none ∧
        reference property.origin = some target.declared) ∨
      (target.entity ≠ none ∧ reference property.origin = none)

namespace Findings

variable {directory : Directory} {reference : Place → Option EntityRef}
  {start : Tally} {findings : Findings}

/-- What was kept is right, whatever was evaluated. -/
theorem Faithful.rebase (faithful : Faithful directory reference start findings)
    (tally : Tally) :
    Faithful directory reference tally { findings with tally := tally } where
  means := faithful.means
  mappings := .refl tally

end Findings

namespace Completion

variable {directory : Directory} {reference : Place → Option EntityRef}
  {progress : Progress} {property : Property}

/-- What was kept so far is right. -/
def Progress.Right (progress : Progress) (directory : Directory)
    (reference : Place → Option EntityRef) : Prop :=
  progress.findings.Faithful directory reference progress.findings.tally

/-- The target of a property was kept, if it had to be looked up. -/
def Progress.Knows (progress : Progress) (directory : Directory)
    (property : Property) : Prop :=
  ∀ target, property.target? = some target → target.entity = none →
    ∀ entity, directory.meaning target.declared = .ok entity →
      progress.findings.target? property.origin = some entity

/-- What visiting a property does: its target is kept, and nothing is found
wrong exactly if the target means an entity and the default holds. -/
structure Visits (directory : Directory) (reference : Place → Option EntityRef)
    (property : Property) (before after : Progress) : Prop where
  right : after.Right directory reference
  keeps : before.findings.Keeps after.findings
  knows : after.Knows directory property
  sound : ∀ rest,
    after.defects = [] ∧
        DefaultsHold directory.sources rest after.findings.tally ↔
      before.defects = [] ∧ directory.Finds property ∧
        DefaultsHold directory.sources (property :: rest) before.findings.tally

/-- A property without target has none to look up. -/
theorem finds_of_target?_eq_none (pointless : property.target? = none) :
    directory.Finds property := by
  intro target pointed
  rw [pointless] at pointed
  cases pointed

theorem knows_of_target?_eq_none (pointless : property.target? = none)
    (progress : Progress) : progress.Knows directory property := by
  intro target pointed
  rw [pointless] at pointed
  cases pointed

theorem visits_findTarget (steady : directory.sources.Steady)
    (right : progress.Right directory reference) {target : Target}
    (pointed : property.target? = some target)
    (plain : property.enumeration? = none)
    (linkable : Linkable reference property) :
    Visits directory reference property progress
      (progress.findTarget directory property.origin target) := by
  rw [Progress.findTarget]
  rcases linkable target pointed with ⟨unknown, declared⟩ | ⟨known, -⟩
  · rcases right.force steady declared unknown with
      ⟨answer, faithful, keeps, kept⟩
    rcases forced : progress.findings.force directory property.origin target with
      ⟨found, findings⟩
    rw [forced] at answer faithful keeps kept
    dsimp only at answer faithful keeps kept ⊢
    refine ⟨faithful.rebase findings.tally, keeps, ?_, ?_⟩
    · intro other same _ entity means
      rw [pointed] at same
      cases same
      exact kept entity means
    · intro rest
      rw [answer, DefaultsHold, plain,
        DefaultsHold.congr rest faithful.mappings, List.append_eq_nil_iff,
        and_assoc]
      refine and_congr_right fun _ => and_congr_left fun _ => ?_
      cases means : directory.meaning target.declared with
      | ok entity =>
          refine iff_of_true rfl ?_
          intro other same _
          rw [pointed] at same
          cases same
          exact ⟨entity, means⟩
      | error miss =>
          refine iff_of_false (List.cons_ne_nil _ _) ?_
          intro finds
          rcases finds target pointed unknown with ⟨entity, found⟩
          rw [means] at found
          cases found
  · rcases target with ⟨declared, entity⟩
    cases entity with
    | none => exact absurd rfl known
    | some entity =>
        have closed : ∀ other, property.target? = some other →
            other.entity ≠ none := by
          intro other same
          rw [pointed] at same
          cases same
          exact known
        rw [Findings.force_of_entity]
        dsimp only
        rw [List.append_nil]
        refine ⟨right, .refl _, ?_, ?_⟩
        · intro other same unknown
          exact absurd unknown (closed other same)
        · intro rest
          have finds : directory.Finds property := fun other same unknown =>
            absurd unknown (closed other same)
          simp [DefaultsHold, plain, finds]

theorem visits_findItems (right : progress.Right directory reference)
    {part : Enumeration} (enumerated : property.enumeration? = some part)
    (pointless : property.target? = none) :
    Visits directory reference property progress
      (progress.findItems directory property.origin property part) where
  right := right.rebase _
  keeps := .refl _
  knows := knows_of_target?_eq_none pointless _
  sound := by
    intro rest
    rw [Progress.findItems, DefaultsHold, enumerated]
    dsimp only
    rw [List.append_eq_nil_iff, Option.toList_eq_nil_iff,
      Option.map_eq_none_iff]
    simp [finds_of_target?_eq_none pointless, and_assoc]

theorem visits_nothing (right : progress.Right directory reference)
    (plain : property.enumeration? = none)
    (pointless : property.target? = none) :
    Visits directory reference property progress progress where
  right := right
  keeps := .refl _
  knows := knows_of_target?_eq_none pointless _
  sound := by
    intro rest
    simp [DefaultsHold, plain, finds_of_target?_eq_none pointless]

/-- What visiting a property that was not dropped comes to. -/
inductive Progress.Visited (directory : Directory) (progress : Progress)
    (property : Property) : Progress → Prop
  | nothing (plain : property.enumeration? = none)
      (pointless : property.target? = none) :
      Visited directory progress property progress
  | items {part : Enumeration} (enumerated : property.enumeration? = some part)
      (pointless : property.target? = none) :
      Visited directory progress property
        (progress.findItems directory property.origin property part)
  | target {target : Target} (pointed : property.target? = some target)
      (plain : property.enumeration? = none) :
      Visited directory progress property
        (progress.findTarget directory property.origin target)

theorem visited_visit_of_not_mem (directory : Directory)
    {invalid : List Place} (progress : Progress) {property : Property}
    (kept : property.origin ∉ invalid) :
    progress.Visited directory property
      (progress.visit directory invalid property) := by
  rw [Progress.visit]
  cases nature : property.nature with
  | scalar type =>
      apply Progress.Visited.nothing
      · rw [Property.enumeration?, nature]
      · rw [Property.target?, nature]
  | enumeration part =>
      apply Progress.Visited.items
      · rw [Property.enumeration?, nature]
      · rw [Property.target?, nature]
  | embedded part | relation part =>
      dsimp only
      rw [if_neg kept]
      apply Progress.Visited.target
      · rw [Property.target?, nature]
      · rw [Property.enumeration?, nature]

theorem visited_visit (directory : Directory) (progress : Progress)
    (property : Property) :
    progress.Visited directory property
      (progress.visit directory [] property) :=
  visited_visit_of_not_mem directory progress List.not_mem_nil

theorem Progress.Visited.visits (steady : directory.sources.Steady)
    (right : progress.Right directory reference)
    (linkable : Linkable reference property) {after : Progress}
    (visited : progress.Visited directory property after) :
    Visits directory reference property progress after := by
  cases visited with
  | nothing plain pointless => exact visits_nothing right plain pointless
  | items enumerated pointless =>
      exact visits_findItems right enumerated pointless
  | target pointed plain =>
      exact visits_findTarget steady right pointed plain linkable

theorem visits_visit (steady : directory.sources.Steady)
    (right : progress.Right directory reference)
    (linkable : Linkable reference property) :
    Visits directory reference property progress
      (progress.visit directory [] property) :=
  (visited_visit directory progress property).visits steady right linkable

/-! ## All properties -/

theorem Progress.Knows.of_keeps {later : Progress}
    (knows : progress.Knows directory property)
    (keeps : progress.findings.Keeps later.findings) :
    later.Knows directory property := by
  intro target pointed unknown entity means
  exact keeps _ _ (knows target pointed unknown entity means)

theorem Progress.Knows.of_copy {copy : Property}
    (knows : progress.Knows directory property)
    (origin : copy.origin = property.origin)
    (target : copy.target? = property.target?) :
    progress.Knows directory copy := by
  intro pointed here
  rw [origin]
  exact knows pointed (target ▸ here)

/-- What visiting properties in turn comes to. -/
theorem visit_all (steady : directory.sources.Steady)
    (properties : List Property)
    (linkable : ∀ property ∈ properties, Linkable reference property)
    (right : progress.Right directory reference) :
    (properties.foldl (Progress.visit directory []) progress).Right directory
        reference ∧
      progress.findings.Keeps
        (properties.foldl (Progress.visit directory []) progress).findings ∧
      (∀ property ∈ properties,
        (properties.foldl (Progress.visit directory []) progress).Knows
          directory property) ∧
      ((properties.foldl (Progress.visit directory []) progress).defects = [] ↔
        progress.defects = [] ∧
          (∀ property ∈ properties, directory.Finds property) ∧
          DefaultsHold directory.sources properties progress.findings.tally) := by
  induction properties generalizing progress with
  | nil => exact ⟨right, .refl _, by simp, by simp [DefaultsHold]⟩
  | cons property rest induction =>
      have visits := visits_visit steady right
        (linkable property (List.mem_cons_self ..))
      rcases induction
        (fun other inside => linkable other (List.mem_cons_of_mem _ inside))
        visits.right with ⟨lastRight, keeps, knows, sound⟩
      rw [List.foldl_cons]
      refine ⟨lastRight, visits.keeps.trans keeps, ?_, ?_⟩
      · intro other member
        rcases List.mem_cons.mp member with rfl | inside
        · exact visits.knows.of_keeps keeps
        · exact knows other inside
      · have here := visits.sound rest
        rw [sound, List.forall_mem_cons]
        constructor
        · rintro ⟨silent, finds, hold⟩
          rcases here.mp ⟨silent, hold⟩ with ⟨before, found, holds⟩
          exact ⟨before, ⟨found, finds⟩, holds⟩
        · rintro ⟨before, ⟨found, finds⟩, holds⟩
          rcases here.mpr ⟨before, found, holds⟩ with ⟨silent, hold⟩
          exact ⟨silent, finds, hold⟩

/-! ## Completed properties -/

/-- Entering what was kept into a property with target fills it in. -/
theorem complete_target (right : progress.Right directory reference)
    (linkable : Linkable reference property)
    (knows : progress.Knows directory property)
    (finds : directory.Finds property) {target : Target}
    (pointed : property.target? = some target) :
    (match progress.findings.target? property.origin with
      | some entity => property.withTarget (some entity)
      | none => property) = directory.link property := by
  rcases linkable target pointed with ⟨unknown, -⟩ | ⟨known, undeclared⟩
  · rcases finds target pointed unknown with ⟨entity, means⟩
    rw [knows target pointed unknown entity means,
      Directory.link_of_meaning pointed unknown means]
  · have missing : progress.findings.target? property.origin = none := by
      cases kept : progress.findings.target? property.origin with
      | none => rfl
      | some entity =>
          rcases right.means _ _ kept with ⟨declared, here, -⟩
          rw [undeclared] at here
          cases here
    rcases Option.ne_none_iff_exists'.mp known with ⟨entity, found⟩
    rw [missing, Directory.link_of_known pointed found]

/-- Entering what was found into a property fills in its target and its
items. -/
theorem complete_eq (right : progress.Right directory reference)
    (linkable : Linkable reference property)
    (knows : progress.Knows directory property)
    (finds : directory.Finds property) :
    progress.complete property = (directory.link property).withItems
      ((progress.items.find? property.origin).map Prod.snd) := by
  rw [Progress.complete]
  cases nature : property.nature with
  | scalar type =>
      have pointless : property.target? = none := by
        rw [Property.target?, nature]
      have plain : property.enumeration? = none := by
        rw [Property.enumeration?, nature]
      rw [Directory.link_of_target?_eq_none pointless,
        Property.withItems_of_enumeration?_eq_none plain]
  | enumeration part =>
      have pointless : property.target? = none := by
        rw [Property.target?, nature]
      rw [Directory.link_of_target?_eq_none pointless]
  | embedded part | relation part =>
      have pointed : property.target? = some part.target := by
        rw [Property.target?, nature]
      have plain : (directory.link property).enumeration? = none := by
        rw [Directory.enumeration?_link, Property.enumeration?, nature]
      rw [Property.withItems_of_enumeration?_eq_none plain]
      exact complete_target right linkable knows finds pointed

end Completion

/-! ## Completed entities -/

namespace Entities

theorem alike_complete (entities : Entities)
    (progress : Completion.Progress) :
    (entities.complete progress).Alike entities :=
  alike_of_change _ rfl fun _ => rfl

theorem property?_complete (entities : Entities)
    (progress : Completion.Progress) (place : Place) :
    (entities.complete progress).property? place =
      (entities.property? place).map progress.complete := by
  have found : (entities.complete progress).find? place.entity =
      (entities.find? place.entity).map fun entity =>
        entity.mapProperties progress.complete progress.name_complete :=
    Table.find?_map _ _ _ _
  rw [property?, found, property?]
  cases entities.find? place.entity with
  | none => rfl
  | some entity =>
      exact Table.find?_map entity.properties _ progress.name_complete _

theorem alike_index (entities : Entities) :
    entities.index.Alike entities :=
  alike_of_change _ rfl fun _ => rfl

theorem property?_index (entities : Entities) (place : Place) :
    entities.index.property? place = entities.property? place := by
  have found : entities.index.find? place.entity =
      (entities.find? place.entity).map fun entity =>
        { entity.withPrimaryKeys with
          referencedBy := entities.referencesTo entity.name } :=
    Table.find?_map _ _ _ _
  rw [property?, found, property?]
  cases entities.find? place.entity <;> rfl

end Entities

end EntityCatalog
