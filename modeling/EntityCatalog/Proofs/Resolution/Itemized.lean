import EntityCatalog.Proofs.Resolution.Respelled

/-!
# Items of enums

Of what completion visits only enums count for the items that it enters, and of
what it evaluates only mappings.  If properties are changed in a way that leaves
enums alone (`EnumsKept`), completion evaluates the same items, as long as
mappings go on alike (`Completion.itemsAlike_run`), and defaults hold as before
(`DefaultsHold.map_iff`).
-/

namespace EntityCatalog

/-- A change of properties that leaves alone which enums are evaluated and how
their defaults are judged. -/
structure EnumsKept (change : Property → Property) : Prop where
  enumeration : ∀ property,
    (change property).enumeration? = property.enumeration?
  origin : ∀ property, (change property).origin = property.origin
  judged : ∀ property items,
    (change property).defaultMisuse items = property.defaultMisuse items

/-- Defaults hold after a change that leaves enums alone as they held before,
where mappings go on alike. -/
theorem DefaultsHold.map_iff {sources : Sources}
    {change : Property → Property} (kept : EnumsKept change)
    (properties : List Property) {left right : Tally}
    (alike : sources.AlikeFrom left right) :
    DefaultsHold sources (properties.map change) right ↔
      DefaultsHold sources properties left := by
  induction properties generalizing left right with
  | nil => exact Iff.rfl
  | cons property rest induction =>
      rw [List.map_cons, DefaultsHold, DefaultsHold, kept.enumeration]
      cases property.enumeration? with
      | none => exact induction alike
      | some part =>
          rcases alike.evaluate rfl part with ⟨items, later⟩
          dsimp only
          rw [kept.judged, items, induction later]

/-- Looking a target up evaluates no mapping. -/
theorem Findings.sameMappings_force (findings : Findings)
    (directory : Directory) (place : Place) (target : Target) :
    findings.tally.SameMappings
      (findings.force directory place target).2.tally := by
  unfold force
  cases target.entity <|> findings.target? place with
  | some entity => exact .refl _
  | none =>
      have same :=
        directory.sameMappings_lookUp target.declared findings.tally
      rcases looked : directory.lookUp target.declared findings.tally with
        ⟨answer, tally⟩
      rw [looked] at same
      cases answer with
      | ok entity => exact same
      | error miss => exact same

namespace Completion

variable {sources : Sources} {directory other : Directory}
  {left right after later : Progress} {property : Property}

/-- Completions with the same items, for which mappings go on alike. -/
structure Progress.ItemsAlike (sources : Sources) (left right : Progress) :
    Prop where
  tally : sources.AlikeFrom left.findings.tally right.findings.tally
  items : left.items = right.items

/-- A visit of what is no enum enters no items and evaluates no mapping. -/
theorem Progress.Visited.unchanged
    (visited : left.Visited directory property after)
    (plain : property.enumeration? = none) :
    after.items = left.items ∧
      left.findings.tally.SameMappings after.findings.tally := by
  cases visited with
  | nothing => exact ⟨rfl, .refl _⟩
  | items enumerated =>
      rw [plain] at enumerated
      cases enumerated
  | target pointed =>
      exact ⟨rfl, left.findings.sameMappings_force directory _ _⟩

/-- A visit of an enum evaluates its items. -/
theorem Progress.Visited.eq_findItems {part : Enumeration}
    (visited : left.Visited directory property after)
    (enumerated : property.enumeration? = some part) :
    after = left.findItems directory property.origin property part := by
  cases visited with
  | nothing plain | target _ plain =>
      rw [plain] at enumerated
      cases enumerated
  | items same =>
      rw [same] at enumerated
      cases enumerated
      rfl

/-- Visiting a property and what a change makes of it enters the same items. -/
theorem itemsAlike_visit {change : Property → Property}
    (kept : EnumsKept change) (same : other.sources = directory.sources)
    (alike : Progress.ItemsAlike directory.sources left right)
    (property : Property) :
    Progress.ItemsAlike directory.sources (left.visit directory [] property)
      (right.visit other [] (change property)) := by
  have visited := visited_visit directory left property
  have visitedToo := visited_visit other right (change property)
  cases enumerated : property.enumeration? with
  | none =>
      rcases visited.unchanged enumerated with ⟨items, tally⟩
      rcases visitedToo.unchanged ((kept.enumeration property).trans enumerated)
        with ⟨itemsToo, tallyToo⟩
      exact ⟨alike.tally.of_sameMappings tally tallyToo,
        items.trans (alike.items.trans itemsToo.symm)⟩
  | some part =>
      rw [visited.eq_findItems enumerated, visitedToo.eq_findItems
        ((kept.enumeration property).trans enumerated)]
      rcases alike.tally.evaluate (congrArg Sources.mapping same) part with
        ⟨items, tally⟩
      refine ⟨tally, ?_⟩
      unfold Progress.findItems
      dsimp only
      rw [items, alike.items, kept.origin]

/-- Completing properties and what a change makes of them enters the same
items. -/
theorem itemsAlike_run {change : Property → Property}
    (kept : EnumsKept change) (same : other.sources = directory.sources)
    {first second : Findings}
    (alike : directory.sources.AlikeFrom first.tally second.tally)
    {entities changed : Entities}
    (own : changed.items.flatMap Entity.ownProperties =
      (entities.items.flatMap Entity.ownProperties).map change) :
    Progress.ItemsAlike directory.sources (run directory [] first entities)
      (run other [] second changed) := by
  have start : Progress.ItemsAlike directory.sources { findings := first }
      { findings := second } :=
    ⟨alike, rfl⟩
  unfold run
  rw [own]
  generalize entities.items.flatMap Entity.ownProperties = properties
  generalize ({ findings := first } : Progress) = left at start ⊢
  generalize ({ findings := second } : Progress) = right at start ⊢
  induction properties generalizing left right with
  | nil => exact start
  | cons property rest induction =>
      exact induction _ _ (itemsAlike_visit kept same start property)

end Completion

end EntityCatalog
