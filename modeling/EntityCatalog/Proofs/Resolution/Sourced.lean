import EntityCatalog.Proofs.Resolution.Stemming

/-!
# What lazy parts were evaluated to

A target is found by looking up the declared reference, and the items of an enum
by evaluating what is declared, each once for all copies of a declaration.  A
reference or a mapping may answer otherwise each time, so what is known of a result
is that some evaluation gave it (`Completion.Progress.Sourced`).  Together with its
core this says all of a property but its sides (`Property.Realizes`).
-/

namespace EntityCatalog

/-! ## Targets -/

namespace Findings

variable {findings : Findings} {directory : Directory}
  {own : Place → Option Property}

/-- Every target that was kept for a declaration is what looking up its reference
gave. -/
def Sourced (findings : Findings) (directory : Directory)
    (own : Place → Option Property) : Prop :=
  ∀ place entity, findings.target? place = some entity →
    ∀ declaration, own place = some declaration →
      ∀ target, declaration.target? = some target →
        ∃ tally, (directory.lookUp target.declared tally).1 = .ok entity

theorem sourced_force (sourced : findings.Sourced directory own)
    {place : Place} {target : Target}
    (declared : ∀ declaration, own place = some declaration →
      declaration.target? = some target) :
    (findings.force directory place target).2.Sourced directory own := by
  unfold force
  cases target.entity <|> findings.target? place with
  | some entity => exact sourced
  | none =>
      dsimp only
      cases looked : (directory.lookUp target.declared findings.tally).1 with
      | error miss => exact sourced
      | ok entity =>
          intro asked other kept declaration here aimed pointed
          rw [target?_keep] at kept
          split at kept
          · rename_i same
            subst same
            cases kept
            rw [declared declaration here] at pointed
            cases pointed
            exact ⟨findings.tally, looked⟩
          · exact sourced asked other kept declaration here aimed pointed

end Findings

/-! ## Items -/

namespace Completion

variable {directory : Directory} {own : Place → Option Property}
  {progress after : Progress} {property : Property}

/-- What was found for declarations is what some evaluation gave. -/
structure Progress.Sourced (progress : Progress) (directory : Directory)
    (own : Place → Option Property) : Prop where
  targets : progress.findings.Sourced directory own
  items : ∀ place items, progress.items.find? place = some (place, items) →
    ∀ declaration, own place = some declaration →
      ∀ part, declaration.enumeration? = some part →
        ∃ tally, items = (part.evaluate directory.sources tally).1

/-- Visiting a property that has only other sides than its declaration. -/
theorem Progress.Visited.sourced
    (visited : progress.Visited directory property after)
    (copies : ∀ declaration, own property.origin = some declaration →
      ∃ sides, property = declaration.withSides sides)
    (sourced : progress.Sourced directory own) :
    after.Sourced directory own := by
  cases visited with
  | nothing => exact sourced
  | @items part enumerated pointless =>
      refine ⟨sourced.targets, ?_⟩
      intro place items found declaration here other declared
      unfold Progress.findItems at found
      dsimp only at found
      rw [Table.find?_insert] at found
      split at found
      · rename_i same
        cases same
        cases found
        rcases copies declaration here with ⟨sides, rfl⟩
        rw [Property.enumeration?_withSides, declared] at enumerated
        cases enumerated
        exact ⟨_, rfl⟩
      · exact sourced.items place items found declaration here other declared
  | target pointed =>
      refine ⟨Findings.sourced_force sourced.targets ?_, sourced.items⟩
      intro declaration here
      rcases copies declaration here with ⟨sides, rfl⟩
      rw [← Property.target?_withSides, pointed]

theorem sourced_visitAll {properties : List Property}
    (copies : ∀ property ∈ properties, ∀ declaration,
      own property.origin = some declaration →
        ∃ sides, property = declaration.withSides sides)
    (sourced : progress.Sourced directory own) :
    (properties.foldl (Progress.visit directory []) progress).Sourced
      directory own := by
  induction properties generalizing progress with
  | nil => exact sourced
  | cons property rest induction =>
      exact induction
        (fun other later => copies other (List.mem_cons_of_mem _ later))
        ((visited_visit directory progress property).sourced
          (copies property (List.mem_cons_self ..)) sourced)

end Completion

/-! ## Properties -/

/-- Only what can point at an entity has a target. -/
theorem Property.hasTarget_of_target? {property : Property} {target : Target}
    (pointed : property.target? = some target) :
    property.kind.hasTarget = true := by
  unfold target? at pointed
  unfold kind
  cases nature : property.nature with
  | scalar | enumeration =>
      rw [nature] at pointed
      cases pointed
  | embedded | relation => rfl

/-- A property is what its declaration says: apart from the sides of a relation
all is as declared, with references looked up and enums evaluated. -/
structure Property.Realizes (property declaration : Property)
    (directory : Directory) : Prop where
  declared : ∃ sides target items, property =
    ((declaration.withSides sides).withTarget target).withItems items
  target : ∀ target, declaration.target? = some target →
    ∃ entity tally, property.targetName? = some entity ∧
      (directory.lookUp target.declared tally).1 = .ok entity
  items : ∀ part, declaration.enumeration? = some part →
    ∃ tally, property.enumeration? = some { part with
      items := some (part.evaluate directory.sources tally).1 }

namespace Resolution.Setting

variable {setting : Setting} {tally : Tally} {place : Place}
  {property : Property}

/-- Pairing keeps only targets that looking up references gave. -/
theorem sourced_pairedAt :
    (setting.pairedAt tally).findings.Sourced setting.directory
      setting.own := by
  refine @Pairing.Scope.kept_run (setting.scopeAt tally)
    (fun findings => findings.Sourced setting.directory setting.own) ?_ _
    (fun _ _ kept => nomatch kept)
  intro asked other relation held related findings sourced
  refine Findings.sourced_force sourced fun declaration here => ?_
  rw [(merges_scopeAt.declared_of_held held).1] at here
  cases here
  exact Property.target?_of_relation? related

theorem Silent.sourced_visitedAt (silent : setting.Silent tally) :
    (setting.visitedAt tally).Sourced setting.directory setting.own := by
  rw [visitedAt, silent.invalidAt_eq_nil]
  refine Completion.sourced_visitAll ?_
    ⟨sourced_pairedAt, fun _ _ found => by cases found⟩
  intro other owned declaration here
  have first := (@merges_scopeAt setting tally).held_of_declared here
  rcases settledAt_cases (Entities.mem_ownProperties_iff.mp owned) with
    ⟨before, sides, held, rfl⟩ | ⟨absent, -⟩
  · rw [Property.origin_withSides] at held first
    rw [first] at held
    cases held
    exact ⟨sides, rfl⟩
  · rw [first] at absent
    cases absent

/-- A property that stems from a declaration is what the declaration says. -/
theorem Silent.realizes (silent : setting.Silent tally)
    (held : (setting.entitiesAt tally).property? place = some property)
    {declaration : Property}
    (declared : (setting.scopeAt tally).entities.property? place =
      some declaration) :
    property.Realizes declaration setting.directory := by
  have origin := (merges_scopeAt.declared_of_held declared).1
  cases silent.stems held with
  | added synthesis absent =>
      rw [declared] at absent
      cases absent
  | declared other sides first settled =>
      rw [declared] at first
      cases first
      subst settled
      have sourced := silent.sourced_visitedAt
      refine ⟨Property.exists_of_core ?_, ?_, ?_⟩
      · rw [Completion.core_complete, Property.core_withSides]
      · intro target pointed
        have aimed : (declaration.withSides sides).target? = some target := by
          rw [Property.target?_withSides, pointed]
        have unknown : target.entity = none :=
          (Entities.lawful_of_declaredAt origin).2.open_target _ pointed
        have pointing : ((setting.visitedAt tally).complete
            (declaration.withSides sides)).kind.hasTarget = true := by
          rw [Completion.kind_complete, Property.kind_withSides]
          exact Property.hasTarget_of_target? pointed
        rcases silent.exists_targetName held pointing with ⟨name, -, found, -⟩
        have kept : (setting.visitedAt tally).findings.target?
            declaration.origin = some name := by
          rw [Completion.targetName?_complete _ aimed,
            Property.origin_withSides, unknown] at found
          simpa using found
        rcases sourced.targets _ name kept declaration origin target pointed with
          ⟨looked, answer⟩
        exact ⟨name, looked, found, answer⟩
      · intro part enumerated
        have still : (declaration.withSides sides).enumeration? = some part := by
          rw [Property.enumeration?_withSides, enumerated]
        have completed := (Completion.enumeration?_complete
          (setting.visitedAt tally) still).1
        rcases silent.exists_items held completed with ⟨items, known, -⟩
        dsimp only at known
        rw [Property.origin_withSides, Option.map_eq_some_iff] at known
        rcases known with ⟨entry, found, rfl⟩
        have placed : entry.1 = declaration.origin :=
          (Table.find?_eq_some found).2
        rcases sourced.items _ entry.2 (by rw [found, ← placed]) declaration
          origin part enumerated with ⟨evaluated, same⟩
        refine ⟨evaluated, completed.trans ?_⟩
        rw [Property.origin_withSides, found, Option.map_some, same]

end Resolution.Setting

end EntityCatalog
