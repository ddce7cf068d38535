import EntityCatalog.Proofs.Entity.Completed

/-!
# What completion reports

Completion visits every own property; of one that was dropped it looks up no
target.  Whatever the sources answer, it reports of a property that its target
is missed or that its default is no item (`Lacks`).  With steady sources it
reports every target that is missed, unless the property was dropped
(`mem_defects_run`).
-/

namespace EntityCatalog.Completion

variable {directory : Directory} {invalid : List Place}
  {progress after : Progress} {property : Property} {defect : Defect}

/-- What completion may find wrong with a property. -/
inductive Lacks (property : Property) : Defect → Prop
  | items {part : Enumeration} (enumerated : property.enumeration? = some part)
      (misuse : Misuse) :
      Lacks property (.configuration property.origin misuse)
  | target {target : Target} (pointed : property.target? = some target)
      (unknown : target.entity = none) (miss : Miss) :
      Lacks property (miss.targetDefect property.origin)

/-- A property that was dropped and has a target is left alone. -/
theorem visit_eq_or_visited (directory : Directory) (invalid : List Place)
    (progress : Progress) (property : Property) :
    progress.visit directory invalid property = progress ∨
      progress.Visited directory property
        (progress.visit directory invalid property) := by
  by_cases dropped : property.origin ∈ invalid
  · rw [Progress.visit]
    cases nature : property.nature with
    | scalar type => exact Or.inl rfl
    | enumeration part =>
        have enumerated : property.enumeration? = some part := by
          rw [Property.enumeration?, nature]
        refine Or.inr (.items enumerated ?_)
        rw [Property.target?, nature]
    | embedded part | relation part => exact Or.inl (if_pos dropped)
  · exact Or.inr (visited_visit_of_not_mem directory progress dropped)

/-! ## What is reported -/

theorem defects_findTarget (directory : Directory) (progress : Progress)
    (place : Place) (target : Target) :
    (progress.findTarget directory place target).defects =
      progress.defects ++
        match (progress.findings.force directory place target).1 with
        | .ok _ => []
        | .error miss => [miss.targetDefect place] :=
  rfl

theorem lacks_of_findTarget {target : Target}
    (pointed : property.target? = some target)
    (member : defect ∈
      (progress.findTarget directory property.origin target).defects) :
    defect ∈ progress.defects ∨ Lacks property defect := by
  rw [defects_findTarget] at member
  rcases List.mem_append.mp member with earlier | here
  · exact Or.inl earlier
  · have missed : ∀ miss, (progress.findings.force directory property.origin
        target).1 = .error miss → target.entity = none := by
      intro miss forced
      cases known : target.entity with
      | none => rfl
      | some entity =>
          rw [Findings.force, known] at forced
          cases forced
    generalize (progress.findings.force directory property.origin target).1 =
      answer at here missed
    cases answer with
    | ok entity => cases here
    | error miss =>
        rw [List.mem_singleton.mp here]
        exact Or.inr (.target pointed (missed miss rfl) miss)

theorem lacks_of_findItems {part : Enumeration}
    (enumerated : property.enumeration? = some part)
    (member : defect ∈
      (progress.findItems directory property.origin property part).defects) :
    defect ∈ progress.defects ∨ Lacks property defect := by
  unfold Progress.findItems at member
  rcases List.mem_append.mp member with earlier | here
  · exact Or.inl earlier
  · rcases Option.map_eq_some_iff.mp (Option.mem_toList.mp here) with
      ⟨misuse, -, rfl⟩
    exact Or.inr (.items enumerated misuse)

theorem lacks_of_visit
    (member : defect ∈ (progress.visit directory invalid property).defects) :
    defect ∈ progress.defects ∨ Lacks property defect := by
  rcases visit_eq_or_visited directory invalid progress property with
    same | visited
  · rw [same] at member
    exact Or.inl member
  · generalize progress.visit directory invalid property = after
      at member visited
    cases visited with
    | nothing => exact Or.inl member
    | items enumerated => exact lacks_of_findItems enumerated member
    | target pointed => exact lacks_of_findTarget pointed member

/-- What a completion reports is wrong with a property that it visited. -/
theorem lacks_of_run {findings : Findings} {entities : Entities}
    (member : defect ∈ (run directory invalid findings entities).defects) :
    ∃ property, entities.property? property.origin = some property ∧
      Lacks property defect := by
  have all : ∀ (properties : List Property) (progress : Progress),
      defect ∈ (properties.foldl (Progress.visit directory invalid)
        progress).defects →
      defect ∈ progress.defects ∨
        ∃ property ∈ properties, Lacks property defect := by
    intro properties
    induction properties with
    | nil => exact fun _ => Or.inl
    | cons property rest induction =>
        intro progress member
        rcases induction _ member with here | ⟨other, inside, lacks⟩
        · rcases lacks_of_visit here with earlier | lacks
          · exact Or.inl earlier
          · exact Or.inr ⟨property, List.mem_cons_self .., lacks⟩
        · exact Or.inr ⟨other, List.mem_cons_of_mem _ inside, lacks⟩
  rcases all _ _ member with absent | ⟨property, inside, lacks⟩
  · cases absent
  · exact ⟨property, Entities.mem_ownProperties_iff.mp inside, lacks⟩

/-! ## What is missed is reported -/

theorem defects_prefix_visit (directory : Directory) (invalid : List Place)
    (progress : Progress) (property : Property) :
    progress.defects <+:
      (progress.visit directory invalid property).defects := by
  rcases visit_eq_or_visited directory invalid progress property with
    same | visited
  · exact same.symm ▸ List.prefix_rfl
  · exact visited.prefix_defects

variable {reference : Place → Option EntityRef}

theorem right_visit (steady : directory.sources.Steady)
    (right : progress.Right directory reference)
    (linkable : Linkable reference property) :
    (progress.visit directory invalid property).Right directory reference := by
  rcases visit_eq_or_visited directory invalid progress property with
    same | visited
  · rw [same]
    exact right
  · exact (visited.visits steady right linkable).right

/-- A target that is missed is reported by the visit of its property. -/
theorem mem_defects_visit (steady : directory.sources.Steady)
    (right : progress.Right directory reference)
    (linkable : Linkable reference property)
    (kept : property.origin ∉ invalid) {target : Target}
    (pointed : property.target? = some target) (unknown : target.entity = none)
    {miss : Miss} (missed : directory.meaning target.declared = .error miss) :
    miss.targetDefect property.origin ∈
      (progress.visit directory invalid property).defects := by
  have visited := visited_visit_of_not_mem directory progress kept
  generalize progress.visit directory invalid property = after at visited ⊢
  cases visited with
  | nothing _ pointless | items _ pointless =>
      rw [pointless] at pointed
      cases pointed
  | target here =>
      rw [here] at pointed
      cases pointed
      rcases linkable target here with ⟨-, declared⟩ | ⟨known, -⟩
      · have answer := (right.force steady declared unknown).1
        rw [defects_findTarget, answer, missed]
        exact List.mem_append_right _ (by simp)
      · exact absurd unknown known

/-- With steady sources a completion reports every target that is missed, unless
the property was dropped. -/
theorem mem_defects_run (steady : directory.sources.Steady)
    {findings : Findings} {start : Tally}
    (faithful : findings.Faithful directory reference start)
    {entities : Entities}
    (linkable : ∀ property, entities.property? property.origin = some property →
      Linkable reference property)
    (held : entities.property? property.origin = some property)
    (kept : property.origin ∉ invalid) {target : Target}
    (pointed : property.target? = some target) (unknown : target.entity = none)
    {miss : Miss} (missed : directory.meaning target.declared = .error miss) :
    miss.targetDefect property.origin ∈
      (run directory invalid findings entities).defects := by
  have grows : ∀ (properties : List Property) (progress : Progress),
      progress.defects <+: (properties.foldl (Progress.visit directory invalid)
        progress).defects := by
    intro properties
    induction properties with
    | nil => exact fun _ => List.prefix_rfl
    | cons other rest induction =>
        exact fun progress =>
          (defects_prefix_visit directory invalid progress other).trans
            (induction _)
  have all : ∀ (properties : List Property) (progress : Progress),
      (∀ other ∈ properties, Linkable reference other) →
      progress.Right directory reference → property ∈ properties →
      miss.targetDefect property.origin ∈
        (properties.foldl (Progress.visit directory invalid)
          progress).defects := by
    intro properties
    induction properties with
    | nil => exact fun _ _ _ absent => nomatch absent
    | cons other rest induction =>
        intro progress linkable right member
        have here := linkable other (List.mem_cons_self ..)
        rcases List.mem_cons.mp member with rfl | later
        · exact (grows rest _).subset
            (mem_defects_visit steady right here kept pointed unknown missed)
        · exact induction _
            (fun other inside => linkable other (List.mem_cons_of_mem _ inside))
            (right_visit steady right here) later
  have start : Progress.Right { findings := findings } directory reference :=
    faithful.rebase findings.tally
  exact all _ _
    (fun other inside => linkable other (Entities.mem_ownProperties_iff.mp inside))
    start (Entities.mem_ownProperties_iff.mpr held)

end EntityCatalog.Completion
