import EntityCatalog.Proofs.Entity.Linked

/-!
# Completed properties

These statements hold for all sources, steady or not.  Every target that is
kept is a registered name, and what was kept stays.  So a completion that finds
nothing wrong knows the target of every property it visited and has items for
every enum that its default fits (`Completion.provides_all`), and both are what
copies of the property get (`Completion.targetName?_complete`,
`Completion.enumeration?_complete`).
-/

namespace EntityCatalog

/-! ## Kept targets -/

namespace Findings

variable {findings : Findings} {directory : Directory}

/-- Every target that was kept is a registered name. -/
def Registered (findings : Findings) (directory : Directory) : Prop :=
  ∀ place entity, findings.target? place = some entity →
    entity ∈ directory.names

/-- The entity that a target means, as far as it is known. -/
def known? (findings : Findings) (place : Place) (target : Target) :
    Option String :=
  target.entity <|> findings.target? place

theorem known?_eq_none_iff {place : Place} {target : Target} :
    findings.known? place target = none ↔
      target.entity = none ∧ findings.target? place = none := by
  rw [known?, Option.orElse_eq_orElse, Option.orElse_eq_or,
    Option.or_eq_none_iff]

/-- What is known of a target stays known. -/
theorem Keeps.known? {later : Findings} (keeps : findings.Keeps later)
    {place : Place} {target : Target} {entity : String}
    (known : findings.known? place target = some entity) :
    later.known? place target = some entity := by
  unfold Findings.known? at known ⊢
  cases given : target.entity with
  | none =>
      rw [given] at known
      exact keeps place entity known
  | some other =>
      rw [given] at known
      exact known

/-- A target is known, or it is looked up: then what is found is registered and
kept, or it is missed. -/
theorem force_cases (findings : Findings) (directory : Directory)
    (place : Place) (target : Target) :
    (∃ entity, findings.known? place target = some entity ∧
        findings.force directory place target = (.ok entity, findings)) ∨
      findings.known? place target = none ∧
        ∃ tally, (∃ entity ∈ directory.names,
            findings.force directory place target =
              (.ok entity, { findings with tally := tally }.keep place entity)) ∨
          ∃ miss, findings.force directory place target =
            (.error miss, { findings with tally := tally }) := by
  unfold force known?
  cases target.entity <|> findings.target? place with
  | some entity => exact Or.inl ⟨entity, rfl, rfl⟩
  | none =>
      refine Or.inr ⟨rfl, ?_⟩
      rcases looked : directory.lookUp target.declared findings.tally with
        ⟨answer, tally⟩
      refine ⟨tally, ?_⟩
      cases answer with
      | ok entity =>
          refine Or.inl ⟨entity, ?_, rfl⟩
          exact Directory.mem_names_of_lookUp (congrArg Prod.fst looked)
      | error miss => exact Or.inr ⟨miss, rfl⟩

theorem keeps_force (findings : Findings) (directory : Directory)
    (place : Place) (target : Target) :
    findings.Keeps (findings.force directory place target).2 := by
  rcases findings.force_cases directory place target with
    ⟨entity, -, forced⟩ | ⟨unknown, tally, ⟨entity, -, forced⟩ | ⟨miss, forced⟩⟩
  · rw [forced]
    exact .refl findings
  · rw [forced]
    intro asked other kept
    rw [target?_keep]
    split
    · rename_i here
      subst here
      rw [(known?_eq_none_iff.mp unknown).2] at kept
      cases kept
    · exact kept
  · rw [forced]
    exact fun _ _ kept => kept

/-- Forcing a target finds out nothing about another place, nor about its own if
the target was known. -/
theorem target?_force {place asked : Place} {target : Target}
    (apart : place = asked → target.entity ≠ none) :
    (findings.force directory place target).2.target? asked =
      findings.target? asked := by
  rcases findings.force_cases directory place target with
    ⟨entity, -, forced⟩ | ⟨unknown, tally, ⟨entity, -, forced⟩ | ⟨miss, forced⟩⟩
  · rw [forced]
  · rw [forced, target?_keep, if_neg]
    · rfl
    · intro here
      exact apart here (known?_eq_none_iff.mp unknown).1
  · rw [forced]
    rfl

/-- Before any look-up nothing is kept. -/
theorem registered_of_tally (directory : Directory) (tally : Tally) :
    Registered { tally := tally } directory :=
  fun _ _ kept => nomatch kept

theorem registered_force (directory : Directory) (findings : Findings)
    (registered : findings.Registered directory) (place : Place)
    (target : Target) :
    (findings.force directory place target).2.Registered directory := by
  rcases findings.force_cases directory place target with
    ⟨entity, -, forced⟩ | ⟨-, tally, ⟨entity, known, forced⟩ | ⟨miss, forced⟩⟩
  · rw [forced]
    exact registered
  · rw [forced]
    intro asked other kept
    rw [target?_keep] at kept
    split at kept
    · cases kept
      exact known
    · exact registered asked other kept
  · rw [forced]
    exact registered

/-- A target that was found is known from then on. -/
theorem known_of_force {place : Place} {target : Target} {entity : String}
    (found : (findings.force directory place target).1 = .ok entity) :
    (findings.force directory place target).2.known? place target =
      some entity := by
  rcases findings.force_cases directory place target with
    ⟨known, here, forced⟩ | ⟨unknown, tally, ⟨known, -, forced⟩ | ⟨miss, forced⟩⟩
  · rw [forced] at found ⊢
    cases found
    exact here
  · rw [forced] at found ⊢
    cases found
    rw [known?, (known?_eq_none_iff.mp unknown).1]
    simp
  · rw [forced] at found
    cases found

end Findings

/-! ## Visited properties -/

namespace Completion

variable {directory : Directory} {progress : Progress}
  {property other : Property}

/-- The target of a property is known, and its default is one of the items that
were found for it. -/
structure Progress.Provides (progress : Progress) (property : Property) :
    Prop where
  target : ∀ target, property.target? = some target →
    ∃ entity, progress.findings.known? property.origin target = some entity
  items : ∀ part, property.enumeration? = some part →
    ∃ items, progress.items.find? property.origin =
        some (property.origin, items) ∧
      property.defaultMisuse items = none

section

variable {after : Progress}

theorem Progress.Visited.prefix_defects
    (visited : progress.Visited directory property after) :
    progress.defects <+: after.defects := by
  cases visited with
  | nothing => exact List.prefix_rfl
  | items | target => exact List.prefix_append _ _

theorem Progress.Visited.keeps
    (visited : progress.Visited directory property after) :
    progress.findings.Keeps after.findings := by
  cases visited with
  | nothing | items => exact fun _ _ kept => kept
  | target => exact progress.findings.keeps_force _ _ _

theorem Progress.Visited.registered
    (visited : progress.Visited directory property after)
    (registered : progress.findings.Registered directory) :
    after.findings.Registered directory := by
  cases visited with
  | nothing | items => exact registered
  | target => exact Findings.registered_force _ _ registered _ _

/-- A target that is looked up without a defect is known afterwards. -/
theorem known_of_findTarget {place : Place} {target : Target}
    (silent : (progress.findTarget directory place target).defects = []) :
    ∃ entity, (progress.findTarget directory place target).findings.known? place
      target = some entity := by
  unfold Progress.findTarget at silent ⊢
  have known : ∀ entity,
      (progress.findings.force directory place target).1 = .ok entity →
        (progress.findings.force directory place target).2.known? place target =
          some entity :=
    fun entity => Findings.known_of_force
  generalize progress.findings.force directory place target = forced
    at silent known ⊢
  rcases forced with ⟨answer, findings⟩
  cases answer with
  | ok entity => exact ⟨entity, known entity rfl⟩
  | error miss =>
      exact absurd silent (List.append_ne_nil_of_right_ne_nil _ (by simp))

/-- A property that was visited without a defect has what it lacked. -/
theorem Progress.Visited.provides
    (visited : progress.Visited directory property after)
    (silent : after.defects = []) : after.Provides property := by
  constructor
  · intro target pointed
    cases visited with
    | nothing _ pointless | items _ pointless =>
        rw [pointless] at pointed
        cases pointed
    | target aimed =>
        rw [aimed] at pointed
        cases pointed
        exact known_of_findTarget silent
  · intro part enumerated
    cases visited with
    | nothing plain | target _ plain =>
        rw [plain] at enumerated
        cases enumerated
    | items declared =>
        rw [declared] at enumerated
        cases enumerated
        unfold Progress.findItems at silent ⊢
        dsimp only at silent ⊢
        rw [List.append_eq_nil_iff, Option.toList_eq_nil_iff,
          Option.map_eq_none_iff] at silent
        refine ⟨_, ?_, silent.2⟩
        rw [Table.find?_insert, if_pos rfl]

/-- Only the items of the property that was visited are new. -/
theorem Progress.Visited.items_find?
    (visited : progress.Visited directory property after) {place : Place}
    (apart : place ≠ property.origin) :
    after.items.find? place = progress.items.find? place := by
  cases visited with
  | nothing | target => rfl
  | items =>
      unfold Progress.findItems
      dsimp only
      rw [Table.find?_insert, if_neg apart.symm]

/-- What was found for one property is there after visiting another one. -/
theorem Progress.Provides.of_visited (provides : progress.Provides property)
    (visited : progress.Visited directory other after)
    (apart : property.origin = other.origin → property = other)
    (silent : after.defects = []) : after.Provides property := by
  by_cases same : property.origin = other.origin
  · rw [apart same]
    exact visited.provides silent
  · constructor
    · intro target pointed
      rcases provides.target target pointed with ⟨entity, known⟩
      exact ⟨entity, visited.keeps.known? known⟩
    · intro part enumerated
      rcases provides.items part enumerated with ⟨items, found, fits⟩
      exact ⟨items, (visited.items_find? same).trans found, fits⟩

end

/-- Visiting a property finds out nothing about a place that is not its origin,
nor about its own if its target was known. -/
theorem target?_visit {invalid : List Place} {place : Place}
    (apart : ∀ target, property.target? = some target →
      property.origin = place → target.entity ≠ none) :
    (progress.visit directory invalid property).findings.target? place =
      progress.findings.target? place := by
  unfold Progress.visit
  cases nature : property.nature with
  | scalar => rfl
  | enumeration => rfl
  | embedded part | relation part =>
      dsimp only
      split
      · rfl
      · exact Findings.target?_force
          (apart part.target (by rw [Property.target?, nature]))

/-! ## All properties -/

theorem target?_visitAll {invalid : List Place} {place : Place}
    {properties : List Property}
    (apart : ∀ property ∈ properties, ∀ target,
      property.target? = some target → property.origin = place →
        target.entity ≠ none) :
    (properties.foldl (Progress.visit directory invalid)
        progress).findings.target? place =
      progress.findings.target? place := by
  induction properties generalizing progress with
  | nil => rfl
  | cons property rest induction =>
      rw [List.foldl_cons, induction fun other later =>
        apart other (List.mem_cons_of_mem _ later)]
      exact target?_visit (apart property (List.mem_cons_self ..))

theorem defects_prefix_visitAll (directory : Directory) (progress : Progress)
    (properties : List Property) :
    progress.defects <+:
      (properties.foldl (Progress.visit directory []) progress).defects := by
  induction properties generalizing progress with
  | nil => exact List.prefix_rfl
  | cons property rest induction =>
      exact (visited_visit directory progress property).prefix_defects.trans
        (induction _)

theorem registered_visitAll
    (registered : progress.findings.Registered directory)
    (properties : List Property) :
    (properties.foldl (Progress.visit directory [])
      progress).findings.Registered directory := by
  induction properties generalizing progress with
  | nil => exact registered
  | cons property rest induction =>
      exact induction
        ((visited_visit directory progress property).registered registered)

theorem registered_run {findings : Findings}
    (registered : findings.Registered directory) (entities : Entities) :
    (run directory [] findings entities).findings.Registered directory := by
  have start : Findings.Registered
      ({ findings := findings } : Progress).findings directory :=
    registered
  exact registered_visitAll start _

theorem Progress.Provides.visitAll (provides : progress.Provides property)
    {properties : List Property}
    (apart : ∀ other ∈ properties, property.origin = other.origin →
      property = other)
    (silent :
      (properties.foldl (Progress.visit directory []) progress).defects = []) :
    (properties.foldl (Progress.visit directory []) progress).Provides
      property := by
  induction properties generalizing progress with
  | nil => exact provides
  | cons other rest induction =>
      have here : (progress.visit directory [] other).defects = [] :=
        List.prefix_nil.mp (silent ▸ defects_prefix_visitAll directory _ rest)
      exact induction
        (provides.of_visited (visited_visit directory progress other)
          (apart other (List.mem_cons_self ..)) here)
        (fun later inside => apart later (List.mem_cons_of_mem _ inside)) silent

/-- Visiting properties without a defect finds what all of them lack. -/
theorem provides_all {properties : List Property}
    (apart : ∀ property ∈ properties, ∀ other ∈ properties,
      property.origin = other.origin → property = other)
    (silent :
      (properties.foldl (Progress.visit directory []) progress).defects = []) :
    ∀ property ∈ properties,
      (properties.foldl (Progress.visit directory []) progress).Provides
        property := by
  induction properties generalizing progress with
  | nil => exact fun _ absent => nomatch absent
  | cons first rest induction =>
      have here : (progress.visit directory [] first).defects = [] :=
        List.prefix_nil.mp (silent ▸ defects_prefix_visitAll directory _ rest)
      intro property member
      rcases List.mem_cons.mp member with rfl | later
      · have visited := visited_visit directory progress property
        exact (visited.provides here).visitAll
          (fun other inside => apart property (List.mem_cons_self ..) other
            (List.mem_cons_of_mem _ inside)) silent
      · exact induction
          (fun left inside right within =>
            apart left (List.mem_cons_of_mem _ inside) right
              (List.mem_cons_of_mem _ within)) silent property later

/-! ## Copies -/

section

variable (progress : Progress) (property : Property)

@[simp]
theorem kind_complete :
    (progress.complete property).kind = property.kind := by
  unfold Progress.complete
  cases nature : property.nature with
  | scalar => rfl
  | enumeration => simp [Property.withItems, Property.kind, nature, Nature.kind]
  | embedded | relation =>
      dsimp only
      split <;> simp

@[simp]
theorem origin_complete :
    (progress.complete property).origin = property.origin := by
  unfold Progress.complete
  cases nature : property.nature with
  | scalar => rfl
  | enumeration => simp [Property.withItems, Property.origin, nature]
  | embedded | relation =>
      dsimp only
      split <;> simp [Property.origin]

end

/-- The target of a copy is the one that was kept for its declaration, else the
one it has. -/
theorem targetName?_complete (progress : Progress) {target : Target}
    (pointed : property.target? = some target) :
    (progress.complete property).targetName? =
      (progress.findings.target? property.origin <|> target.entity) := by
  unfold Progress.complete
  rw [Property.target?] at pointed
  cases nature : property.nature with
  | scalar | enumeration =>
      rw [nature] at pointed
      cases pointed
  | embedded part | relation part =>
      rw [nature] at pointed
      cases pointed
      dsimp only
      cases progress.findings.target? property.origin with
      | none => simp [Property.targetName?, Property.target?, nature]
      | some entity =>
          simp [Property.targetName?, Property.target?, Property.withTarget,
            nature]

/-- The items of a copy are those that were found for its declaration; its
default is left alone. -/
theorem enumeration?_complete (progress : Progress) {part : Enumeration}
    (enumerated : property.enumeration? = some part) :
    (progress.complete property).enumeration? = some { part with
        items := (progress.items.find? property.origin).map Prod.snd } ∧
      (progress.complete property).default = property.default ∧
      (progress.complete property).array = property.array := by
  unfold Progress.complete
  rw [Property.enumeration?] at enumerated
  cases nature : property.nature with
  | enumeration other =>
      rw [nature] at enumerated
      cases enumerated
      simp [Property.enumeration?, Property.withItems, nature]
  | scalar | embedded | relation =>
      rw [nature] at enumerated
      cases enumerated

end Completion

end EntityCatalog
