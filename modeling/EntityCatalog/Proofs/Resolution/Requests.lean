import EntityCatalog.Proofs.Relation.Requests
import EntityCatalog.Proofs.Resolution.Completed

/-!
# What a resolution evaluates

A resolution looks the bases up, asks for targets while it pairs relations, and
at last asks for what the own properties of all entities lack.  All that it
finds out it finds out by these requests (`Setting.findings_visitedAt`), and in
a resolution without defects they are requests for exactly the tasks that the
schemas leave (`Setting.Silent.mem_requests_iff`).

If the first request for every target is answered, each task is done once
(`Setting.Silent.exists_order`), whoever else asks for its target later on.
-/

namespace EntityCatalog

/-! ## Bases -/

namespace Bases

/-- Looking the bases up does the tasks of the schemas in turn. -/
theorem tally_answers (directory : Directory) (schemas : List Schema)
    (findings : Findings) :
    { findings with tally := (answers directory schemas findings.tally).2 } =
      findings.answerAll directory (schemas.filterMap Schema.baseTask?) := by
  induction schemas generalizing findings with
  | nil => rfl
  | cons schema rest induction =>
      rw [answers]
      cases base : schema.base with
      | none =>
          have idle : schema.baseTask? = none := by
            rw [Schema.baseTask?, base]
            rfl
          rw [List.filterMap_cons_none idle]
          exact induction findings
      | some reference =>
          have task :
              schema.baseTask? = some (.base schema.name reference) := by
            rw [Schema.baseTask?, base]
            rfl
          rw [List.filterMap_cons_some task]
          exact induction
            (findings.answer directory (.base schema.name reference))

end Bases

/-! ## Completion -/

namespace Completion

/-- The request that is made for what an own property lacks.  A target is not
looked up if it is known or belongs to a property that was dropped. -/
def request? (invalid : List Place) (property : Property) : Option Task :=
  if property.target?.any fun target =>
      target.entity.isSome || decide (property.origin ∈ invalid) then none
  else property.task?

variable {directory : Directory} {invalid : List Place} {progress : Progress}

theorem findings_visit (property : Property) :
    (progress.visit directory invalid property).findings =
      progress.findings.answerAll directory
        (request? invalid property).toList := by
  rw [Progress.visit, request?, Property.task?, Property.target?]
  cases nature : property.nature with
  | scalar type => rfl
  | enumeration part =>
      dsimp only
      rw [Progress.findItems, Enumeration.evaluate]
      cases part.declared with
      | literal values => rfl
      | deferred source => rfl
  | embedded part | relation part =>
      dsimp only
      by_cases dropped : property.origin ∈ invalid
      · rw [if_pos dropped, if_pos (by simp [dropped])]
        rfl
      · rw [if_neg dropped, Progress.findTarget]
        refine (Findings.answerAll_task? ..).trans ?_
        simp [Target.task?, dropped]

theorem findings_foldl_visit (properties : List Property) :
    (properties.foldl (Progress.visit directory invalid) progress).findings =
      progress.findings.answerAll directory
        (properties.filterMap (request? invalid)) := by
  induction properties generalizing progress with
  | nil => rfl
  | cons property rest induction =>
      rw [List.foldl_cons, induction, findings_visit]
      cases request : request? invalid property with
      | none => rw [List.filterMap_cons_none request]; rfl
      | some task => rw [List.filterMap_cons_some request]; rfl

end Completion

/-! ## Tasks of different properties -/

/-- The place of the property that leaves a task. -/
def Task.place? : Task → Option Place
  | .base _ _ => none
  | .target place _ => some place
  | .mapping place _ => some place

theorem Target.task?_eq_some_iff {place : Place} {target : Target}
    {task : Task} :
    target.task? place = some task ↔
      target.entity = none ∧ .target place target.declared = task := by
  rw [task?]
  cases target.entity <;> simp

namespace Property

variable {property : Property}

theorem place?_of_task? {task : Task} (left : property.task? = some task) :
    task.place? = some property.origin := by
  unfold task? at left
  split at left
  · cases left
  · split at left
    · cases left
    · cases left
      rfl
  · cases left
    rfl
  · cases left
    rfl

/-- Sides are no part of a task. -/
@[simp]
theorem task?_withSides (sides : Sides) :
    (property.withSides sides).task? = property.task? := by
  rw [withSides]
  split
  · rename_i part nature
    rw [task?, task?, nature]
    rfl
  · rfl

/-- The task of a property that points somewhere is that of its target. -/
theorem task?_of_target? {target : Target}
    (pointed : property.target? = some target) :
    property.task? = some (.target property.origin target.declared) := by
  unfold target? at pointed
  rw [task?]
  split at pointed
  · rename_i part nature
    rw [nature, ← Option.some.inj pointed]
  · rename_i part nature
    rw [nature, ← Option.some.inj pointed]
  · cases pointed

end Property

/-- Properties of different owners or names have different origins. -/
theorem pairwise_origin_flatMap {Owner : Type} {owners : List Owner}
    {name : Owner → String} {properties : Owner → List Property}
    (distinct : (owners.map name).Nodup)
    (declared : ∀ owner ∈ owners, ∀ property ∈ properties owner,
      property.declaredBy = name owner)
    (apart : ∀ owner ∈ owners, ((properties owner).map Property.name).Nodup) :
    (owners.flatMap properties).Pairwise fun left right =>
      left.origin ≠ right.origin := by
  rw [List.pairwise_flatMap]
  constructor
  · intro owner member
    refine (List.pairwise_map.mp (apart owner member)).imp ?_
    exact fun different same => different (congrArg Place.property same)
  · rw [List.Nodup, List.pairwise_map] at distinct
    refine distinct.imp_of_mem fun {left right} first second different => ?_
    intro property inLeft other inRight same
    refine different ?_
    rw [← declared left first property inLeft,
      ← declared right second other inRight]
    exact congrArg Place.entity same

/-- Properties with different origins leave different tasks. -/
theorem nodup_filterMap_task? {properties : List Property}
    {task? : Property → Option Task}
    (leaves : ∀ property task, task? property = some task →
      property.task? = some task)
    (apart : properties.Pairwise fun left right =>
      left.origin ≠ right.origin) :
    (properties.filterMap task?).Nodup := by
  rw [List.Nodup, List.pairwise_filterMap]
  refine apart.imp fun {left right} different task first other second same => ?_
  have leftPlace := Property.place?_of_task? (leaves left task first)
  have rightPlace := Property.place?_of_task? (leaves right other second)
  rw [same, rightPlace] at leftPlace
  exact different (Option.some.inj leftPlace).symm

namespace Resolution.Setting

variable (setting : Setting) (tally : Tally)

/-- The tasks that the schemas leave: the bases of their entities, the targets
of their properties and the mappings of their enums. -/
def tasks : List Task :=
  setting.schemas.items.filterMap Schema.baseTask? ++
    (setting.schemas.items.flatMap Schema.ownProperties).filterMap
      Property.task?

/-- What a resolution asks for, in the order in which it does. -/
def requests : List Task :=
  setting.schemas.items.filterMap Schema.baseTask? ++
    ((setting.scopeAt tally).requests
        { findings := { tally := (setting.linkedAt tally).tally } }
        (setting.scopeAt tally).sides ++
      ((setting.settledAt tally).entities.items.flatMap
        Entity.ownProperties).filterMap
          (Completion.request? (setting.invalidAt tally)))

/-- The first request for every target leads to a registered entity. -/
def FirstAnswered : Prop :=
  Findings.FirstAnswered setting.directory { tally := tally }
    (setting.requests tally)

variable {setting} {tally}

/-- All that a resolution finds out it finds out by its requests. -/
theorem findings_visitedAt :
    (setting.visitedAt tally).findings =
      Findings.answerAll setting.directory { tally := tally }
        (setting.requests tally) := by
  have linked : Findings.answerAll setting.directory { tally := tally }
      (setting.schemas.items.filterMap Schema.baseTask?) =
        { tally := (setting.linkedAt tally).tally } :=
    (Bases.tally_answers setting.directory setting.schemas.items
      { tally := tally }).symm
  have paired : (setting.pairedAt tally).findings =
      Findings.answerAll setting.directory
        { tally := (setting.linkedAt tally).tally }
        ((setting.scopeAt tally).requests
          { findings := { tally := (setting.linkedAt tally).tally } }
          (setting.scopeAt tally).sides) :=
    Pairing.Scope.findings_run
  rw [requests, Findings.answerAll_append, linked, Findings.answerAll_append,
    ← paired]
  exact Completion.findings_foldl_visit _

/-! ## Requests and tasks -/

/-- A declared property is an own property of a schema. -/
theorem mem_ownProperties_iff {property : Property} :
    property ∈ setting.schemas.items.flatMap Schema.ownProperties ↔
      setting.own property.origin = some property := by
  rw [List.mem_flatMap, own, Entities.declaredAt, Option.bind_eq_some_iff]
  constructor
  · rintro ⟨schema, member, owned⟩
    have declared := Schema.mem_ownProperties_iff.mp owned
    refine ⟨schema, ?_, declared⟩
    rw [Property.origin, (Schema.lawful_of_property? declared).2.1]
    exact Table.find?_key member
  · rintro ⟨schema, found, declared⟩
    exact ⟨schema, (Table.find?_eq_some found).1,
      Schema.mem_ownProperties_iff.mpr declared⟩

/-- A task is left by a declared property. -/
theorem mem_tasks_iff {task : Task} :
    task ∈ setting.tasks ↔
      task ∈ setting.schemas.items.filterMap Schema.baseTask? ∨
        ∃ property, setting.own property.origin = some property ∧
          property.task? = some task := by
  simp only [tasks, List.mem_append, List.mem_filterMap,
    mem_ownProperties_iff]

theorem nodup_baseTasks :
    (setting.schemas.items.filterMap Schema.baseTask?).Nodup := by
  have distinct := setting.schemas.distinct
  rw [List.Nodup, List.pairwise_map] at distinct
  rw [List.Nodup, List.pairwise_filterMap]
  refine distinct.imp fun {left right} different task first other second same => ?_
  rcases Option.map_eq_some_iff.mp first with ⟨reference, -, rfl⟩
  rcases Option.map_eq_some_iff.mp second with ⟨further, -, rfl⟩
  exact different (Task.base.inj same).1

theorem place?_of_mem_baseTasks {task : Task}
    (member : task ∈ setting.schemas.items.filterMap Schema.baseTask?) :
    task.place? = none := by
  rcases List.mem_filterMap.mp member with ⟨schema, -, given⟩
  rcases Option.map_eq_some_iff.mp given with ⟨reference, -, rfl⟩
  rfl

theorem nodup_tasks : setting.tasks.Nodup := by
  refine List.nodup_append.mpr ⟨nodup_baseTasks, ?_, ?_⟩
  · refine nodup_filterMap_task? (fun _ _ left => left) ?_
    refine pairwise_origin_flatMap setting.schemas.distinct ?_
      fun schema _ => schema.nodup_ownProperties
    intro schema _ property owned
    exact (Schema.lawful_of_property?
      (Schema.mem_ownProperties_iff.mp owned)).2.1
  · rintro task base other left rfl
    rcases List.mem_filterMap.mp left with ⟨property, -, given⟩
    have somewhere := Property.place?_of_task? given
    rw [place?_of_mem_baseTasks base] at somewhere
    cases somewhere

/-- One target is left to one task. -/
theorem eq_of_target_mem_tasks {place : Place} {first second : EntityRef}
    (left : .target place first ∈ setting.tasks)
    (right : .target place second ∈ setting.tasks) : first = second := by
  have declared : ∀ {reference}, .target place reference ∈ setting.tasks →
      ∃ property, setting.own place = some property ∧
        property.task? = some (.target place reference) := by
    intro reference member
    rcases mem_tasks_iff.mp member with base | ⟨property, here, given⟩
    · cases place?_of_mem_baseTasks base
    · rw [← Option.some.inj (Property.place?_of_task? given)] at here
      exact ⟨property, here, given⟩
  rcases declared left with ⟨property, here, given⟩
  rcases declared right with ⟨other, there, also⟩
  rw [here] at there
  cases there
  rw [given] at also
  cases also
  rfl

/-- Pairing asks for targets of declared properties. -/
theorem exists_declared_of_asks {task : Task}
    (asks : (setting.scopeAt tally).Asks task) :
    (∃ place, task.target? = some place) ∧
      ∃ property, setting.own property.origin = some property ∧
        property.task? = some task := by
  rcases asks with ⟨place, property, relation, held, related, given⟩
  constructor
  · rcases Target.task?_eq_some_iff.mp given with ⟨-, rfl⟩
    exact ⟨_, rfl⟩
  · refine ⟨property, (merges_scopeAt.declared_of_held held).1, ?_⟩
    rw [Property.task?_of_target? (Property.target?_of_relation? related)]
    exact congrArg some (Target.task?_eq_some_iff.mp given).2

theorem asks_of_mem_requests {task : Task}
    (member : task ∈ (setting.scopeAt tally).requests
      { findings := { tally := (setting.linkedAt tally).tally } }
      (setting.scopeAt tally).sides) :
    (setting.scopeAt tally).Asks task :=
  Pairing.Scope.asks_of_mem_requests
    (fun _ => Pairing.Scope.mem_sides_iff.mp) member

theorem task?_of_request? {invalid : List Place} {property : Property}
    {task : Task} (request : Completion.request? invalid property = some task) :
    property.task? = some task := by
  unfold Completion.request? at request
  split at request
  · cases request
  · exact request

/-- A known target is not asked for. -/
theorem entity_of_request? {invalid : List Place} {property : Property}
    {task : Task} (request : Completion.request? invalid property = some task)
    {target : Target} (pointed : property.target? = some target) :
    target.entity = none := by
  unfold Completion.request? at request
  split at request
  · cases request
  · rename_i fresh
    rw [pointed] at fresh
    simp_all

/-- A resolution asks for nothing but tasks that the schemas leave. -/
theorem mem_tasks_of_mem_requests {task : Task}
    (member : task ∈ setting.requests tally) : task ∈ setting.tasks := by
  rw [mem_tasks_iff]
  rcases List.mem_append.mp member with base | later
  · exact Or.inl base
  · refine Or.inr ?_
    rcases List.mem_append.mp later with paired | completed
    · exact (exists_declared_of_asks (asks_of_mem_requests paired)).2
    · rcases List.mem_filterMap.mp completed with ⟨property, owned, request⟩
      have given := task?_of_request? request
      rcases settledAt_cases (Entities.mem_ownProperties_iff.mp owned) with
        ⟨before, sides, held, rfl⟩ | ⟨-, synthesis, sides, -, rfl⟩
      · rw [Property.task?_withSides] at given
        exact ⟨before, (merges_scopeAt.declared_of_held held).1, given⟩
      · -- The target of an added inverse is known.
        have unknown := entity_of_request? request
          (Property.target?_withSides ..)
        cases unknown

/-- Only targets are asked for more than once. -/
theorem nodup_requests :
    ((setting.requests tally).filter (·.target?.isNone)).Nodup := by
  have paired : ((setting.scopeAt tally).requests
      { findings := { tally := (setting.linkedAt tally).tally } }
      (setting.scopeAt tally).sides).filter (·.target?.isNone) = [] := by
    refine List.filter_eq_nil_iff.mpr fun task member => ?_
    rcases (exists_declared_of_asks (asks_of_mem_requests member)).1 with
      ⟨place, aims⟩
    rw [aims]
    exact Bool.false_ne_true
  rw [requests, List.filter_append, List.filter_append, paired,
    List.nil_append, ← List.filter_append]
  refine List.Nodup.filter _ (List.nodup_append.mpr ⟨nodup_baseTasks, ?_, ?_⟩)
  · refine nodup_filterMap_task? (fun _ _ => task?_of_request?) ?_
    refine pairwise_origin_flatMap
      (setting.settledAt tally).entities.distinct ?_ ?_
    · intro entity _ property owned
      exact of_decide_eq_true (List.mem_filter.mp owned).2
    · intro entity _
      exact entity.properties.distinct.sublist (List.filter_sublist.map _)
  · rintro task base other completed rfl
    rcases List.mem_filterMap.mp completed with ⟨property, -, request⟩
    have somewhere := Property.place?_of_task? (task?_of_request? request)
    rw [place?_of_mem_baseTasks base] at somewhere
    cases somewhere

namespace Silent

variable (silent : setting.Silent tally)

include silent

/-- Where nothing is wrong every task is asked for. -/
theorem mem_requests_iff {task : Task} :
    task ∈ setting.requests tally ↔ task ∈ setting.tasks := by
  refine ⟨mem_tasks_of_mem_requests, fun member => ?_⟩
  rcases mem_tasks_iff.mp member with base | ⟨property, declared, given⟩
  · exact List.mem_append_left _ base
  · have held := (@merges_scopeAt setting tally).held_of_declared declared
    rcases preserves_settledAt.held _ _ held with ⟨sides, kept⟩
    refine List.mem_append_right _ (List.mem_append_right _
      (List.mem_filterMap.mpr ⟨property.withSides sides, ?_, ?_⟩))
    · rw [Entities.mem_ownProperties_iff, Property.origin_withSides]
      exact kept
    · rw [silent.invalidAt_eq_nil, Completion.request?,
        Property.task?_withSides, given, Property.target?_withSides, if_neg]
      cases pointed : property.target? with
      | none => exact Bool.false_ne_true
      | some target =>
          simp [(Entities.lawful_of_declaredAt declared).2.open_target _
            pointed]

/-- Where the first request for every target is answered, every task that the
schemas leave is done once, and nothing else is evaluated. -/
theorem exists_order (answered : setting.FirstAnswered tally) :
    ∃ order : List Task, order.Perm setting.tasks ∧
      (setting.visitedAt tally).findings.tally =
        tally.recordAll
          (Task.evaluationsOfAll setting.directory order tally) := by
  refine ⟨Task.firsts [] (setting.requests tally), ?_, ?_⟩
  · refine (List.perm_ext_iff_of_nodup (Task.nodup_firsts _ nodup_requests)
      nodup_tasks).mpr fun task => ⟨fun first => ?_, fun left => ?_⟩
    · exact mem_tasks_of_mem_requests ((Task.sublist_firsts ..).subset first)
    · have asked := silent.mem_requests_iff.mpr left
      cases aims : task.target? with
      | none => exact Task.mem_firsts_of_target?_eq_none asked aims
      | some place =>
          cases task with
          | base | mapping => cases aims
          | target place reference =>
              -- The first request for the target is for the same reference.
              rcases Task.exists_target_mem_firsts asked
                (List.not_mem_nil (a := place)) with ⟨other, first⟩
              rw [eq_of_target_mem_tasks left (mem_tasks_of_mem_requests
                ((Task.sublist_firsts ..).subset first))]
              exact first
  · rw [findings_visitedAt]
    refine Findings.tally_answerAll answered fun place => ?_
    exact iff_of_true List.not_mem_nil rfl

end Silent

end Resolution.Setting

end EntityCatalog
