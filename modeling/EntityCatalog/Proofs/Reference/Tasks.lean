import EntityCatalog.Proofs.Entity.Completed

/-!
# Tasks and what they evaluate

What schemas leave deferred are tasks: to look up the base of an entity, to
look up the target of a property, and to evaluate the mapping of an enum.  A
task evaluates the deferred references in the chain that it follows, or its
mapping (`Task.evaluations`).

During a resolution a target may be asked for many times.  If the first
request for every target is answered, then each is looked up at the first
request only, and all further ones evaluate nothing: the evaluations made are
those of the first requests (`Findings.tally_answerAll`).
-/

namespace EntityCatalog

/-! ## Evaluations -/

namespace Tally

/-- Count some more evaluations. -/
def recordAll (tally : Tally) (evaluations : List Evaluation) : Tally :=
  evaluations.foldl record tally

theorem recordAll_append (tally : Tally) (first second : List Evaluation) :
    tally.recordAll (first ++ second) =
      (tally.recordAll first).recordAll second :=
  List.foldl_append ..

theorem count_recordAll (tally : Tally) (evaluations : List Evaluation)
    (asked : Evaluation) :
    (tally.recordAll evaluations).count asked =
      tally.count asked + evaluations.count asked := by
  induction evaluations generalizing tally with
  | nil => rfl
  | cons made rest induction =>
      rw [recordAll, List.foldl_cons, ← recordAll, induction, count_record,
        List.count_cons, Nat.add_assoc]
      congr 1
      rw [Nat.add_comm]
      simp

end Tally

namespace EntityRef

/-- The deferred references that following a reference evaluates. -/
def chain (sources : Sources) : Nat → EntityRef → Tally → List Evaluation
  | depth + 1, .deferred source, tally =>
    let (next, tally) := sources.evaluateReference source tally
    .reference source :: chain sources depth next tally
  | _, _, _ => []

/-- Settling evaluates the chain and nothing else. -/
theorem tally_settle (sources : Sources) (depth : Nat) (reference : EntityRef)
    (tally : Tally) :
    (reference.settle sources depth tally).2 =
      tally.recordAll (reference.chain sources depth tally) := by
  induction depth generalizing reference tally with
  | zero => cases reference <;> rfl
  | succ depth induction =>
      cases reference with
      | name | schema => rfl
      | deferred source =>
          rw [settle, chain]
          exact induction _ _

end EntityRef

/-! ## Tasks -/

/-- Something that schemas leave to be evaluated. -/
inductive Task where
  | base (entity : String) (reference : EntityRef)
  | target (place : Place) (reference : EntityRef)
  | mapping (place : Place) (source : Nat)
  deriving DecidableEq

namespace Task

/-- The place whose target is looked up. -/
def target? : Task → Option Place
  | .target place _ => some place
  | _ => none

/-- What a task evaluates. -/
def evaluations (directory : Directory) (tally : Tally) : Task → List Evaluation
  | .base _ reference | .target _ reference =>
    reference.chain directory.sources directory.depth tally
  | .mapping _ source => [.mapping source]

/-- What some tasks evaluate, one after the other. -/
def evaluationsOfAll (directory : Directory) :
    List Task → Tally → List Evaluation
  | [], _ => []
  | task :: rest, tally =>
    let made := task.evaluations directory tally
    made ++ evaluationsOfAll directory rest (tally.recordAll made)

end Task

/-- The task of a target that is not known. -/
def Target.task? (place : Place) (target : Target) : Option Task :=
  if target.entity.isSome then none else some (.target place target.declared)

/-- The task that the declaration of a property leaves. -/
def Property.task? (property : Property) : Option Task :=
  match property.nature with
  | .scalar _ => none
  | .enumeration part =>
    match part.declared with
    | .literal _ => none
    | .deferred source => some (.mapping property.origin source)
  | .embedded part => some (.target property.origin part.target.declared)
  | .relation part => some (.target property.origin part.target.declared)

/-- The task that a schema leaves for its base. -/
def Schema.baseTask? (schema : Schema) : Option Task :=
  schema.base.map (.base schema.name)

/-! ## Requests -/

namespace Findings

variable (directory : Directory)

/-- Do what a request demands.  A target that is known is not looked up. -/
def answer (findings : Findings) : Task → Findings
  | .base _ reference =>
    { findings with tally := (directory.lookUp reference findings.tally).2 }
  | .target place reference =>
    (findings.force directory place ⟨reference, none⟩).2
  | .mapping _ source =>
    { findings with tally := findings.tally.record (.mapping source) }

/-- Do what some requests demand, one after the other. -/
def answerAll (findings : Findings) (requests : List Task) : Findings :=
  requests.foldl (answer directory) findings

/-- The first request for every target that is not known yet leads to an
entity. -/
def FirstAnswered (findings : Findings) (requests : List Task) : Prop :=
  ∀ before place reference after,
    requests = before ++ .target place reference :: after →
      findings.target? place = none →
      (∀ other, .target place other ∉ before) →
        ∃ entity, ((findings.answerAll directory before).force directory place
          ⟨reference, none⟩).1 = .ok entity

variable {directory} {findings : Findings}

theorem answerAll_append (first second : List Task) :
    findings.answerAll directory (first ++ second) =
      (findings.answerAll directory first).answerAll directory second :=
  List.foldl_append ..

/-- Asking for the target of a property is to demand its task. -/
theorem answerAll_task? (findings : Findings) (place : Place)
    (target : Target) :
    (findings.force directory place target).2 =
      findings.answerAll directory (target.task? place).toList := by
  rcases target with ⟨reference, known⟩
  cases known with
  | some entity => rfl
  | none => rfl

end Findings

/-! ## First requests -/

namespace Task

/-- The requests without those for a target that is known or was asked for
before. -/
def firsts : List Place → List Task → List Task
  | _, [] => []
  | known, .target place reference :: rest =>
    if place ∈ known then firsts known rest
    else .target place reference :: firsts (place :: known) rest
  | known, .base entity reference :: rest =>
    .base entity reference :: firsts known rest
  | known, .mapping place source :: rest =>
    .mapping place source :: firsts known rest

theorem sublist_firsts (known : List Place) (requests : List Task) :
    (firsts known requests).Sublist requests := by
  fun_induction firsts known requests with
  | case1 => exact List.Sublist.slnil
  | case2 known place reference rest _ induction => exact induction.cons _
  | case3 known place reference rest _ induction => exact induction.cons_cons _
  | case4 known entity reference rest induction => exact induction.cons_cons _
  | case5 known place source rest induction => exact induction.cons_cons _

/-- A request for no target is among the first ones. -/
theorem mem_firsts_of_target?_eq_none {known : List Place}
    {requests : List Task} {task : Task} (member : task ∈ requests)
    (plain : task.target? = none) : task ∈ firsts known requests := by
  fun_induction firsts known requests with
  | case1 => cases member
  | case2 known place reference rest _ induction =>
      rcases List.mem_cons.mp member with rfl | later
      · cases plain
      · exact induction later
  | case3 known place reference rest _ induction =>
      rcases List.mem_cons.mp member with rfl | later
      · cases plain
      · exact List.mem_cons_of_mem _ (induction later)
  | case4 known entity reference rest induction
  | case5 known place source rest induction =>
      rcases List.mem_cons.mp member with rfl | later
      · exact List.mem_cons_self ..
      · exact List.mem_cons_of_mem _ (induction later)

/-- For every target that is asked for and not known there is a first
request. -/
theorem exists_target_mem_firsts {known : List Place} {requests : List Task}
    {place : Place} {reference : EntityRef}
    (member : .target place reference ∈ requests) (fresh : place ∉ known) :
    ∃ first, .target place first ∈ firsts known requests := by
  fun_induction firsts known requests with
  | case1 => cases member
  | case2 known asked other rest here induction =>
      rcases List.mem_cons.mp member with same | later
      · cases same
        exact absurd here fresh
      · exact induction later fresh
  | case3 known asked other rest _ induction =>
      by_cases same : asked = place
      · exact ⟨other, same ▸ List.mem_cons_self ..⟩
      · rcases List.mem_cons.mp member with here | later
        · cases here
          exact absurd rfl same
        · rcases induction later (fun inside =>
            (List.mem_cons.mp inside).elim (fun here => same here.symm) fresh)
            with ⟨first, found⟩
          exact ⟨first, List.mem_cons_of_mem _ found⟩
  | case4 known entity other rest induction
  | case5 known asked source rest induction =>
      rcases List.mem_cons.mp member with same | later
      · cases same
      · rcases induction later fresh with ⟨first, found⟩
        exact ⟨first, List.mem_cons_of_mem _ found⟩

/-- A known target has no first request. -/
theorem target_not_mem_firsts {known : List Place} {requests : List Task}
    {place : Place} {reference : EntityRef} (inside : place ∈ known) :
    .target place reference ∉ firsts known requests := by
  fun_induction firsts known requests with
  | case1 => exact List.not_mem_nil
  | case2 known asked other rest _ induction => exact induction inside
  | case3 known asked other rest fresh induction =>
      intro member
      rcases List.mem_cons.mp member with same | later
      · cases same
        exact fresh inside
      · exact induction (List.mem_cons_of_mem _ inside) later
  | case4 known entity other rest induction
  | case5 known asked source rest induction =>
      intro member
      rcases List.mem_cons.mp member with same | later
      · cases same
      · exact induction inside later

/-- No request comes first twice, if those for no target are made once. -/
theorem nodup_firsts (known : List Place) {requests : List Task}
    (once : (requests.filter (·.target?.isNone)).Nodup) :
    (firsts known requests).Nodup := by
  fun_induction firsts known requests with
  | case1 => exact List.nodup_nil
  | case2 known asked other rest _ induction => exact induction once
  | case3 known asked other rest _ induction =>
      exact List.nodup_cons.mpr
        ⟨target_not_mem_firsts (List.mem_cons_self ..), induction once⟩
  | case4 known entity other rest induction
  | case5 known asked source rest induction =>
      rcases List.nodup_cons.mp once with ⟨fresh, later⟩
      refine List.nodup_cons.mpr ⟨fun again => fresh ?_, induction later⟩
      exact List.mem_filter.mpr ⟨(sublist_firsts ..).subset again, rfl⟩

end Task

namespace Findings

variable {directory : Directory} {findings : Findings}

/-- A target that is not known is looked up. -/
theorem force_of_target?_eq_none {place : Place}
    (unknown : findings.target? place = none) (reference : EntityRef) :
    findings.force directory place ⟨reference, none⟩ =
      match (directory.lookUp reference findings.tally).1 with
      | .ok entity =>
        (.ok entity, { findings with
          tally := (directory.lookUp reference findings.tally).2 }.keep place
            entity)
      | .error miss =>
        (.error miss, { findings with
          tally := (directory.lookUp reference findings.tally).2 }) := by
  rw [force, unknown]
  rfl

/-- A request that is not for a known target evaluates what its task does. -/
theorem tally_answer {task : Task}
    (fresh : ∀ place, task.target? = some place →
      findings.target? place = none) :
    (findings.answer directory task).tally =
      findings.tally.recordAll
        (task.evaluations directory findings.tally) := by
  cases task with
  | base entity reference => exact EntityRef.tally_settle ..
  | mapping place source => rfl
  | target place reference =>
      rw [answer, force_of_target?_eq_none (fresh place rfl)]
      refine Eq.trans ?_ (EntityRef.tally_settle ..)
      split <;> rfl

/-- A request is answered, if it is for a target that is not known yet. -/
def Answers (directory : Directory) (findings : Findings) : Task → Prop
  | .target place reference => findings.target? place = none →
    ∃ entity, (findings.force directory place ⟨reference, none⟩).1 = .ok entity
  | _ => True

/-- After a request that is answered its target is known, and no other one that
was not. -/
theorem target?_answer_eq_none_iff {task : Task}
    (answers : findings.Answers directory task) {place : Place} :
    (findings.answer directory task).target? place = none ↔
      findings.target? place = none ∧ task.target? ≠ some place := by
  cases task with
  | base | mapping => exact (and_iff_left nofun).symm
  | target asked reference =>
      change _ ↔ _ ∧ some asked ≠ some place
      rw [Ne, Option.some.injEq]
      cases known : findings.target? asked with
      | some entity =>
          have same : findings.answer directory (.target asked reference) =
              findings := by
            rw [answer, force_of_target? known]
          rw [same]
          refine (and_iff_left_of_imp fun unknown here => ?_).symm
          rw [← here, known] at unknown
          cases unknown
      | none =>
          rcases answers known with ⟨entity, found⟩
          rw [force_of_target?_eq_none known] at found
          rw [answer, force_of_target?_eq_none known]
          cases looked : (directory.lookUp reference findings.tally).1 with
          | error miss =>
              rw [looked] at found
              cases found
          | ok entity =>
              dsimp only
              rw [target?_keep]
              split
              · rename_i here
                exact iff_of_false nofun fun fresh => fresh.2 here
              · rename_i apart
                exact (and_iff_left apart).symm

namespace FirstAnswered

variable {task : Task} {rest : List Task}

theorem head (answered : findings.FirstAnswered directory (task :: rest)) :
    findings.Answers directory task := by
  cases task with
  | base | mapping => trivial
  | target place reference =>
      intro unknown
      exact answered [] place reference rest rfl unknown
        fun _ => List.not_mem_nil

theorem tail (answered : findings.FirstAnswered directory (task :: rest)) :
    (findings.answer directory task).FirstAnswered directory rest := by
  rintro before place reference after rfl unknown first
  rw [target?_answer_eq_none_iff answered.head] at unknown
  refine answered (task :: before) place reference after rfl unknown.1
    fun other member => ?_
  rcases List.mem_cons.mp member with rfl | earlier
  · exact unknown.2 rfl
  · exact first other earlier

/-- Answered are the first requests of a list if the first of all is, and then
those that are left. -/
theorem cons_iff :
    findings.FirstAnswered directory (task :: rest) ↔
      findings.Answers directory task ∧
        (findings.answer directory task).FirstAnswered directory rest := by
  refine ⟨fun answered => ⟨answered.head, answered.tail⟩, ?_⟩
  rintro ⟨head, tail⟩ before place reference after split unknown first
  cases before with
  | nil =>
      cases split
      exact head unknown
  | cons earlier before =>
      cases split
      refine tail before place reference after rfl ?_
        fun other member => first other (List.mem_cons_of_mem _ member)
      refine (target?_answer_eq_none_iff head).mpr ⟨unknown, fun same => ?_⟩
      cases task with
      | base | mapping => cases same
      | target asked other =>
          cases same
          exact first other (List.mem_cons_self ..)

end FirstAnswered

instance : (task : Task) → Decidable (findings.Answers directory task)
  | .base _ _ | .mapping _ _ => .isTrue trivial
  | .target place reference =>
    match answer : (findings.force directory place ⟨reference, none⟩).1 with
    | .ok entity => .isTrue fun _ => ⟨entity, answer⟩
    | .error _ =>
      if unknown : findings.target? place = none then
        .isFalse fun answers => by
          rcases answers unknown with ⟨entity, found⟩
          rw [answer] at found
          cases found
      else .isTrue fun fresh => absurd fresh unknown

/-- Whether first requests are answered is found out by making them. -/
def decideFirstAnswered (directory : Directory) :
    (findings : Findings) → (requests : List Task) →
      Decidable (findings.FirstAnswered directory requests)
  | _, [] => .isTrue fun _ _ _ _ split => by simp at split
  | findings, task :: rest =>
    have := decideFirstAnswered directory (findings.answer directory task) rest
    decidable_of_iff _ FirstAnswered.cons_iff.symm

instance (requests : List Task) :
    Decidable (findings.FirstAnswered directory requests) :=
  decideFirstAnswered directory findings requests

/-- What a request evaluates comes first, and then what the others do. -/
theorem tally_answerAll_cons {task : Task} {rest others : List Task}
    (fresh : ∀ place, task.target? = some place →
      findings.target? place = none)
    (onward : ((findings.answer directory task).answerAll directory rest).tally =
      (findings.answer directory task).tally.recordAll
        (Task.evaluationsOfAll directory others
          (findings.answer directory task).tally)) :
    (findings.answerAll directory (task :: rest)).tally =
      findings.tally.recordAll
        (Task.evaluationsOfAll directory (task :: others) findings.tally) := by
  rw [tally_answer fresh] at onward
  rw [Task.evaluationsOfAll, Tally.recordAll_append]
  exact onward

/-- Where the first request for every target is answered, what is evaluated is
what the first requests evaluate. -/
theorem tally_answerAll {requests : List Task} {known : List Place}
    (answered : findings.FirstAnswered directory requests)
    (knows : ∀ place, place ∉ known ↔ findings.target? place = none) :
    (findings.answerAll directory requests).tally =
      findings.tally.recordAll
        (Task.evaluationsOfAll directory (Task.firsts known requests)
          findings.tally) := by
  fun_induction Task.firsts known requests generalizing findings with
  | case1 => rfl
  | case2 known asked reference rest inside induction =>
      cases found : findings.target? asked with
      | none => exact absurd inside ((knows asked).mpr found)
      | some entity =>
          have same : findings.answer directory (.target asked reference) =
              findings := by
            rw [answer, force_of_target? found]
          have onward := answered.tail
          rw [same] at onward
          rw [← induction onward knows, answerAll, List.foldl_cons, same]
          rfl
  | case3 known asked reference rest outside induction =>
      refine tally_answerAll_cons ?_ (induction answered.tail fun place => ?_)
      · rintro place ⟨⟩
        exact (knows asked).mp outside
      · rw [target?_answer_eq_none_iff answered.head, ← knows, List.mem_cons,
          not_or, and_comm]
        refine and_congr_right fun _ => not_congr ?_
        exact ⟨fun same => congrArg some same.symm,
          fun same => (Option.some.inj same).symm⟩
  | case4 known entity reference rest induction
  | case5 known place source rest induction =>
      refine tally_answerAll_cons nofun
        (induction answered.tail fun place => ?_)
      rw [target?_answer_eq_none_iff answered.head, ← knows]
      exact (and_iff_left nofun).symm

end Findings

end EntityCatalog
