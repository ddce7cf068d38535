import EntityCatalog.Proofs.Reference.Tasks
import EntityCatalog.Proofs.Relation.Run

/-!
# What pairing asks for

Pairing asks for the target of each relation that it does not leave alone, and
then for the targets of the properties that could be its other side.  These
requests, in their order, are all that it does to what is found out
(`Scope.findings_run`), and each is the task of a relation that some entity
holds (`Scope.asks_of_mem_requests`).
-/

namespace EntityCatalog.Pairing.Scope

variable (scope : Scope)

/-! ## Requests for one relation -/

/-- The request for the target of a possible other side. -/
def requestFor (property : Property) (relation : Relation) : List Task :=
  if property.origin ∈ scope.invalid then []
  else (relation.target.task? property.origin).toList

/-- The request for the target of the other side that a hint names. -/
def requestsOfHint (side : Side) (target : Entity) (name : String) :
    List Task :=
  match target.property? name with
  | none => []
  | some other =>
    match other.relation? with
    | none => []
    | some relation =>
      if relation.kind = side.relation.kind.reciprocal then
        scope.requestFor other relation
      else []

/-- The requests for the targets of properties that could be the other side. -/
def requestsOfCandidates (side : Side) (target : Entity)
    (properties : List Property) : List Task :=
  properties.flatMap fun other =>
    match other.relation? with
    | none => []
    | some relation =>
      if relation.kind = side.relation.kind ∧
          target.place other ≠ side.place then
        scope.requestFor other relation
      else []

/-- The requests that pairing a relation with its target makes. -/
def requestsOfPair (side : Side) (target : Entity) : List Task :=
  match side.relation.sides.mappedBy, side.relation.sides.inversedBy with
  | some name, _ => scope.requestsOfHint side target name
  | none, some name => scope.requestsOfHint side target name
  | none, none =>
    match side.relation.kind with
    | .manyToOne | .oneToMany => []
    | .oneToOne | .manyToMany =>
      scope.requestsOfCandidates side target target.properties.items

/-- The requests that are made for the next relation. -/
def requestsOfStep (progress : Progress) (side : Side) : List Task :=
  if scope.skips progress side then []
  else
    (side.relation.target.task? side.property.origin).toList ++
      match (progress.findings.force scope.directory side.property.origin
          side.relation.target).1 with
      | .error _ => []
      | .ok name =>
        (scope.entities.find? name).elim [] (scope.requestsOfPair side)

/-- The requests that are made for some relations, one after the other. -/
def requests : Progress → List Side → List Task
  | _, [] => []
  | progress, side :: rest =>
    scope.requestsOfStep progress side ++
      requests (scope.step progress side) rest

variable {scope}

/-! ## What requests do -/

variable {side : Side} {target : Entity} {findings : Findings}
  {progress : Progress}

theorem findings_targetOf (property : Property) (relation : Relation) :
    (scope.targetOf property relation findings).2 =
      findings.answerAll scope.directory
        (scope.requestFor property relation) := by
  rw [targetOf, requestFor]
  split
  · rfl
  · exact Findings.answerAll_task? ..

theorem findings_follow (hint : Hint) (name : String) :
    (scope.follow side target hint name findings).2 =
      findings.answerAll scope.directory
        (scope.requestsOfHint side target name) := by
  rw [follow, requestsOfHint]
  cases target.property? name with
  | none =>
      dsimp only
      split <;> rfl
  | some other =>
      dsimp only
      cases other.relation? with
      | none => rfl
      | some relation =>
          dsimp only
          split
          · rw [← findings_targetOf]
            rcases scope.targetOf other relation findings with ⟨found, after⟩
            cases found with
            | none => rfl
            | some name =>
                dsimp only
                split <;> rfl
          · rfl

theorem findings_pairHinted (hint : Hint) (name : String) :
    (scope.pairHinted side target hint name findings).2 =
      findings.answerAll scope.directory
        (scope.requestsOfHint side target name) := by
  rw [← findings_follow hint, pairHinted]
  rcases scope.follow side target hint name findings with ⟨hinted, after⟩
  cases hinted with
  | silent | failure => rfl
  | found other =>
      dsimp only
      split <;> rfl

theorem findings_candidates (properties : List Property) :
    (scope.candidates side target properties findings).2 =
      findings.answerAll scope.directory
        (scope.requestsOfCandidates side target properties) := by
  induction properties generalizing findings with
  | nil => rfl
  | cons other rest induction =>
      rw [candidates, requestsOfCandidates, List.flatMap_cons,
        ← requestsOfCandidates, Findings.answerAll_append]
      cases other.relation? with
      | none => exact induction
      | some relation =>
          dsimp only
          split
          · rw [← findings_targetOf, ← induction]
            split <;> rfl
          · exact induction

theorem findings_pair :
    (scope.pair side target findings).2 =
      findings.answerAll scope.directory
        (scope.requestsOfPair side target) := by
  rw [pair, requestsOfPair]
  cases side.relation.sides.mappedBy with
  | some name => exact findings_pairHinted ..
  | none =>
      cases side.relation.sides.inversedBy with
      | some name => exact findings_pairHinted ..
      | none =>
          cases side.relation.kind with
          | manyToOne | oneToMany => rfl
          | oneToOne | manyToMany => exact findings_candidates _

theorem findings_step :
    (scope.step progress side).findings =
      progress.findings.answerAll scope.directory
        (scope.requestsOfStep progress side) := by
  rw [step, requestsOfStep]
  split
  · rfl
  · rw [Findings.answerAll_append, ← Findings.answerAll_task?]
    rcases progress.findings.force scope.directory side.property.origin
      side.relation.target with ⟨answer, after⟩
    cases answer with
    | error miss => rfl
    | ok name =>
        dsimp only
        cases scope.entities.find? name with
        | none => rfl
        | some target => exact findings_pair

/-- Whatever is paired, what is found out is what the requests find. -/
theorem findings_foldl (sides : List Side) :
    (sides.foldl scope.step progress).findings =
      progress.findings.answerAll scope.directory
        (scope.requests progress sides) := by
  induction sides generalizing progress with
  | nil => rfl
  | cons side rest induction =>
      rw [List.foldl_cons, induction, requests, Findings.answerAll_append,
        findings_step]

theorem findings_run :
    (scope.run findings).findings =
      findings.answerAll scope.directory
        (scope.requests { findings := findings } scope.sides) :=
  findings_foldl _

/-! ## Where requests come from -/

/-- A task is that of the target of a relation that some entity holds. -/
def Asks (scope : Scope) (task : Task) : Prop :=
  ∃ place property relation, scope.entities.property? place = some property ∧
    property.relation? = some relation ∧
    relation.target.task? property.origin = some task

theorem asks_of_mem_requestFor {place : Place} {property : Property}
    {relation : Relation}
    (held : scope.entities.property? place = some property)
    (related : property.relation? = some relation) {task : Task}
    (member : task ∈ scope.requestFor property relation) :
    scope.Asks task := by
  unfold requestFor at member
  split at member
  · cases member
  · exact ⟨place, property, relation, held, related,
      Option.mem_toList.mp member⟩

variable {task : Task}
  (registered : scope.entities.find? target.name = some target)

include registered

theorem asks_of_mem_requestsOfHint {name : String}
    (member : task ∈ scope.requestsOfHint side target name) :
    scope.Asks task := by
  unfold requestsOfHint at member
  split at member
  · cases member
  · rename_i other found
    split at member
    · cases member
    · rename_i relation related
      split at member
      · have held : scope.entities.property? ⟨target.name, name⟩ =
            some other := by
          rw [Entities.property?, registered]
          exact found
        exact asks_of_mem_requestFor held related member
      · cases member

theorem asks_of_mem_requestsOfCandidates
    (member : task ∈ scope.requestsOfCandidates side target
      target.properties.items) :
    scope.Asks task := by
  rcases List.mem_flatMap.mp member with ⟨other, holds, inside⟩
  split at inside
  · cases inside
  · rename_i relation related
    split at inside
    · exact asks_of_mem_requestFor (Entities.property?_of_mem
        (Table.find?_eq_some registered).1 holds) related inside
    · cases inside

theorem asks_of_mem_requestsOfPair
    (member : task ∈ scope.requestsOfPair side target) : scope.Asks task := by
  unfold requestsOfPair at member
  split at member
  · exact asks_of_mem_requestsOfHint registered member
  · exact asks_of_mem_requestsOfHint registered member
  · split at member
    · cases member
    · cases member
    · exact asks_of_mem_requestsOfCandidates registered member
    · exact asks_of_mem_requestsOfCandidates registered member

omit registered

theorem asks_of_mem_requestsOfStep (held : side.Held scope.entities)
    (member : task ∈ scope.requestsOfStep progress side) :
    scope.Asks task := by
  unfold requestsOfStep at member
  split at member
  · cases member
  · rcases List.mem_append.mp member with own | later
    · exact ⟨side.place, side.property, side.relation, held.property,
        held.relation, Option.mem_toList.mp own⟩
    · split at later
      · cases later
      · rename_i name answered
        cases found : scope.entities.find? name with
        | none =>
            rw [found] at later
            cases later
        | some target =>
            rw [found] at later
            rcases (Table.find?_eq_some found).2 with rfl
            exact asks_of_mem_requestsOfPair found later

/-- Pairing asks for nothing but the targets of relations that are held. -/
theorem asks_of_mem_requests {sides : List Side}
    (held : ∀ side ∈ sides, side.Held scope.entities)
    (member : task ∈ scope.requests progress sides) : scope.Asks task := by
  induction sides generalizing progress with
  | nil => cases member
  | cons side rest induction =>
      rcases List.mem_append.mp member with first | later
      · exact asks_of_mem_requestsOfStep (held side (List.mem_cons_self ..))
          first
      · exact induction
          (fun other inside => held other (List.mem_cons_of_mem _ inside)) later

end EntityCatalog.Pairing.Scope
