import EntityCatalog.Reference.Findings
import EntityCatalog.Proofs.Table.Lookups

/-!
# Steady sources

Deferred references that answer the same on every evaluation (`Steady`) can be
read without counting evaluations: `Directory.meaning` is what looking a
reference up then always finds.  What a resolution keeps of earlier look-ups
agrees with it (`Findings.Faithful`), so forcing a target gives its meaning,
no matter who asked before.
-/

namespace EntityCatalog

/-- Deferred references answer the same on every evaluation. -/
def Sources.Steady (sources : Sources) : Prop :=
  ∀ source evaluation,
    sources.reference source evaluation = sources.reference source 0

/-! ## Evaluations of enums -/

namespace Tally

/-- Both tallies count the same evaluations of enums. -/
def SameMappings (left right : Tally) : Prop :=
  ∀ source, left.count (.mapping source) = right.count (.mapping source)

namespace SameMappings

theorem refl (tally : Tally) : tally.SameMappings tally :=
  fun _ => rfl

theorem trans {first second third : Tally}
    (left : first.SameMappings second) (right : second.SameMappings third) :
    first.SameMappings third :=
  fun source => (left source).trans (right source)

/-- Recording the same evaluation on both sides changes nothing. -/
theorem record {left right : Tally} (same : left.SameMappings right)
    (evaluation : Evaluation) :
    (left.record evaluation).SameMappings (right.record evaluation) := by
  intro source
  rw [count_record, count_record, same source]

end SameMappings

theorem sameMappings_record (tally : Tally) (source : Nat) :
    tally.SameMappings (tally.record (.reference source)) := by
  intro asked
  rw [count_record, if_neg (by simp), Nat.add_zero]

end Tally

theorem EntityRef.sameMappings_settle (sources : Sources) (depth : Nat)
    (reference : EntityRef) (tally : Tally) :
    tally.SameMappings (reference.settle sources depth tally).2 := by
  induction depth generalizing reference tally with
  | zero => cases reference <;> exact .refl tally
  | succ depth induction =>
      cases reference with
      | name | schema => exact .refl tally
      | deferred source =>
          rw [settle, Sources.evaluateReference]
          exact (tally.sameMappings_record source).trans (induction _ _)

theorem Directory.sameMappings_lookUp (directory : Directory)
    (reference : EntityRef) (tally : Tally) :
    tally.SameMappings (directory.lookUp reference tally).2 :=
  EntityRef.sameMappings_settle _ _ reference tally

/-! ## Look-ups without a tally -/

/-- The name on which a reference settles through the first answers of at most
`depth` deferred references. -/
def EntityRef.destination (sources : Sources) :
    Nat → EntityRef → Option String
  | _, .name entity => some entity
  | _, .schema entity => some entity
  | 0, .deferred _ => none
  | depth + 1, .deferred source =>
    destination sources depth (sources.reference source 0)

theorem EntityRef.settle_fst {sources : Sources} (steady : sources.Steady)
    (depth : Nat) (reference : EntityRef) (tally : Tally) :
    (reference.settle sources depth tally).1 =
      reference.destination sources depth := by
  induction depth generalizing reference tally with
  | zero => cases reference <;> rfl
  | succ depth induction =>
      cases reference with
      | name | schema => rfl
      | deferred source =>
          rw [settle, destination, Sources.evaluateReference, induction,
            steady source]

/-- Only an answer has a value. -/
theorem toOption_eq_some_iff {Error Value : Type}
    {answer : Except Error Value} {value : Value} :
    answer.toOption = some value ↔ answer = .ok value := by
  cases answer <;> simp [Except.toOption]

namespace Directory

/-- What looking up a reference finds on the first evaluation of all deferred
references. -/
def meaning (directory : Directory) (reference : EntityRef) :
    Except Miss String :=
  directory.judge (reference.destination directory.sources directory.depth)

theorem meaning_name {directory : Directory} {name : String}
    (known : name ∈ directory.names) :
    directory.meaning (.name name) = .ok name := by
  rw [meaning, EntityRef.destination]
  exact if_pos known

/-- Where sources are steady, looking up a reference finds its meaning. -/
theorem lookUp_fst {directory : Directory}
    (steady : directory.sources.Steady) (reference : EntityRef)
    (tally : Tally) :
    (directory.lookUp reference tally).1 = directory.meaning reference := by
  simp only [lookUp, meaning, EntityRef.settle_fst steady]

/-- References mean registered entities. -/
theorem mem_names_of_meaning {directory : Directory} {reference : EntityRef}
    {name : String} (means : directory.meaning reference = .ok name) :
    name ∈ directory.names := by
  rw [meaning] at means
  cases settled : reference.destination directory.sources directory.depth with
  | none =>
      rw [settled] at means
      cases means
  | some other =>
      rw [settled, judge] at means
      split at means
      · rename_i member
        cases means
        exact member
      · cases means

end Directory

/-! ## Findings that agree with the look-ups -/

namespace Findings

/-- What was found out since a tally, where only references were looked up. -/
structure Faithful (directory : Directory)
    (reference : Place → Option EntityRef) (start : Tally)
    (findings : Findings) : Prop where
  means : ∀ place entity, findings.target? place = some entity →
    ∃ declared, reference place = some declared ∧
      directory.meaning declared = .ok entity
  mappings : start.SameMappings findings.tally

/-- Before any look-up nothing is kept. -/
theorem faithful_of_tally (directory : Directory)
    (reference : Place → Option EntityRef) {start tally : Tally}
    (same : start.SameMappings tally) :
    Faithful directory reference start { tally := tally } where
  means := fun _ _ kept => nomatch kept
  mappings := same

theorem force_of_entity (findings : Findings) (directory : Directory)
    (place : Place) (declared : EntityRef) (entity : String) :
    findings.force directory place ⟨declared, some entity⟩ =
      (.ok entity, findings) :=
  rfl

/-- The targets kept by one stage are kept by a later one. -/
def Keeps (earlier later : Findings) : Prop :=
  ∀ place entity, earlier.target? place = some entity →
    later.target? place = some entity

theorem Keeps.refl (findings : Findings) : Keeps findings findings :=
  fun _ _ kept => kept

theorem Keeps.trans {first second third : Findings}
    (left : Keeps first second) (right : Keeps second third) :
    Keeps first third :=
  fun place entity kept => right place entity (left place entity kept)

variable {directory : Directory} {reference : Place → Option EntityRef}
  {start : Tally} {findings : Findings}

/-- An open target that was kept is not looked up again. -/
theorem force_of_kept {place : Place} {target : Target}
    (unknown : target.entity = none) {entity : String}
    (kept : findings.target? place = some entity) :
    findings.force directory place target = (.ok entity, findings) := by
  rcases target with ⟨declared, known⟩
  cases unknown
  exact force_of_target? kept directory declared

/-- An open target that was not kept is looked up; what is found is kept. -/
theorem force_of_missing {place : Place} {target : Target}
    (unknown : target.entity = none)
    (missing : findings.target? place = none) {answer : Except Miss String}
    {tally : Tally}
    (looked : directory.lookUp target.declared findings.tally =
      (answer, tally)) :
    findings.force directory place target =
      (answer, match answer with
        | .ok entity => { findings with tally := tally }.keep place entity
        | .error _ => { findings with tally := tally }) := by
  rcases target with ⟨declared, known⟩
  cases unknown
  simp only [force, missing, looked]
  cases answer <;> rfl

/-- Forcing an open target gives its meaning and keeps it. -/
theorem Faithful.force
    (faithful : Faithful directory reference start findings)
    (steady : directory.sources.Steady) {place : Place} {target : Target}
    (declared : reference place = some target.declared)
    (unknown : target.entity = none) :
    (findings.force directory place target).1 =
        directory.meaning target.declared ∧
      Faithful directory reference start
        (findings.force directory place target).2 ∧
      Keeps findings (findings.force directory place target).2 ∧
      ∀ entity, directory.meaning target.declared = .ok entity →
        (findings.force directory place target).2.target? place =
          some entity := by
  cases kept : findings.target? place with
  | some known =>
      rcases faithful.means place known kept with ⟨other, atPlace, means⟩
      rw [declared] at atPlace
      cases atPlace
      rw [force_of_kept unknown kept]
      refine ⟨means.symm, faithful, Keeps.refl findings, ?_⟩
      intro entity found
      rw [means] at found
      cases found
      exact kept
  | none =>
      have answer := Directory.lookUp_fst steady target.declared findings.tally
      have counted := faithful.mappings.trans
        (directory.sameMappings_lookUp target.declared findings.tally)
      cases looked : directory.lookUp target.declared findings.tally with
      | mk found tally =>
          rw [looked] at answer counted
          rw [force_of_missing unknown kept looked, ← answer]
          cases found with
          | error miss =>
              exact ⟨rfl, ⟨faithful.means, counted⟩, Keeps.refl findings,
                fun _ means => nomatch means⟩
          | ok entity =>
              refine ⟨rfl, ⟨?_, counted⟩, ?_, ?_⟩
              · intro asked other known
                rw [target?_keep] at known
                split at known
                · rename_i here
                  cases known
                  exact ⟨target.declared, here ▸ declared, answer.symm⟩
                · exact faithful.means asked other known
              · intro asked other known
                rw [target?_keep]
                split
                · rename_i here
                  subst here
                  rw [kept] at known
                  cases known
                · exact known
              · intro other means
                cases means
                rw [target?_keep, if_pos rfl]

end Findings

end EntityCatalog
