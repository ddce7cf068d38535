import EntityCatalog.Defect
import EntityCatalog.Reference.Basic

/-!
# Looking up what references mean

A directory knows the registered names, what deferred references answer and
how many of them are followed in a row.  Looking up a reference gives the
registered name on which it settles; otherwise it does not settle in time, or
it settles on a name that nobody registered.
-/

namespace EntityCatalog

/-- Why a reference means no entity. -/
inductive Miss where
  | unsettled (evaluations : Nat)
  | unknown (name : String)
  deriving DecidableEq, Repr

/-- The defect of a property whose target is missed. -/
def Miss.targetDefect (place : Place) : Miss → Defect
  | .unsettled evaluations => .unsettledReference place evaluations
  | .unknown name => .unknownEntity place name

/-- The defect of an entity whose base is missed. -/
def Miss.baseDefect (entity : String) : Miss → Defect
  | .unsettled evaluations =>
    .unsettledReference ⟨entity, "extends"⟩ evaluations
  | .unknown name => .unknownBase entity name

/-- Where references are looked up. -/
structure Directory where
  sources : Sources
  /-- How many deferred references are followed in a row. -/
  depth : Nat
  names : List String

namespace Directory

/-- The meaning of the name on which a reference settles. -/
def judge (directory : Directory) : Option String → Except Miss String
  | none => .error (.unsettled directory.depth)
  | some name =>
    if name ∈ directory.names then .ok name else .error (.unknown name)

/-- Look up a reference. -/
def lookUp (directory : Directory) (reference : EntityRef) (tally : Tally) :
    Except Miss String × Tally :=
  let (settled, tally) :=
    reference.settle directory.sources directory.depth tally
  (directory.judge settled, tally)

/-- What is looked up successfully is registered. -/
theorem mem_names_of_lookUp {directory : Directory} {reference : EntityRef}
    {tally : Tally} {name : String}
    (found : (directory.lookUp reference tally).1 = .ok name) :
    name ∈ directory.names := by
  simp only [lookUp] at found
  cases settled : (reference.settle directory.sources directory.depth tally).1 with
  | none => simp [settled, judge] at found
  | some other =>
    simp only [settled, judge] at found
    split at found
    · rename_i member
      cases found
      exact member
    · cases found

end Directory

end EntityCatalog
