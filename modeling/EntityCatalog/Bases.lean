import EntityCatalog.Reference.Directory
import EntityCatalog.Schema.Basic

/-!
# Bases

Linking the bases of all schemas looks every base up and then breaks every
cycle.  A cycle is found by climbing from an entity until a base comes up a
second time; it is broken by taking the base away from the entity whose base
that is.
-/

namespace EntityCatalog

/-- The names of bases by entity, of the entities that have one. -/
abbrev Bases := Table (Prod.fst : String × String → String)

namespace Bases

/-- The base of an entity. -/
def base? (bases : Bases) (entity : String) : Option String :=
  (bases.find? entity).map Prod.snd

end Bases

/-! ## Cycles -/

/-- A chain of bases that leads back to its start. -/
structure Cycle where
  start : String
  between : List String
  deriving DecidableEq, Repr

namespace Cycle

/-- The members of the cycle, each once, every one before its base. -/
def members (cycle : Cycle) : List String :=
  cycle.start :: cycle.between

/-- The member whose base is the start. -/
def closing (cycle : Cycle) : String :=
  cycle.members.getLast (by simp [members])

theorem closing_mem_members (cycle : Cycle) :
    cycle.closing ∈ cycle.members :=
  List.getLast_mem _

/-- The cycle as a defect. -/
def defect (cycle : Cycle) : Defect :=
  .inheritanceCycle cycle.start (cycle.members ++ [cycle.start])

end Cycle

namespace Bases

/-- Climb from an entity until a base comes up again; `below` are the entities
that were climbed from before, nearest first. -/
def climb (base : String → Option String) :
    Nat → String → List String → Option Cycle
  | 0, _, _ => none
  | steps + 1, entity, below =>
    match base entity with
    | none => none
    | some next =>
      if next ∈ entity :: below then
        some ⟨next, ((entity :: below).takeWhile (· ≠ next)).reverse⟩
      else climb base steps next (entity :: below)

/-- The cycle that climbing from an entity runs into.  A climb without one
visits an entity with base at every step but the last. -/
def cycle? (bases : Bases) (entity : String) : Option Cycle :=
  climb bases.base? (bases.size + 1) entity []

/-- Break the cycles that climbing from some entities in turn runs into. -/
def breakCycles (bases : Bases) : List String → Bases × List Cycle
  | [] => (bases, [])
  | entity :: rest =>
    match bases.cycle? entity with
    | none => bases.breakCycles rest
    | some cycle =>
      let (broken, cycles) := breakCycles (bases.erase cycle.closing) rest
      (broken, cycle :: cycles)

/-! ## Linking -/

/-- Look up the bases that schemas declare. -/
def answers (directory : Directory) :
    List Schema → Tally → List (String × Except Miss String) × Tally
  | [], tally => ([], tally)
  | schema :: rest, tally =>
    match schema.base with
    | none => answers directory rest tally
    | some reference =>
      let (answer, tally) := directory.lookUp reference tally
      let (later, tally) := answers directory rest tally
      ((schema.name, answer) :: later, tally)

/-- The bases that were found. -/
def found (answers : List (String × Except Miss String)) : Bases :=
  .ofList (answers.filterMap fun (entity, answer) =>
    answer.toOption.map fun base => (entity, base))

/-- What is wrong with the bases that were not found. -/
def missed (answers : List (String × Except Miss String)) : List Defect :=
  answers.filterMap fun (entity, answer) =>
    match answer with
    | .ok _ => none
    | .error miss => some (miss.baseDefect entity)

/-- Linked bases. -/
structure Linked where
  bases : Bases
  defects : List Defect
  tally : Tally

/-- Link the bases that schemas declare. -/
def link (directory : Directory) (schemas : List Schema) (tally : Tally) :
    Linked :=
  let (answers, tally) := answers directory schemas tally
  let (bases, cycles) := (found answers).breakCycles (schemas.map Schema.name)
  { bases := bases
    defects := missed answers ++ cycles.map Cycle.defect
    tally := tally }

end Bases

end EntityCatalog
