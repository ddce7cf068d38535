import EntityCatalog.Reference.Directory
import EntityCatalog.Property.Basic

/-!
# What a resolution has found out

A target is looked up when it is first asked for, and what was found is kept
under the place of the declaration, so all copies of an inherited property
share it.  A miss is not kept: whoever asks next looks the target up again.
-/

namespace EntityCatalog

/-- What has been found out so far. -/
structure Findings where
  tally : Tally
  /-- The targets that were found, by the place of the declaration. -/
  targets : Table (Prod.fst : Place × String → Place) := .empty

namespace Findings

/-- The target of a declaration, if it was found. -/
def target? (findings : Findings) (place : Place) : Option String :=
  (findings.targets.find? place).map Prod.snd

/-- Keep a target that was found. -/
def keep (findings : Findings) (place : Place) (entity : String) : Findings :=
  { findings with targets := findings.targets.insert (place, entity) }

/-- After keeping a target it is known, and so is every other one that was. -/
@[simp]
theorem target?_keep (findings : Findings) (place asked : Place)
    (entity : String) :
    (findings.keep place entity).target? asked =
      if place = asked then some entity else findings.target? asked := by
  simp only [target?, keep, Table.find?_insert]
  split <;> rfl

/-- The entity that a target means: the one it already has, else the one found
before, else the one that looking it up finds. -/
def force (findings : Findings) (directory : Directory) (place : Place)
    (target : Target) : Except Miss String × Findings :=
  match target.entity <|> findings.target? place with
  | some entity => (.ok entity, findings)
  | none =>
    let (answer, tally) := directory.lookUp target.declared findings.tally
    let evaluated := { findings with tally := tally }
    match answer with
    | .ok entity => (.ok entity, evaluated.keep place entity)
    | .error miss => (.error miss, evaluated)

/-- A target that was found is not looked up again. -/
theorem force_of_target? {findings : Findings} {place : Place}
    {entity : String} (known : findings.target? place = some entity)
    (directory : Directory) (declared : EntityRef) :
    findings.force directory place ⟨declared, none⟩ = (.ok entity, findings) := by
  simp [force, known]

end Findings

end EntityCatalog
