import EntityCatalog.Proofs.Entity.Cycles
import EntityCatalog.Proofs.Registry.Broken

/-!
# Bases of registered entities

Whatever bases the schemas of a registry declare and whatever their references
answer, linking the bases ends with bases along which every climb ends
(`Registry.untangles`).  Of every cycle among the bases that were found one
member has lost its base, and one report says so, with a chain that goes once
round.  All other bases are there, so that an ancestry is never cut off.
-/

namespace EntityCatalog

namespace Bases

/-- Names that were answered with a base come in the order of the answers. -/
theorem sublist_found (answers : List (String × Except Miss String)) :
    ((answers.filterMap fun (entity, answer) =>
        answer.toOption.map fun base => (entity, base)).map Prod.fst).Sublist
      (answers.map Prod.fst) := by
  induction answers with
  | nil => exact List.Sublist.slnil
  | cons answer rest induction =>
      rcases answer with ⟨entity, base | miss⟩
      · exact induction.cons entity
      · exact induction.cons_cons entity

/-- A name has the base that it was answered with. -/
theorem base?_found_eq_some_iff {answers : List (String × Except Miss String)}
    (distinct : (answers.map Prod.fst).Nodup) {entity next : String} :
    (found answers).base? entity = some next ↔
      (entity, .ok next) ∈ answers := by
  let entries : Bases :=
    ⟨answers.filterMap fun (entity, answer) =>
        answer.toOption.map fun base => (entity, base),
      distinct.sublist (sublist_found answers)⟩
  have lookup : (found answers).find? entity = entries.find? entity :=
    Table.find?_ofList entries.distinct entity
  rw [base?, lookup, Option.map_eq_some_iff]
  constructor
  · rintro ⟨entry, here, rfl⟩
    rcases Table.find?_eq_some here with ⟨member, rfl⟩
    rcases List.mem_filterMap.mp member with ⟨⟨name, answer⟩, given, answers⟩
    rcases Option.map_eq_some_iff.mp answers with ⟨base, ok, rfl⟩
    rw [toOption_eq_some_iff] at ok
    exact ok ▸ given
  · intro given
    refine ⟨(entity, next), Table.find?_eq_some_iff.mpr ⟨?_, rfl⟩, rfl⟩
    exact List.mem_filterMap.mpr ⟨_, given, rfl⟩

/-- At most one base is looked up for each schema. -/
theorem sublist_answers (directory : Directory) (schemas : List Schema)
    (tally : Tally) :
    ((answers directory schemas tally).1.map Prod.fst).Sublist
      (schemas.map Schema.name) := by
  induction schemas generalizing tally with
  | nil => exact List.Sublist.slnil
  | cons schema rest induction =>
      rw [answers, List.map_cons]
      cases schema.base with
      | none => exact (induction tally).cons schema.name
      | some reference => exact (induction _).cons_cons schema.name

/-- What is said of bases that were missed is not said of cycles. -/
theorem not_mem_missed {answers : List (String × Except Miss String)}
    {entity : String} {chain : List String} :
    .inheritanceCycle entity chain ∉ missed answers := by
  intro member
  rcases List.mem_filterMap.mp member with ⟨⟨name, answer⟩, -, wrong⟩
  cases answer with
  | ok base => cases wrong
  | error miss => cases miss <;> cases wrong

end Bases

namespace Cycle

/-- A report tells which cycle it is about. -/
theorem defect_injective {cycle other : Cycle}
    (same : cycle.defect = other.defect) : cycle = other := by
  rcases cycle with ⟨start, between⟩
  rcases other with ⟨first, further⟩
  injection same with starts chains
  have members := List.append_inj_left' chains rfl
  cases starts
  cases members
  rfl

end Cycle

namespace Resolution.Setting

variable (setting : Setting) (tally : Tally)

/-- The bases that schemas declare, as far as they were found. -/
def foundAt : Bases :=
  Bases.found
    (Bases.answers setting.directory setting.schemas.items tally).1

/-- What linking makes of the bases that schemas declare. -/
structure Untangles : Prop where
  /-- A climb in search of a cycle is never cut off. -/
  climbing : ∀ (bases : Bases) entity,
    Bases.Climbing bases.base? entity [] (bases.cycle? entity)
  found : ∀ entity next, (setting.foundAt tally).base? entity = some next ↔
    (entity, .ok next) ∈
      (Bases.answers setting.directory setting.schemas.items tally).1
  acyclic : ∀ entity next,
    (setting.linkedAt tally).bases.base? entity = some next →
      ¬ Descends (setting.linkedAt tally).bases.base? next entity
  /-- Of every cycle one member has lost its base. -/
  broken : ∀ round : Cycle, round.Closes (setting.foundAt tally).base? →
    ∃ lost ∈ round.members,
      (setting.linkedAt tally).bases.base? lost = none ∧
      ∀ kept ∈ round.members, kept ≠ lost →
        (setting.linkedAt tally).bases.base? kept =
          (setting.foundAt tally).base? kept
  /-- Every cycle is raised once, as a chain that goes once round. -/
  raised : ∀ round : Cycle, round.Closes (setting.foundAt tally).base? →
    ∃ (earlier : List Defect) (cycle : Cycle) (later : List Defect),
      (setting.linkedAt tally).defects = earlier ++ cycle.defect :: later ∧
      cycle.Closes (setting.foundAt tally).base? ∧
      cycle.members.Perm round.members ∧
      ∀ other : Cycle, other.defect ∈ earlier ++ later →
        other.members.Disjoint round.members
  genuine : ∀ entity chain,
    .inheritanceCycle entity chain ∈ (setting.linkedAt tally).defects →
      ∃ cycle : Cycle, cycle.Closes (setting.foundAt tally).base? ∧
        cycle.defect = .inheritanceCycle entity chain
  reported : ∀ defect ∈ (setting.linkedAt tally).defects,
    ∃ report ∈ (setting.run tally).defects, report.message = defect.message
  kept : ∀ entity,
    (∀ round : Cycle, round.Closes (setting.foundAt tally).base? →
      entity ∉ round.members) →
    (setting.linkedAt tally).bases.base? entity =
      (setting.foundAt tally).base? entity
  bases : (setting.scopeAt tally).entities.base? =
    (setting.linkedAt tally).bases.base?
  ancestry : ∀ entity ∈ setting.schemas.keys,
    Climbs (setting.linkedAt tally).bases.base? entity
        ((setting.scopeAt tally).entities.ancestry entity) ∧
      ((setting.scopeAt tally).entities.ancestry entity).Nodup

variable {setting} {tally}

/-- Linking breaks cycles among the bases that were found, and raises them after
what was missed. -/
theorem exists_breaks :
    ∃ (missed : List Defect) (cycles : List Cycle),
      (setting.linkedAt tally).defects = missed ++ cycles.map Cycle.defect ∧
      (∀ entity chain, .inheritanceCycle entity chain ∉ missed) ∧
      (setting.foundAt tally).Breaks (setting.linkedAt tally).bases cycles :=
  ⟨_, _, rfl, fun _ _ => Bases.not_mem_missed,
    Bases.breaks_breakCycles _ (setting.schemas.items.map Schema.name)⟩

theorem forest_linkedAt :
    Bases.Forest setting.schemas (setting.linkedAt tally).bases :=
  Bases.forest_link rfl tally

/-- A cycle of the bases that were found is raised once: no other chain that is
raised has a member of it. -/
theorem exists_raised {round : Cycle}
    (closes : round.Closes (setting.foundAt tally).base?) :
    ∃ (earlier : List Defect) (cycle : Cycle) (later : List Defect),
      (setting.linkedAt tally).defects = earlier ++ cycle.defect :: later ∧
      cycle.Closes (setting.foundAt tally).base? ∧
      cycle.members.Perm round.members ∧
      ∀ other : Cycle, other.defect ∈ earlier ++ later →
        other.members.Disjoint round.members := by
  rcases @exists_breaks setting tally with
    ⟨missed, cycles, defects, apart, breaks⟩
  rcases breaks.exists_cycle forest_linkedAt.rooted closes with
    ⟨earlier, cycle, later, split, same, others⟩
  refine ⟨missed ++ earlier.map Cycle.defect, cycle, later.map Cycle.defect,
    ?_, breaks.closes cycle (by simp [split]), same, fun other member => ?_⟩
  · rw [defects, split, List.map_append, List.map_cons, List.append_assoc]
  · rw [List.append_assoc, ← List.map_append] at member
    rcases List.mem_map.mp
      ((List.mem_append.mp member).resolve_left (apart _ _)) with
      ⟨found, listed, told⟩
    rw [← Cycle.defect_injective told]
    exact others found listed

end Resolution.Setting

open Resolution.Setting in
/-- Linking the bases of a registry ends, breaks every cycle and nothing else,
and raises every cycle once. -/
theorem Registry.untangles (registry : Registry) (sources : Sources)
    (tally : Tally) : (registry.setting sources).Untangles tally := by
  generalize registry.setting sources = setting
  have forest := @forest_linkedAt setting tally
  have bases : (setting.scopeAt tally).entities.base? =
      (setting.linkedAt tally).bases.base? :=
    forest.base?_ofSchemas
  rcases @exists_breaks setting tally with
    ⟨missed, cycles, defects, apart, breaks⟩
  constructor
  case climbing => exact Bases.climbing_cycle?
  case found =>
    intro entity next
    exact Bases.base?_found_eq_some_iff (setting.schemas.distinct.sublist
      (Bases.sublist_answers setting.directory setting.schemas.items tally))
  case acyclic =>
    intro entity next link
    exact (forest.rooted entity).not_descends_of_base link
  case broken =>
    intro round closes
    exact breaks.exists_lost forest.rooted closes
  case raised =>
    intro round closes
    exact exists_raised closes
  case genuine =>
    intro entity chain raised
    rw [defects] at raised
    rcases List.mem_map.mp
      ((List.mem_append.mp raised).resolve_left (apart _ _)) with
      ⟨cycle, listed, told⟩
    exact ⟨cycle, breaks.closes cycle listed, told⟩
  case reported =>
    intro defect raised
    rw [run_eq]
    have collected := mem_collected_iff.mpr (Or.inr (Or.inl raised))
    exact (@Defect.exists_mem_withoutRepeats _ _ [] collected).resolve_left
      List.not_mem_nil
  case kept =>
    intro entity apart
    exact breaks.base?_of_apart apart
  case bases => exact bases
  case ancestry =>
    intro entity registered
    rw [← bases]
    rw [← @keys_scopeAt setting tally] at registered
    have climbs := forest.forest_ofSchemas.climbs_ancestry registered
    exact ⟨climbs.1, climbs.2.1⟩

/-- Two cycles, a tail that leads into one of them, and a base of its own. -/
example :
    (Bases.breakCycles
      (.ofList [("Part", "Whole"), ("Tail", "Head"), ("Head", "Neck"),
        ("Neck", "Head"), ("Self", "Self")])
      ["Part", "Whole", "Tail", "Head", "Neck", "Self"]).2 =
      [⟨"Head", ["Neck"]⟩, ⟨"Self", []⟩] := by
  decide +kernel

end EntityCatalog
