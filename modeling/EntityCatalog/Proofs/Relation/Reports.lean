import EntityCatalog.Proofs.Relation.Cleared

/-!
# What pairing reports

Pairing goes on where something is wrong: it leaves the relation alone and
looks at the next one.  What it has found out, decided and reported is then
still what comes of single relations (`Progress.Reports`), and what comes of a
relation that it left alone was reported for another copy of it.  So whatever
is wrong with a target is reported, whichever copy is looked at first
(`Reports.mem_defects_of_missed`), and so is what is wrong with a relation where
it is declared (`Reports.mem_defects_of_own`).
-/

namespace EntityCatalog.Pairing

variable {scope : Scope} {own : Place → Option Property} {start : Tally}
  {progress : Progress} {sides : List Side} {side : Side}

/-- A pairing that has looked at some relations, with some of which something
may be wrong. -/
structure Progress.Reports (progress : Progress) (scope : Scope)
    (own : Place → Option Property) (start : Tally) (sides : List Side) :
    Prop where
  faithful : progress.findings.Faithful scope.directory (references own) start
  held : ∀ side ∈ sides, side.Held scope.entities
  decisions : ∀ decision ∈ progress.decisions,
    ∃ side ∈ sides, decision ∈ (scope.ruling side).decisions
  defects : ∀ defect ∈ progress.defects,
    ∃ side ∈ sides, (scope.ruling side).defect = some defect
  rejected : ∀ place ∈ progress.rejected,
    ∃ side ∈ sides, side.property.origin = place ∧ scope.Rejects side ∧
      ∃ defect ∈ progress.defects, (scope.ruling side).defect = some defect
  missed : ∀ place ∈ progress.missed,
    ∃ side ∈ sides, side.property.origin = place
  attended : ∀ side ∈ sides, scope.concerns side = true →
    side.property.origin ∈ progress.rejected ∨
      ∀ defect, (scope.ruling side).defect = some defect →
        defect ∈ progress.defects

/-! ## Lists that may grow by one -/

section

variable {Item : Type} {before after : List Item} {first item : Item}
  {condition : Prop}

theorem mem_cases_of_eq_or_cons
    (grown : after = before ∨ after = first :: before ∧ condition)
    (member : item ∈ after) : item ∈ before ∨ item = first ∧ condition := by
  rcases grown with rfl | ⟨rfl, holds⟩
  · exact Or.inl member
  · rcases List.mem_cons.mp member with same | earlier
    · exact Or.inr ⟨same, holds⟩
    · exact Or.inl earlier

theorem mem_of_eq_or_cons
    (grown : after = before ∨ after = first :: before ∧ condition)
    (member : item ∈ before) : item ∈ after := by
  rcases grown with rfl | ⟨rfl, -⟩
  · exact member
  · exact List.mem_cons_of_mem _ member

end

/-! ## One more relation -/

theorem exists_mem_append {holds : Side → Prop}
    (found : ∃ other ∈ sides, holds other) :
    ∃ other ∈ sides ++ [side], holds other := by
  rcases found with ⟨other, member, here⟩
  exact ⟨other, List.mem_append_left _ member, here⟩

namespace Progress.Reports

variable (reports : progress.Reports scope own start sides)
  (heldSide : side.Held scope.entities)

include reports heldSide

theorem held_append : ∀ other ∈ sides ++ [side], other.Held scope.entities := by
  intro other member
  rcases List.mem_append.mp member with before | here
  · exact reports.held other before
  · rw [List.mem_singleton.mp here]
    exact heldSide

/-- A relation that is left alone changes nothing.  If it concerns its entity,
it is left alone because its declaration was rejected. -/
theorem skip (skipped : scope.skips progress side = true) :
    progress.Reports scope own start (sides ++ [side]) where
  faithful := reports.faithful
  held := reports.held_append heldSide
  decisions := fun decision member =>
    exists_mem_append (reports.decisions decision member)
  defects := fun defect member =>
    exists_mem_append (reports.defects defect member)
  rejected := fun place member =>
    exists_mem_append (reports.rejected place member)
  missed := fun place member => exists_mem_append (reports.missed place member)
  attended := by
    intro other member concerned
    rcases List.mem_append.mp member with before | here
    · exact reports.attended other before concerned
    · rw [List.mem_singleton.mp here] at concerned ⊢
      rw [Scope.skips] at skipped
      rw [Scope.concerns] at concerned
      simp only [Bool.or_eq_true, Bool.and_eq_true, Bool.not_eq_true',
        decide_eq_true_eq, decide_eq_false_iff_not] at skipped concerned
      rcases skipped with (dropped | rejected) | based
      · exact absurd dropped concerned.1
      · exact Or.inl rejected
      · rw [based] at concerned
        cases concerned.2

/-- A relation that is looked at adds what comes of it. -/
theorem attend (coherent : scope.Coherent own)
    (attended : scope.skips progress side = false) :
    (scope.step progress side).Reports scope own start (sides ++ [side]) := by
  rcases coherent.step_of_attended reports.faithful heldSide attended with
    ⟨faithful, decisions, defects, rejected, missed⟩
  have last : side ∈ sides ++ [side] := by simp
  have grows : ∀ defect ∈ progress.defects,
      defect ∈ (scope.step progress side).defects := by
    intro defect member
    rw [defects]
    exact List.mem_append_left _ member
  have added : ∀ defect, (scope.ruling side).defect = some defect →
      defect ∈ (scope.step progress side).defects := by
    intro defect wrong
    rw [defects, wrong]
    exact List.mem_append_right _ (by simp)
  refine ⟨faithful, reports.held_append heldSide, ?_, ?_, ?_, ?_, ?_⟩
  · intro decision member
    rw [decisions] at member
    rcases List.mem_append.mp member with before | here
    · exact exists_mem_append (reports.decisions decision before)
    · exact ⟨side, last, here⟩
  · intro defect member
    rw [defects] at member
    rcases List.mem_append.mp member with before | here
    · exact exists_mem_append (reports.defects defect before)
    · exact ⟨side, last, Option.mem_toList.mp here⟩
  · -- A declaration is only rejected along with a defect.
    intro place member
    rcases mem_cases_of_eq_or_cons rejected member with earlier | ⟨rfl, rejects⟩
    · rcases reports.rejected place earlier with
        ⟨other, inside, origin, rejects, defect, reported, wrong⟩
      exact ⟨other, List.mem_append_left _ inside, origin, rejects, defect,
        grows defect reported, wrong⟩
    · rcases Option.ne_none_iff_exists'.mp rejects.wrong with ⟨defect, wrong⟩
      exact ⟨side, last, rfl, rejects, defect, added defect wrong, wrong⟩
  · intro place member
    rcases mem_cases_of_eq_or_cons missed member with earlier | ⟨rfl, -⟩
    · exact exists_mem_append (reports.missed place earlier)
    · exact ⟨side, last, rfl⟩
  · intro other member concerned
    rcases List.mem_append.mp member with before | here
    · rcases reports.attended other before concerned with earlier | reported
      · exact Or.inl (mem_of_eq_or_cons rejected earlier)
      · exact Or.inr fun defect wrong => grows defect (reported defect wrong)
    · rw [List.mem_singleton.mp here]
      exact Or.inr added

end Progress.Reports

namespace Scope.Coherent

/-- Looking at one more relation. -/
theorem reports_step (coherent : scope.Coherent own)
    (reports : progress.Reports scope own start sides)
    (held : side.Held scope.entities) :
    (scope.step progress side).Reports scope own start (sides ++ [side]) := by
  cases skipped : scope.skips progress side with
  | true =>
      rw [Scope.step, if_pos skipped]
      exact reports.skip held skipped
  | false => exact reports.attend held coherent skipped

/-- Looking at all relations. -/
theorem reports_run (coherent : scope.Coherent own) (tally : Tally) :
    (scope.run { tally := tally }).Reports scope own tally scope.sides := by
  have nothing : Progress.Reports { findings := { tally := tally } } scope own
      tally [] :=
    { faithful := Findings.faithful_of_tally _ _ (.refl tally)
      held := by simp
      decisions := by simp
      defects := by simp
      rejected := by simp
      missed := by simp
      attended := by simp }
  have all : ∀ (rest sides : List Side) (progress : Progress),
      progress.Reports scope own tally sides →
      (∀ side ∈ rest, side.Held scope.entities) →
      (rest.foldl scope.step progress).Reports scope own tally
        (sides ++ rest) := by
    intro rest
    induction rest with
    | nil =>
        intro sides progress reports _
        rw [List.append_nil]
        exact reports
    | cons side rest induction =>
        intro sides progress reports held
        have stepped := coherent.reports_step reports
          (held side (List.mem_cons_self ..))
        rw [List.append_cons]
        exact induction _ _ stepped fun other later =>
          held other (List.mem_cons_of_mem _ later)
  exact all scope.sides [] _ nothing fun side member =>
    Scope.mem_sides_iff.mp member

end Scope.Coherent

/-- Copies of one declaration are one relation. -/
theorem Scope.Coherent.same_of_origin (coherent : scope.Coherent own)
    {other : Side} (heldOther : other.Held scope.entities)
    (held : side.Held scope.entities)
    (origin : other.property.origin = side.property.origin) :
    other.property = side.property ∧ other.relation = side.relation := by
  have property : other.property = side.property :=
    coherent.merges.eq_of_origin_eq heldOther.property held.property origin
  have related := heldOther.relation
  rw [property, held.relation] at related
  exact ⟨property, (Option.some.inj related).symm⟩

namespace Progress.Reports

variable (reports : progress.Reports scope own start sides)
  (coherent : scope.Coherent own) (member : side ∈ sides)
  (concerned : scope.concerns side = true)

include reports coherent member concerned

/-- A target that is missed is reported, for whichever copy. -/
theorem mem_defects_of_missed {miss : Miss}
    (means : scope.directory.meaning side.relation.target.declared =
      .error miss) :
    miss.targetDefect side.property.origin ∈ progress.defects := by
  have wrong : ∀ other ∈ sides,
      other.property.origin = side.property.origin →
        (scope.ruling other).defect =
          some (miss.targetDefect side.property.origin) := by
    intro other inside origin
    rcases coherent.same_of_origin (reports.held other inside)
      (reports.held side member) origin with ⟨property, relation⟩
    rw [Scope.ruling, relation, means, property]
    rfl
  rcases reports.attended side member concerned with rejected | reported
  · rcases reports.rejected _ rejected with
      ⟨other, inside, origin, -, defect, here, ruled⟩
    rw [wrong other inside origin] at ruled
    cases ruled
    exact here
  · exact reported _ (wrong side member rfl)

/-- What is wrong with a relation where it is declared is reported. -/
theorem mem_defects_of_own
    (here : side.property.declaredBy = side.entity.name) {name : String}
    (means : scope.directory.meaning side.relation.target.declared = .ok name)
    {defect : Defect} (wrong : (scope.ruling side).defect = some defect) :
    defect ∈ progress.defects := by
  rcases reports.attended side member concerned with rejected | reported
  · rcases reports.rejected _ rejected with
      ⟨other, inside, origin, rejects, rejection, known, ruled⟩
    have heldOther := reports.held other inside
    have held := reports.held side member
    rcases coherent.same_of_origin heldOther held origin with
      ⟨property, relation⟩
    -- The target is found, so it was rejected where it is declared.
    have entity : other.entity.name = side.entity.name := by
      rcases rejects.all with declared | ⟨miss, missed⟩
      · rw [← declared, property, here]
      · rw [relation, means] at missed
        cases missed
    have place : other.place = side.place := by
      rw [Side.place, Side.place, Entity.place, Entity.place, entity, property]
    rw [heldOther.eq_of_place_eq held place, wrong] at ruled
    cases ruled
    exact known
  · exact reported defect wrong

end Progress.Reports

end EntityCatalog.Pairing
