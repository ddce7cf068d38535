import EntityCatalog.Proofs.Relation.Paired

/-!
# Pairing all relations

Pairing goes through the relations one after another and keeps what it finds
out.  As long as nothing is wrong, a step adds what its relation's verdict
decides (`Coherent.step_of_clears`).  So a run without defects is one in which
every relation that no base pairs has a verdict without defect, and what it
decides is the list of their decisions.
-/

namespace EntityCatalog.Pairing

/-! ## Single relations -/

/-- What comes of a relation: its verdict, once its target is found. -/
def Scope.ruling (scope : Scope) (side : Side) : Outcome :=
  match scope.directory.meaning side.relation.target.declared with
  | .error miss => .failure (miss.targetDefect side.property.origin)
  | .ok name =>
    match scope.entities.find? name with
    | none => .silent
    | some target => scope.verdict side target

theorem Scope.ruling_of_means {scope : Scope} {side : Side} {target : Entity}
    (means : scope.directory.meaning side.relation.target.declared =
      .ok target.name)
    (registered : scope.entities.find? target.name = some target) :
    scope.ruling side = scope.verdict side target := by
  rw [Scope.ruling, means]
  dsimp only
  rw [registered]

/-- Whether a relation is paired on its own account. -/
def Scope.concerns (scope : Scope) (side : Side) : Bool :=
  !decide (side.property.origin ∈ scope.invalid) && !scope.pairedByBase side

/-- What is decided on account of a relation. -/
def Scope.decided (scope : Scope) (side : Side) : List Decision :=
  if scope.concerns side then (scope.ruling side).decisions else []

/-- Nothing is wrong with a relation as far as it is paired. -/
def Scope.Clears (scope : Scope) (side : Side) : Prop :=
  scope.concerns side = true → (scope.ruling side).defect = none

/-- The declaration of a relation is rejected: something is wrong with it where
it is declared, or its target is missed. -/
structure Scope.Rejects (scope : Scope) (side : Side) : Prop where
  wrong : (scope.ruling side).defect ≠ none
  all : side.property.declaredBy = side.entity.name ∨
    ∃ miss, scope.directory.meaning side.relation.target.declared = .error miss

/-- A pairing that found nothing wrong so far and came to some decisions. -/
structure Progress.Clean (progress : Progress) (scope : Scope)
    (own : Place → Option Property) (start : Tally)
    (decisions : List Decision) : Prop where
  faithful : progress.findings.Faithful scope.directory (references own) start
  rejected : progress.rejected = []
  missed : progress.missed = []
  decisions : progress.decisions = decisions
  defects : progress.defects = []

/-- Defects are only added. -/
theorem Scope.defects_prefix_step (scope : Scope) (progress : Progress)
    (side : Side) :
    progress.defects <+: (scope.step progress side).defects := by
  unfold Scope.step
  split
  · exact List.prefix_rfl
  · split
    · exact List.prefix_append _ _
    · split
      · exact List.prefix_rfl
      · exact List.prefix_append _ _

theorem Scope.defects_prefix_run (scope : Scope) (progress : Progress)
    (sides : List Side) :
    progress.defects <+: (sides.foldl scope.step progress).defects := by
  induction sides generalizing progress with
  | nil => exact List.prefix_rfl
  | cons side rest induction =>
      exact (scope.defects_prefix_step progress side).trans (induction _)

namespace Scope.Coherent

variable {scope : Scope} {own : Place → Option Property} {start : Tally}
  {progress : Progress} {decisions : List Decision} {side : Side}

theorem step_of_not_concerns
    (clean : progress.Clean scope own start decisions)
    (unconcerned : scope.concerns side = false) :
    scope.step progress side = progress := by
  have skipped : scope.skips progress side = true := by
    rw [Scope.concerns] at unconcerned
    rw [Scope.skips, clean.rejected]
    simpa [Decidable.or_iff_not_imp_left] using unconcerned
  rw [Scope.step, if_pos skipped]

/-- A step over a relation that is not left alone adds what comes of the
relation, whatever was wrong before. -/
theorem step_of_attended (coherent : scope.Coherent own)
    (faithful : progress.findings.Faithful scope.directory (references own)
      start)
    (held : side.Held scope.entities)
    (attended : scope.skips progress side = false) :
    (scope.step progress side).findings.Faithful scope.directory
        (references own) start ∧
      (scope.step progress side).decisions =
        progress.decisions ++ (scope.ruling side).decisions ∧
      (scope.step progress side).defects =
        progress.defects ++ (scope.ruling side).defect.toList ∧
      ((scope.step progress side).rejected = progress.rejected ∨
        (scope.step progress side).rejected =
            side.property.origin :: progress.rejected ∧
          scope.Rejects side) ∧
      ((scope.step progress side).missed = progress.missed ∨
        (scope.step progress side).missed =
            side.property.origin :: progress.missed ∧
          (scope.ruling side).defect ≠ none) := by
  have forced := coherent.force_reads faithful held.property held.relation
  rw [Scope.step, if_neg (by simp [attended])]
  rcases answer : progress.findings.force scope.directory side.property.origin
      side.relation.target with ⟨found, findings⟩
  rw [answer] at forced
  rcases forced with ⟨rfl, faithful⟩
  cases means : scope.directory.meaning side.relation.target.declared with
  | error miss =>
      have ruling : scope.ruling side =
          .failure (miss.targetDefect side.property.origin) := by
        rw [Scope.ruling, means]
      have wrong : (scope.ruling side).defect ≠ none := by
        rw [ruling]
        exact Option.some_ne_none _
      refine ⟨faithful, ?_, ?_, Or.inr ⟨rfl, wrong, Or.inr ⟨miss, means⟩⟩,
        Or.inr ⟨rfl, wrong⟩⟩
      · rw [ruling]
        exact (List.append_nil _).symm
      · rw [ruling]
        rfl
  | ok name =>
      dsimp only
      cases found : scope.entities.find? name with
      | none =>
          have ruling : scope.ruling side = .silent := by
            rw [Scope.ruling, means]
            dsimp only
            rw [found]
          rw [ruling]
          exact ⟨faithful, (List.append_nil _).symm, (List.append_nil _).symm,
            Or.inl rfl, Or.inl rfl⟩
      | some target =>
          have read : scope.Reads own start (scope.pair side target findings)
              (scope.verdict side target) :=
            coherent.pair_reads faithful (Table.find?_eq_some found).1
          have ruling : scope.ruling side = scope.verdict side target := by
            rw [Scope.ruling, means]
            dsimp only
            rw [found]
          dsimp only
          rcases paired : scope.pair side target findings with
            ⟨outcome, later⟩
          rw [paired, ← ruling] at read
          rcases read with ⟨rfl, laterFaithful⟩
          dsimp only [Progress.take]
          refine ⟨laterFaithful, rfl, rfl, ?_, Or.inl rfl⟩
          split
          · rename_i rejected
            rw [Bool.and_eq_true, decide_eq_true_eq] at rejected
            refine Or.inr ⟨rfl, fun silent => ?_, Or.inl rejected.2⟩
            rw [silent] at rejected
            cases rejected.1
          · exact Or.inl rfl

theorem step_of_concerns (coherent : scope.Coherent own)
    (clean : progress.Clean scope own start decisions)
    (held : side.Held scope.entities)
    (concerned : scope.concerns side = true) :
    (scope.step progress side).findings.Faithful scope.directory
        (references own) start ∧
      (scope.step progress side).decisions =
        decisions ++ (scope.ruling side).decisions ∧
      (scope.step progress side).defects =
        (scope.ruling side).defect.toList ∧
      ((scope.ruling side).defect = none →
        (scope.step progress side).rejected = [] ∧
          (scope.step progress side).missed = []) := by
  have attended : scope.skips progress side = false := by
    rw [Scope.concerns] at concerned
    rw [Scope.skips, clean.rejected]
    simpa using concerned
  rcases coherent.step_of_attended clean.faithful held attended with
    ⟨faithful, decided, defects, rejected, missed⟩
  rw [clean.decisions] at decided
  rw [clean.defects, List.nil_append] at defects
  rw [clean.rejected] at rejected
  rw [clean.missed] at missed
  refine ⟨faithful, decided, defects, fun silent => ⟨?_, ?_⟩⟩
  · exact rejected.resolve_right fun wrong => wrong.2.wrong silent
  · exact missed.resolve_right fun wrong => wrong.2 silent

/-- A step over a relation with which nothing is wrong adds its decisions. -/
theorem step_of_clears (coherent : scope.Coherent own)
    (clean : progress.Clean scope own start decisions)
    (held : side.Held scope.entities) (clears : scope.Clears side) :
    (scope.step progress side).Clean scope own start
      (decisions ++ scope.decided side) := by
  rw [Scope.decided]
  cases concerned : scope.concerns side with
  | false =>
      rw [step_of_not_concerns clean concerned, if_neg (by simp),
        List.append_nil]
      exact clean
  | true =>
      have silent := clears concerned
      rcases coherent.step_of_concerns clean held concerned with
        ⟨faithful, decided, defects, untouched⟩
      rw [silent] at defects
      rw [if_pos rfl]
      exact ⟨faithful, (untouched silent).1, (untouched silent).2, decided,
        defects⟩

/-- A step that finds nothing wrong is over such a relation. -/
theorem clears_of_step (coherent : scope.Coherent own)
    (clean : progress.Clean scope own start decisions)
    (held : side.Held scope.entities)
    (silent : (scope.step progress side).defects = []) :
    scope.Clears side := by
  intro concerned
  have defects := (coherent.step_of_concerns clean held concerned).2.2.1
  rw [silent] at defects
  exact Option.toList_eq_nil_iff.mp defects.symm

/-! ## Runs -/

theorem run_of_clears (coherent : scope.Coherent own) (sides : List Side)
    (held : ∀ side ∈ sides, side.Held scope.entities)
    (clears : ∀ side ∈ sides, scope.Clears side)
    (clean : progress.Clean scope own start decisions) :
    (sides.foldl scope.step progress).Clean scope own start
      (decisions ++ sides.flatMap scope.decided) := by
  induction sides generalizing progress decisions with
  | nil => simpa using clean
  | cons side rest induction =>
      have stepped := coherent.step_of_clears clean
        (held side (List.mem_cons_self ..))
        (clears side (List.mem_cons_self ..))
      rw [List.flatMap_cons, ← List.append_assoc]
      exact induction
        (fun other later => held other (List.mem_cons_of_mem _ later))
        (fun other later => clears other (List.mem_cons_of_mem _ later)) stepped

theorem clears_of_run (coherent : scope.Coherent own) (sides : List Side)
    (held : ∀ side ∈ sides, side.Held scope.entities)
    (clean : progress.Clean scope own start decisions)
    (silent : (sides.foldl scope.step progress).defects = []) :
    ∀ side ∈ sides, scope.Clears side := by
  induction sides generalizing progress decisions with
  | nil => exact fun _ absent => nomatch absent
  | cons side rest induction =>
      have here := held side (List.mem_cons_self ..)
      have stepped : (scope.step progress side).defects = [] :=
        List.prefix_nil.mp (silent ▸ scope.defects_prefix_run _ rest)
      have clears := coherent.clears_of_step clean here stepped
      intro other member
      rcases List.mem_cons.mp member with rfl | later
      · exact clears
      · exact induction
          (fun other later => held other (List.mem_cons_of_mem _ later))
          (coherent.step_of_clears clean here clears) silent other later

end Scope.Coherent

/-! ## What a relation without defect comes to -/

/-- A relation has a target and is paired with it. -/
structure Scope.Pairs (scope : Scope) (side : Side) (target : Entity) :
    Prop where
  means : scope.directory.meaning side.relation.target.declared =
    .ok target.name
  registered : scope.entities.find? target.name = some target
  paired : scope.Paired side target (scope.decided side)

theorem Scope.Coherent.pairs_of_clears {scope : Scope}
    {own : Place → Option Property} (coherent : scope.Coherent own)
    {side : Side} (clears : scope.Clears side)
    (concerned : scope.concerns side = true) :
    ∃ target, scope.Pairs side target := by
  have sound := clears concerned
  have decided : scope.decided side = (scope.ruling side).decisions :=
    if_pos concerned
  rw [Scope.ruling] at sound decided
  cases means : scope.directory.meaning side.relation.target.declared with
  | error miss =>
      rw [means] at sound
      cases sound
  | ok name =>
      rw [means] at sound decided
      dsimp only at sound decided
      have registered :=
        coherent.names _ (Directory.mem_names_of_meaning means)
      rcases Table.mem_keys_iff.mp registered with ⟨target, found⟩
      rcases (Table.find?_eq_some found).2 with rfl
      rw [found] at sound decided
      refine ⟨target, means, found, ?_⟩
      rw [decided]
      exact Scope.paired_of_verdict sound

/-! ## The relations of a scope -/

/-- All relations, those of bases before those of what extends them. -/
def Scope.sides (scope : Scope) : List Side :=
  scope.entities.basesFirst.flatMap sidesOf

theorem mem_sidesOf_iff {entity : Entity} {side : Side} :
    side ∈ sidesOf entity ↔
      side.entity = entity ∧ side.property ∈ entity.properties.items ∧
        side.property.relation? = some side.relation := by
  rw [sidesOf, List.mem_filterMap]
  constructor
  · rintro ⟨property, holds, related⟩
    rcases Option.map_eq_some_iff.mp related with ⟨relation, here, rfl⟩
    exact ⟨rfl, holds, here⟩
  · rintro ⟨rfl, holds, related⟩
    exact ⟨side.property, holds, by rw [related, Option.map_some]⟩

theorem Scope.mem_sides_iff {scope : Scope} {side : Side} :
    side ∈ scope.sides ↔ side.Held scope.entities := by
  rw [Scope.sides, List.mem_flatMap]
  constructor
  · rintro ⟨entity, member, inside⟩
    rcases mem_sidesOf_iff.mp inside with ⟨rfl, holds, related⟩
    have item := Entities.mem_basesFirst.mp member
    exact ⟨Table.find?_key item, Entities.property?_of_mem item holds, related⟩
  · rintro ⟨found, held, related⟩
    have item := (Table.find?_eq_some found).1
    refine ⟨side.entity, Entities.mem_basesFirst.mpr item, ?_⟩
    refine mem_sidesOf_iff.mpr ⟨rfl, ?_, related⟩
    rw [Entities.property?, Side.place, Entity.place, found] at held
    exact (Table.find?_eq_some held).1

/-- All that is decided, in order. -/
def Scope.decisions (scope : Scope) : List Decision :=
  scope.sides.flatMap scope.decided

variable {scope : Scope} {own : Place → Option Property}

theorem Progress.clean_of_tally (scope : Scope)
    (own : Place → Option Property) {start tally : Tally}
    (same : start.SameMappings tally) :
    Clean { findings := { tally := tally } } scope own start [] where
  faithful := Findings.faithful_of_tally _ _ same
  rejected := rfl
  missed := rfl
  decisions := rfl
  defects := rfl

/-- A pairing in which nothing is wrong comes to the decisions of the
verdicts. -/
theorem Scope.Coherent.run_clean (coherent : scope.Coherent own)
    {start tally : Tally} (same : start.SameMappings tally)
    (clears : ∀ side, side.Held scope.entities → scope.Clears side) :
    (scope.run { tally := tally }).Clean scope own start scope.decisions :=
  coherent.run_of_clears scope.sides
    (fun _ member => Scope.mem_sides_iff.mp member)
    (fun side member => clears side (Scope.mem_sides_iff.mp member))
    (Progress.clean_of_tally scope own same)

/-- If pairing finds nothing wrong, nothing is wrong with any relation. -/
theorem Scope.Coherent.clears_of_silent (coherent : scope.Coherent own)
    {tally : Tally} (silent : (scope.run { tally := tally }).defects = [])
    {side : Side} (held : side.Held scope.entities) :
    scope.Clears side :=
  coherent.clears_of_run scope.sides
    (fun _ member => Scope.mem_sides_iff.mp member)
    (Progress.clean_of_tally scope own (.refl tally)) silent side
    (Scope.mem_sides_iff.mpr held)

end EntityCatalog.Pairing
