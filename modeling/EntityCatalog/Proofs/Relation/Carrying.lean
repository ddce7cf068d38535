import EntityCatalog.Proofs.Relation.Proposals

/-!
# What carrying out decisions comes to

Decisions are carried out in turn, but what they come to can be said without
an order.  A side gets what all proposals for it agree on, and an added inverse
is held wherever its holder's descendants held nothing under its name, the first
one added winning.  `Carried` is this account of the decisions so far.  Every
decision keeps it or finds a defect, so that carrying out finds nothing wrong
exactly if the decisions go together (`silent_carryOut_iff`).
-/

namespace EntityCatalog

/-- What is found first in a sorted list comes before all else that could be
found. -/
theorem before_of_find? {Item : Type} {before : Item → Item → Prop}
    {items : List Item} (sorted : items.Pairwise before)
    {condition : Item → Bool} {first other : Item}
    (found : items.find? condition = some first) (member : other ∈ items)
    (holds : condition other = true) (different : other ≠ first) :
    before first other := by
  rcases List.find?_eq_some_iff_append.mp found with
    ⟨-, skipped, rest, rfl, none⟩
  rcases List.mem_append.mp member with passed | here
  · have fails := none other passed
    rw [holds] at fails
    cases fails
  · rcases List.mem_cons.mp here with same | later
    · exact absurd same different
    · exact (List.pairwise_cons.mp
        (List.pairwise_append.mp sorted).2.1).1 other later

namespace Settlement

/-! ## Decisions that were carried out -/

/-- What came of carrying out decisions that propose some sides and add some
inverses. -/
structure Carried (merged : Entities) (proposed : Place → Sides → Prop)
    (added : List Synthesis) (progress : Progress) : Prop where
  alike : progress.entities.Alike merged
  held : ∀ place property, merged.property? place = some property →
    ∃ sides, progress.entities.property? place =
        some (property.withSides sides) ∧
      ∀ relation, property.relation? = some relation →
        relation.sides.Agreed (proposed place) sides
  fresh : ∀ place, place.entity ∈ merged.keys →
    merged.property? place = none →
      progress.entities.property? place =
        (added.find? (·.covers merged place)).map Synthesis.property
  decided : ∀ place owner,
    (progress.decided.find? place).map Prod.snd = some owner ↔
      ∃ sides, proposed place sides ∧ sides.owner = owner
  free : ∀ synthesis ∈ added, merged.property? synthesis.place = none
  apart : added.Pairwise fun earlier later =>
    earlier.covers merged later.place = false
  silent : progress.defects = []

/-- Before the first decision nothing has changed. -/
theorem carried_nothing (merged : Entities) :
    Carried merged (fun _ _ => False) [] { entities := merged } where
  alike := .refl merged
  held := by
    intro place property held
    cases related : property.relation? with
    | none =>
        refine ⟨⟨false, none, none⟩, ?_, fun _ absent => nomatch absent⟩
        rw [Property.withSides_of_relation?_eq_none related]
        exact held
    | some relation =>
        refine ⟨relation.sides, ?_, ?_⟩
        · rw [Property.withSides_sides related]
          exact held
        · intro other same
          cases same
          exact .of_nothing _ fun _ => id
  fresh := fun _ _ absent => absent
  decided := by
    intro place owner
    simp [Table.find?, Table.empty]
  free := fun _ absent => nomatch absent
  apart := .nil
  silent := rfl

namespace Carried

variable {merged : Entities} {proposed : Place → Sides → Prop}
  {added : List Synthesis} {progress : Progress}

theorem congr {other : Place → Sides → Prop}
    (carried : Carried merged proposed added progress)
    (same : ∀ place sides, proposed place sides ↔ other place sides) :
    Carried merged other added progress := by
  have equal : proposed = other :=
    funext fun place => funext fun sides => propext (same place sides)
  exact equal ▸ carried

/-! ## What is held afterwards -/

/-- What is held was held before, with other sides, or was added. -/
theorem property_cases (carried : Carried merged proposed added progress)
    {place : Place} {property : Property}
    (held : progress.entities.property? place = some property) :
    (∃ before sides, merged.property? place = some before ∧
        property = before.withSides sides ∧
        ∀ relation, before.relation? = some relation →
          relation.sides.Agreed (proposed place) sides) ∨
      merged.property? place = none ∧
        ∃ synthesis ∈ added, synthesis.covers merged place = true ∧
          property = synthesis.property := by
  cases before : merged.property? place with
  | some first =>
      rcases carried.held place first before with ⟨sides, kept, agrees⟩
      rw [kept] at held
      cases held
      exact Or.inl ⟨first, sides, rfl, rfl, agrees⟩
  | none =>
      have registered : place.entity ∈ merged.keys := by
        rw [← carried.alike.keys]
        exact Entities.mem_keys_of_property? held
      rw [carried.fresh place registered before] at held
      rcases Option.map_eq_some_iff.mp held with ⟨synthesis, found, rfl⟩
      exact Or.inr ⟨rfl, synthesis, List.mem_of_find?_eq_some found,
        List.find?_some found, rfl⟩

/-- An added inverse is held where it was added. -/
theorem property?_of_added {own : Place → Option Property}
    (carried : Carried merged proposed added progress)
    (merges : merged.Merges own) {synthesis : Synthesis}
    (member : synthesis ∈ added) (registered : synthesis.holder ∈ merged.keys) :
    progress.entities.property? synthesis.place = some synthesis.property := by
  have here : synthesis.covers merged synthesis.place = true :=
    Synthesis.covers_iff.mpr
      ⟨rfl, (merges.isWithin_iff registered).mpr (.refl _)⟩
  rw [carried.fresh synthesis.place registered (carried.free synthesis member)]
  cases found : added.find? (·.covers merged synthesis.place) with
  | none => exact absurd here (List.find?_eq_none.mp found synthesis member)
  | some first =>
      by_cases same : synthesis = first
      · rw [same, Option.map_some]
      · have uncovered := before_of_find? carried.apart found member here same
        rw [List.find?_some found] at uncovered
        cases uncovered

/-! ## Settling one copy -/

/-- A proposal that agrees with the earlier ones is carried out by entering what
they come to. -/
theorem enter (carried : Carried merged proposed added progress)
    {place : Place} {property : Property} {relation : Relation}
    (held : merged.property? place = some property)
    (related : property.relation? = some relation) {next result : Sides}
    (together : relation.sides.Agreed
      (fun sides => proposed place sides ∨ sides = next) result) :
    Carried merged
      (fun asked sides => proposed asked sides ∨ asked = place ∧ sides = next)
      added
      { progress with
        entities := progress.entities.withSides place result
        decided := progress.decided.insert (place, next.owner) } := by
  have elsewhere : ∀ asked, asked ≠ place →
      (progress.entities.withSides place result).property? asked =
        progress.entities.property? asked := by
    intro asked other
    rw [Entities.property?_withSides, if_neg other]
  constructor
  case alike =>
    exact (Entities.alike_withSides _ _ _).trans carried.alike
  case held =>
    intro asked copy heldCopy
    rcases carried.held asked copy heldCopy with ⟨sides, kept, agrees⟩
    by_cases here : asked = place
    · subst here
      rw [held] at heldCopy
      cases heldCopy
      refine ⟨result, ?_, ?_⟩
      · rw [Entities.property?_withSides, if_pos rfl, kept, Option.map_some,
          Property.withSides_withSides]
      · intro other same
        rw [related] at same
        cases same
        exact together.congr fun sides => by simp
    · refine ⟨sides, (elsewhere asked here).trans kept, ?_⟩
      intro other same
      exact (agrees other same).congr fun sides => by simp [here]
  case fresh =>
    intro asked registered absent
    have other : asked ≠ place := by
      rintro rfl
      rw [held] at absent
      cases absent
    rw [elsewhere asked other]
    exact carried.fresh asked registered absent
  case decided =>
    intro asked owner
    rw [Table.find?_insert]
    by_cases here : place = asked
    · subst here
      have owns := together.owner
      rw [if_pos rfl, Option.map_some, Option.some.injEq]
      constructor
      · rintro rfl
        exact ⟨next, Or.inr ⟨rfl, rfl⟩, rfl⟩
      · rintro ⟨sides, given, rfl⟩
        rw [← owns next (Or.inr rfl), ← owns sides (given.imp_right And.right)]
    · rw [if_neg here, carried.decided]
      simp [Ne.symm here]
  case free => exact carried.free
  case apart => exact carried.apart
  case silent => exact carried.silent

/-- Settling one copy finds nothing wrong exactly if the proposal agrees with
the earlier ones, and is then carried out. -/
theorem settleCopy (carried : Carried merged proposed added progress)
    {place : Place} {property : Property} {relation : Relation}
    (held : merged.property? place = some property)
    (related : property.relation? = some relation) (next : Sides)
    (source : Place) :
    ((progress.settleCopy next source place).defects = [] ↔
        ∃ result, relation.sides.Agreed
          (fun sides => proposed place sides ∨ sides = next) result) ∧
      ((progress.settleCopy next source place).defects = [] →
        Carried merged
          (fun asked sides =>
            proposed asked sides ∨ asked = place ∧ sides = next)
          added (progress.settleCopy next source place)) := by
  rcases carried.held place property held with ⟨current, found, agrees⟩
  have present : (progress.entities.property? place).bind Property.relation? =
      some { relation with sides := current } := by
    rw [found, Option.bind_some, Property.relation?_withSides, related,
      Option.map_some]
  have settled : ∀ result, current.settle
      ((progress.decided.find? place).map Prod.snd) next = (result, none) ↔
        relation.sides.Agreed
          (fun sides => proposed place sides ∨ sides = next) result :=
    fun result => (agrees relation related).settle_iff (carried.decided place)
  rw [Progress.settleCopy, present]
  dsimp only
  rcases outcome : current.settle
      ((progress.decided.find? place).map Prod.snd) next with
    ⟨result, ambiguity⟩
  rw [outcome] at settled
  cases ambiguity with
  | some ambiguity =>
      dsimp only [Progress.note]
      refine ⟨⟨?_, ?_⟩, ?_⟩
      · simp
      · rintro ⟨other, together⟩
        cases (settled other).mpr together
      · simp
  | none =>
      have together := (settled result).mp rfl
      exact ⟨⟨fun _ => ⟨result, together⟩, fun _ => carried.silent⟩,
        fun _ => carried.enter held related together⟩

/-! ## Settling a side wherever it is held -/

theorem defects_prefix_settleCopy (progress : Progress) (sides : Sides)
    (source place : Place) :
    progress.defects <+: (progress.settleCopy sides source place).defects := by
  unfold Progress.settleCopy
  split
  · exact List.prefix_rfl
  · dsimp only
    split
    · exact List.prefix_append _ _
    · exact List.prefix_rfl

theorem defects_prefix_settleCopies (progress : Progress) (sides : Sides)
    (source : Place) (places : List Place) :
    progress.defects <+:
      (places.foldl (fun progress place =>
        progress.settleCopy sides source place) progress).defects := by
  induction places generalizing progress with
  | nil => exact List.prefix_rfl
  | cons place rest induction =>
      exact (defects_prefix_settleCopy progress sides source place).trans
        (induction _)

theorem settleCopies (carried : Carried merged proposed added progress)
    {property : Property} {relation : Relation}
    (related : property.relation? = some relation) (next : Sides)
    (source : Place) (places : List Place)
    (held : ∀ place ∈ places, merged.property? place = some property) :
    ((places.foldl (fun progress place =>
          progress.settleCopy next source place) progress).defects = [] →
        Carried merged
          (fun asked sides =>
            proposed asked sides ∨ asked ∈ places ∧ sides = next)
          added
          (places.foldl (fun progress place =>
            progress.settleCopy next source place) progress)) ∧
      ((∀ place ∈ places, ∃ result, relation.sides.Agreed
          (fun sides => proposed place sides ∨ sides = next) result) →
        (places.foldl (fun progress place =>
          progress.settleCopy next source place) progress).defects = []) := by
  induction places generalizing progress proposed with
  | nil =>
      refine ⟨fun _ => ?_, fun _ => carried.silent⟩
      exact carried.congr fun place sides => by simp
  | cons place rest induction =>
      rcases carried.settleCopy (held place (List.mem_cons_self ..)) related
        next source with ⟨agrees, keeps⟩
      have later := fun other inside =>
        held other (List.mem_cons_of_mem _ inside)
      rw [List.foldl_cons]
      constructor
      · intro silent
        have here : (progress.settleCopy next source place).defects = [] :=
          List.prefix_nil.mp
            (silent ▸ defects_prefix_settleCopies _ next source rest)
        refine ((induction (keeps here) later).1 silent).congr ?_
        intro asked sides
        rw [List.mem_cons, or_and_right, or_assoc]
      · intro together
        have here := agrees.mpr (together place (List.mem_cons_self ..))
        refine (induction (keeps here) later).2 ?_
        intro other inside
        rcases together other (List.mem_cons_of_mem _ inside) with
          ⟨result, agreed⟩
        refine ⟨result, agreed.congr fun sides => ?_⟩
        constructor
        · rintro (given | rfl)
          · exact Or.inl (Or.inl given)
          · exact Or.inr rfl
        · rintro ((given | ⟨-, rfl⟩) | rfl)
          · exact Or.inl given
          · exact Or.inr rfl
          · exact Or.inr rfl

/-- Decisions so far do not change which entities hold copies. -/
theorem copies_eq {own : Place → Option Property}
    (carried : Carried merged proposed added progress)
    (merges : merged.Merges own) {place : Place} {property : Property}
    (held : merged.property? place = some property) :
    progress.entities.copies place = merged.copies place := by
  rcases carried.held place property held with ⟨sides, found, -⟩
  rw [Entities.copies_eq found, Entities.copies_eq held, carried.alike.keys,
    carried.alike.isWithin]
  refine List.filter_congr fun name registered => ?_
  by_cases within : merged.isWithin name place.entity = true
  · have below := (merges.isWithin_iff registered).mp within
    rcases merges.held_below below held with ⟨copy, heldCopy⟩
    rcases carried.held _ copy heldCopy with ⟨other, foundCopy, -⟩
    rw [foundCopy, heldCopy]
    simp
  · rw [Bool.not_eq_true] at within
    rw [within]
    simp

/-- Settling a side finds nothing wrong exactly if the proposal agrees with the
earlier ones for every copy, and is then carried out. -/
theorem settle {own : Place → Option Property}
    (carried : Carried merged proposed added progress)
    (merges : merged.Merges own) {settlement : Settlement}
    {property : Property} {relation : Relation}
    (held : merged.property? settlement.place = some property)
    (related : property.relation? = some relation) :
    ((progress.settle settlement).defects = [] →
        Carried merged
          (fun asked sides => proposed asked sides ∨
            merged.CopyOf asked settlement.place ∧ sides = settlement.sides)
          added (progress.settle settlement)) ∧
      ((∀ place, merged.CopyOf place settlement.place →
          ∃ result, relation.sides.Agreed (fun sides =>
            proposed place sides ∨ sides = settlement.sides) result) →
        (progress.settle settlement).defects = []) := by
  have reached : ∀ asked : Place,
      asked ∈ (merged.copies settlement.place).map
          (fun holder => Place.mk holder settlement.place.property) ↔
        merged.CopyOf asked settlement.place := by
    intro asked
    rw [List.mem_map]
    constructor
    · rintro ⟨holder, member, rfl⟩
      exact (Entities.mem_copies_iff merges held).mp member
    · intro copy
      rcases asked with ⟨holder, name⟩
      rcases copy.name with rfl
      exact ⟨holder, (Entities.mem_copies_iff merges held).mpr copy, rfl⟩
  rw [Progress.settle, carried.copies_eq merges held]
  rcases carried.settleCopies related settlement.sides settlement.source _
      (fun place member => ((reached place).mp member).same.trans held) with
    ⟨keeps, silent⟩
  constructor
  · intro defects
    exact (keeps defects).congr fun asked sides => by rw [reached]
  · intro agreed
    exact silent fun place member => agreed place ((reached place).mp member)

/-! ## Adding an inverse -/

theorem synthesize_eq (progress : Progress) (synthesis : Synthesis) :
    progress.synthesize synthesis =
      if (progress.entities.property? synthesis.place).isSome then
        progress.note (.configuration synthesis.source
          (.inverseExists synthesis.name synthesis.holder))
      else
        { progress with
          entities :=
            progress.entities.addWithin synthesis.holder synthesis.property } :=
  rfl

/-- An inverse is added by handing it to its holder and to the descendants of
the holder. -/
theorem add (carried : Carried merged proposed added progress)
    {synthesis : Synthesis}
    (absent : merged.property? synthesis.place = none)
    (uncovered : ∀ earlier ∈ added,
      earlier.covers merged synthesis.place = false) :
    Carried merged proposed (added ++ [synthesis])
      { progress with
        entities :=
          progress.entities.addWithin synthesis.holder synthesis.property } := by
  constructor
  case alike =>
    exact (Entities.alike_addWithin _ _ _).trans carried.alike
  case held =>
    intro asked property held
    rcases carried.held asked property held with ⟨sides, found, agrees⟩
    have known : asked.entity ∈ progress.entities.keys :=
      Entities.mem_keys_of_property? found
    refine ⟨sides, ?_, agrees⟩
    rw [Entities.property?_addWithin _ _ _ known, found, Option.some_or]
  case fresh =>
    intro asked known missing
    rw [Entities.property?_addWithin _ _ _ (carried.alike.keys ▸ known),
      carried.fresh asked known missing, List.find?_append,
      carried.alike.isWithin]
    cases added.find? (·.covers merged asked) with
    | some earlier => rfl
    | none =>
        rw [Option.map_none, Option.none_or, Option.none_or]
        by_cases here : synthesis.covers merged asked = true
        · rw [List.find?_cons_of_pos here, Option.map_some]
          exact if_pos (Synthesis.covers_iff.mp here)
        · rw [List.find?_cons_of_neg here]
          exact if_neg (mt Synthesis.covers_iff.mpr here)
  case decided => exact carried.decided
  case free =>
    intro other member
    rcases List.mem_append.mp member with earlier | here
    · exact carried.free other earlier
    · rw [List.mem_singleton.mp here]
      exact absent
  case apart =>
    refine List.pairwise_append.mpr
      ⟨carried.apart, List.pairwise_singleton _ _, ?_⟩
    intro earlier member later here
    rw [List.mem_singleton.mp here]
    exact uncovered earlier member
  case silent => exact carried.silent

/-- Adding an inverse finds nothing wrong exactly if nothing is held in its
place, and is then carried out. -/
theorem synthesize (carried : Carried merged proposed added progress)
    {synthesis : Synthesis} (registered : synthesis.holder ∈ merged.keys) :
    ((progress.synthesize synthesis).defects = [] ↔
        merged.property? synthesis.place = none ∧
          ∀ earlier ∈ added, earlier.covers merged synthesis.place = false) ∧
      ((progress.synthesize synthesis).defects = [] →
        Carried merged proposed (added ++ [synthesis])
          (progress.synthesize synthesis)) := by
  have occupied :
      (progress.entities.property? synthesis.place).isSome = false ↔
        merged.property? synthesis.place = none ∧
          ∀ earlier ∈ added, earlier.covers merged synthesis.place = false := by
    cases held : merged.property? synthesis.place with
    | some property =>
        rcases carried.held _ _ held with ⟨sides, found, -⟩
        simp [found]
    | none =>
        rw [carried.fresh _ registered held]
        simp
  rw [synthesize_eq, ← occupied]
  cases taken : (progress.entities.property? synthesis.place).isSome with
  | true => simp [Progress.note]
  | false =>
      rcases occupied.mp taken with ⟨absent, uncovered⟩
      rw [if_neg (by simp)]
      exact ⟨iff_of_true carried.silent rfl,
        fun _ => carried.add absent uncovered⟩

end Carried

/-! ## Carrying out all decisions -/

section

variable {merged : Entities} {own : Place → Option Property}
  {progress : Progress}

theorem defects_prefix_carryOut (progress : Progress) (decision : Decision) :
    progress.defects <+: (progress.carryOut decision).defects := by
  cases decision with
  | settle settlement =>
      exact Carried.defects_prefix_settleCopies progress _ _ _
  | synthesize synthesis =>
      rw [Progress.carryOut, Carried.synthesize_eq]
      split
      · exact List.prefix_append _ _
      · exact List.prefix_rfl

theorem defects_prefix_carryOutAll (progress : Progress)
    (decisions : List Decision) :
    progress.defects <+:
      (decisions.foldl Progress.carryOut progress).defects := by
  induction decisions generalizing progress with
  | nil => exact List.prefix_rfl
  | cons decision rest induction =>
      exact (defects_prefix_carryOut progress decision).trans (induction _)

/-- Decisions that were carried out go together. -/
theorem Carried.accepts {decisions : List Decision}
    (carried : Carried merged (merged.Proposes decisions)
      (syntheses decisions) progress) :
    merged.Accepts decisions where
  agreed := by
    intro place property relation held related
    rcases carried.held place property held with ⟨sides, -, agrees⟩
    exact ⟨sides, agrees relation related⟩
  free := carried.free
  apart := carried.apart

theorem proposes_append_settle (done : List Decision)
    (settlement : Settlement) (place : Place) (sides : Sides) :
    merged.Proposes (done ++ [.settle settlement]) place sides ↔
      merged.Proposes done place sides ∨
        merged.CopyOf place settlement.place ∧ sides = settlement.sides := by
  constructor
  · rintro ⟨other, member, copy, rfl⟩
    rcases List.mem_append.mp member with earlier | here
    · exact Or.inl ⟨other, earlier, copy, rfl⟩
    · cases List.mem_singleton.mp here
      exact Or.inr ⟨copy, rfl⟩
  · rintro (⟨other, member, copy, rfl⟩ | ⟨copy, rfl⟩)
    · exact ⟨other, List.mem_append_left _ member, copy, rfl⟩
    · exact ⟨settlement, by simp, copy, rfl⟩

theorem proposes_append_synthesize (done : List Decision)
    (synthesis : Synthesis) (place : Place) (sides : Sides) :
    merged.Proposes (done ++ [.synthesize synthesis]) place sides ↔
      merged.Proposes done place sides := by
  simp [Entities.Proposes]

/-- A decision that is carried out without defect is part of the account. -/
theorem Carried.carryOut {done : List Decision} {decision : Decision}
    (carried : Carried merged (merged.Proposes done) (syntheses done) progress)
    (merges : merged.Merges own) (addressed : merged.Addresses decision)
    (silent : (progress.carryOut decision).defects = []) :
    Carried merged (merged.Proposes (done ++ [decision]))
      (syntheses (done ++ [decision])) (progress.carryOut decision) := by
  cases decision with
  | settle settlement =>
      rcases addressed with ⟨property, relation, held, related⟩
      have kept := (carried.settle merges held related).1 silent
      rw [syntheses, List.filterMap_append]
      simp only [List.filterMap_cons, Decision.synthesis?, List.filterMap_nil,
        List.append_nil]
      exact kept.congr fun place sides =>
        (proposes_append_settle done settlement place sides).symm
  | synthesize synthesis =>
      have kept := (carried.synthesize addressed).2 silent
      rw [syntheses, List.filterMap_append]
      exact kept.congr fun place sides =>
        (proposes_append_synthesize done synthesis place sides).symm

/-- A decision that goes with the others is carried out without defect. -/
theorem Carried.silent_of_accepts {done rest : List Decision}
    {decision : Decision}
    (carried : Carried merged (merged.Proposes done) (syntheses done) progress)
    (merges : merged.Merges own) (addressed : merged.Addresses decision)
    (accepts : merged.Accepts (done ++ decision :: rest)) :
    (progress.carryOut decision).defects = [] := by
  cases decision with
  | settle settlement =>
      rcases addressed with ⟨property, relation, held, related⟩
      refine (carried.settle merges held related).2 ?_
      intro place copy
      rcases accepts.agreed place property relation (copy.same.trans held)
        related with ⟨sides, agreed⟩
      refine agreed.exists_of_fewer ?_
      rintro other (⟨earlier, member, below, rfl⟩ | rfl)
      · exact ⟨earlier, List.mem_append_left _ member, below, rfl⟩
      · exact ⟨settlement, by simp, copy, rfl⟩
  | synthesize synthesis =>
      have added : syntheses (done ++ .synthesize synthesis :: rest) =
          syntheses done ++ synthesis :: syntheses rest := by
        simp [syntheses, Decision.synthesis?]
      refine (carried.synthesize addressed).1.mpr ⟨?_, ?_⟩
      · exact accepts.free synthesis (by simp [added])
      · have apart := accepts.apart
        rw [added, List.pairwise_append] at apart
        intro earlier member
        exact apart.2.2 earlier member synthesis (List.mem_cons_self ..)

theorem Carried.carryOutAll {done decisions : List Decision}
    (carried : Carried merged (merged.Proposes done) (syntheses done) progress)
    (merges : merged.Merges own)
    (addressed : ∀ decision ∈ decisions, merged.Addresses decision)
    (silent : (decisions.foldl Progress.carryOut progress).defects = []) :
    Carried merged (merged.Proposes (done ++ decisions))
      (syntheses (done ++ decisions))
      (decisions.foldl Progress.carryOut progress) := by
  induction decisions generalizing done progress with
  | nil => simpa using carried
  | cons decision rest induction =>
      have here : (progress.carryOut decision).defects = [] :=
        List.prefix_nil.mp (silent ▸ defects_prefix_carryOutAll _ rest)
      have stepped := carried.carryOut merges
        (addressed decision (List.mem_cons_self ..)) here
      have later := fun other inside =>
        addressed other (List.mem_cons_of_mem _ inside)
      simpa using induction stepped later silent

theorem Carried.silentAll_of_accepts {done decisions : List Decision}
    (carried : Carried merged (merged.Proposes done) (syntheses done) progress)
    (merges : merged.Merges own)
    (addressed : ∀ decision ∈ decisions, merged.Addresses decision)
    (accepts : merged.Accepts (done ++ decisions)) :
    (decisions.foldl Progress.carryOut progress).defects = [] := by
  induction decisions generalizing done progress with
  | nil => exact carried.silent
  | cons decision rest induction =>
      have known := addressed decision (List.mem_cons_self ..)
      have here := carried.silent_of_accepts merges known accepts
      have later := fun other inside =>
        addressed other (List.mem_cons_of_mem _ inside)
      refine induction (carried.carryOut merges known here) later ?_
      simpa using accepts

end

theorem carried_of_nil (merged : Entities) :
    Carried merged (merged.Proposes []) (syntheses [])
      { entities := merged } :=
  (carried_nothing merged).congr fun place sides => by
    simp [Entities.Proposes]

/-- Carrying out decisions finds nothing wrong exactly if they go together. -/
theorem silent_carryOut_iff {merged : Entities}
    {own : Place → Option Property} (merges : merged.Merges own)
    {decisions : List Decision}
    (addressed : ∀ decision ∈ decisions, merged.Addresses decision) :
    (carryOut merged decisions).defects = [] ↔ merged.Accepts decisions := by
  constructor
  · intro silent
    exact ((carried_of_nil merged).carryOutAll merges addressed
      silent).accepts
  · intro accepts
    exact (carried_of_nil merged).silentAll_of_accepts merges addressed
      accepts

theorem carried_carryOut {merged : Entities}
    {own : Place → Option Property} (merges : merged.Merges own)
    {decisions : List Decision}
    (addressed : ∀ decision ∈ decisions, merged.Addresses decision)
    (silent : (carryOut merged decisions).defects = []) :
    Carried merged (merged.Proposes decisions) (syntheses decisions)
      (carryOut merged decisions) :=
  (carried_of_nil merged).carryOutAll merges addressed silent

end Settlement

end EntityCatalog
