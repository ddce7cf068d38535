import EntityCatalog.Proofs.Registry.Reachable
import EntityCatalog.Proofs.Resolution.Wording

/-!
# Broken declarations are reported

A registry with a broken declaration does not freeze, and what is wrong with the
declaration is among the things that are reported, in its own words
(`Registry.finalize_of_breaks`).  Since two defects with one wording are reported
once, it can be reported in the name of another property whose place reads
alike.  Where names have no dots, colons and blanks to confuse places with, it is
reported in the name of the declaration.
-/

namespace EntityCatalog

namespace Defect

variable {defects : List Defect} {defect : Defect}

theorem mem_of_mem_withoutRepeats {seen : List String}
    (member : defect ∈ withoutRepeats seen defects) : defect ∈ defects := by
  induction defects generalizing seen with
  | nil => cases member
  | cons first rest induction =>
      rw [withoutRepeats] at member
      split at member
      · exact List.mem_cons_of_mem _ (induction member)
      · rcases List.mem_cons.mp member with rfl | later
        · exact List.mem_cons_self ..
        · exact List.mem_cons_of_mem _ (induction later)

/-- Leaving repetitions out loses no wording. -/
theorem exists_mem_withoutRepeats {seen : List String}
    (member : defect ∈ defects) :
    defect.message ∈ seen ∨
      ∃ reported ∈ withoutRepeats seen defects,
        reported.message = defect.message := by
  induction defects generalizing seen with
  | nil => cases member
  | cons first rest induction =>
      rw [withoutRepeats]
      split
      · rename_i known
        rcases List.mem_cons.mp member with rfl | later
        · exact Or.inl known
        · exact induction later
      · rcases List.mem_cons.mp member with rfl | later
        · exact Or.inr ⟨defect, List.mem_cons_self .., rfl⟩
        · rcases @induction (first.message :: seen) later with
            known | ⟨reported, inside, same⟩
          · rcases List.mem_cons.mp known with same | earlier
            · exact Or.inr ⟨first, List.mem_cons_self .., same.symm⟩
            · exact Or.inl earlier
          · exact Or.inr ⟨reported, List.mem_cons_of_mem _ inside, same⟩

end Defect

namespace Resolution.Setting

variable {setting : Setting} {place : Place} {defect : Defect}

/-- A resolution reports nothing but what its stages found. -/
theorem mem_collected_of_mem_run {tally : Tally}
    (member : defect ∈ (setting.run tally).defects) :
    defect ∈ setting.collected tally := by
  rw [run_eq] at member
  exact Defect.mem_of_mem_withoutRepeats member

/-- A resolution reports whatever its stages found, in its words. -/
theorem exists_worded {tally : Tally}
    (member : defect ∈ setting.collected tally) :
    ∃ reported ∈ (setting.run tally).defects,
      reported.message = defect.message := by
  rw [run_eq]
  exact (Defect.exists_mem_withoutRepeats member).resolve_left
    List.not_mem_nil

/-- A resolution reports every broken declaration in its own words, and among
legible names under its own name. -/
theorem exists_reported (breaks : setting.Breaks place defect)
    (tally : Tally) :
    ∃ reported ∈ (setting.run tally).defects,
      reported.message = defect.message ∧
        (setting.Legible → reported.entity = place.entity ∧
          reported.property? = some place.property) := by
  rcases exists_worded (mem_collected_of_breaks breaks tally) with
    ⟨reported, inside, same⟩
  refine ⟨reported, inside, same, fun legible => ?_⟩
  exact place_of_message legible breaks
    (located_of_mem_collected (mem_collected_of_mem_run inside)) same

end Resolution.Setting

namespace Registry

/-- A registry with a broken declaration does not freeze.  What is wrong is
reported in the words of the declaration, and where no name has dots, colons or
blanks to confuse places with, under its name. -/
theorem finalize_of_breaks {sources : Sources} {registry : Registry}
    (reachable : Reachable sources registry) {place : Place} {defect : Defect}
    (breaks : (registry.setting sources).Breaks place defect) (tally : Tally) :
    ∃ defects, (registry.finalize sources tally).outcome =
        .error (.invalid defects) ∧
      ∃ reported ∈ defects, reported.message = defect.message ∧
        ((registry.setting sources).Legible →
          reported.entity = place.entity ∧
            reported.property? = some place.property) := by
  have broken : ∀ earlier,
      ((registry.setting sources).run earlier).defects ≠ [] := by
    intro earlier none
    rcases Resolution.Setting.exists_reported breaks earlier with
      ⟨reported, inside, -⟩
    rw [none] at inside
    cases inside
  cases frozen : registry.graph with
  | some graph =>
      rcases reachable.run_of_frozen frozen with ⟨earlier, none, -⟩
      exact absurd none (broken earlier)
  | none =>
      exact ⟨_, finalize_eq_error frozen (broken tally),
        Resolution.Setting.exists_reported breaks tally⟩

end Registry

/-! ## A ledger -/

/-- Sales of which nothing is right: the order is a text and a relation at once,
the customer was never registered and the seller is never told. -/
def ledger : Registry :=
  (Registry.registerAll {} [
    { name := "Sale"
      properties := .ofList [
        ("id", { Options.typed "integer" with primary := true }),
        ("order", { Options.typed "string" with
          kind := some (.relation .manyToOne) }),
        ("customer", .manyToOne (.name "Customer")),
        ("seller", .embedded (.deferred 0))] }]).1

/-- A deferred reference that answers with itself. -/
def ledgerSources : Sources where
  reference source _ := .deferred source
  mapping _ _ := []
  hook _ _ := .null

/-- Each of the broken declarations of the ledger is reported under its name. -/
theorem finalize_of_breaks_ledger :
    Registry.Reachable ledgerSources ledger ∧
      (ledger.setting ledgerSources).Legible ∧
      ∃ defects, (ledger.finalize ledgerSources .empty).outcome =
          .error (.invalid defects) ∧
        ∀ name ∈ ["order", "customer", "seller"], ∃ reported ∈ defects,
          reported.entity = "Sale" ∧ reported.property? = some name := by
  have reachable : Registry.Reachable ledgerSources ledger :=
    (Registry.Reachable.new {}).registerAll _
  have steady : (ledger.setting ledgerSources).sources.Steady :=
    fun _ _ => rfl
  have legible : (ledger.setting ledgerSources).Legible :=
    ⟨by decide, by decide, by decide⟩
  have order : (ledger.setting ledgerSources).Breaks ⟨"Sale", "order"⟩
      (.configuration ⟨"Sale", "order"⟩ .typeForTarget) :=
    .options rfl rfl rfl
  have customer : (ledger.setting ledgerSources).Breaks ⟨"Sale", "customer"⟩
      (.unknownEntity ⟨"Sale", "customer"⟩ "Customer") :=
    @Resolution.Setting.Breaks.target _ _ _ _ (.unknown "Customer") steady rfl rfl
      rfl
  have seller : (ledger.setting ledgerSources).Breaks ⟨"Sale", "seller"⟩
      (.unsettledReference ⟨"Sale", "seller"⟩ 32) :=
    @Resolution.Setting.Breaks.target _ _ _ _ (.unsettled 32) steady rfl rfl rfl
  rcases Registry.finalize_of_breaks reachable order .empty with
    ⟨defects, refused, first, member, -, located⟩
  have reported : ∀ {place defect},
      (ledger.setting ledgerSources).Breaks place defect →
        ∃ reported ∈ defects, reported.entity = place.entity ∧
          reported.property? = some place.property := by
    intro place defect breaks
    rcases Registry.finalize_of_breaks reachable breaks .empty with
      ⟨others, again, other, inside, -, there⟩
    rw [refused] at again
    cases again
    exact ⟨other, inside, there legible⟩
  refine ⟨reachable, legible, defects, refused, ?_⟩
  simp only [List.forall_mem_cons, List.not_mem_nil, false_imp_iff,
    implies_true, and_true]
  exact ⟨reported order, reported customer, reported seller⟩

/-- Where the dot of a name is taken for the one between names, only one of two
broken declarations is reported. -/
example :
    (Registry.finalize ledgerSources (Registry.registerAll {} [
        { name := "Sales"
          properties := .ofList [
            ("id", { Options.typed "integer" with primary := true }),
            ("order.item", .manyToOne (.name "Item"))] },
        { name := "Sales.order"
          properties := .ofList [
            ("id", { Options.typed "integer" with primary := true }),
            ("item", .manyToOne (.name "Item"))] }]).1 .empty).outcome =
      .error (.invalid [.unknownEntity ⟨"Sales", "order.item"⟩ "Item"]) :=
  rfl

end EntityCatalog
