import EntityCatalog.Proofs.Registry.Broken
import EntityCatalog.Proofs.Resolution.Located

/-!
# Reports belong to declarations

Whatever a registry reports when it refuses to freeze, it reports about a
registered entity.  Nearly always the report is about a property that the entity
or one of its bases declares, or about its reference to the base.  One kind of
report strays from the declarations: a many-to-many relation that an entity
declares which is only stored inside others gets an inverse, and it is the
inverse, which nobody declared, that is said to point at a wrong entity.  The
report then names the inverse and the entity that got it
(`Registry.finalize_of_strays`).
-/

namespace EntityCatalog

namespace Resolution.Setting

/-- A defect belongs to a registered entity.  If it names a property, the entity
or one of its bases declares it, or the defect is about the reference of the
entity to its base. -/
structure Locates (setting : Setting) (tally : Tally) (defect : Defect) :
    Prop where
  registered : defect.entity ∈ setting.schemas.keys
  named : ∀ name, defect.property? = some name →
    setting.Declares tally ⟨defect.entity, name⟩ ∨
      name = "extends" ∧ ∃ miss, setting.Misses defect.entity miss ∧
        defect = miss.baseDefect defect.entity

/-- A defect names an inverse that nobody declared: the resolution added it for
the relation at the source, which belongs to an entity that is only stored
inside others. -/
inductive Strays (setting : Setting) (tally : Tally) : Defect → Prop
  | intro {source place : Place} (added : setting.Adds tally source place)
      (embeddable : setting.Embeddable source.entity)
      (undeclared : ¬setting.Declares tally place) :
      setting.Strays tally
        (.configuration place (.embeddableTarget source.entity))

variable {setting : Setting} {tally : Tally} {place : Place} {defect : Defect}

theorem locates_of_declares (declared : setting.Declares tally place)
    (entity : defect.entity = place.entity)
    (property : defect.property? = some place.property) :
    setting.Locates tally defect := by
  refine ⟨entity ▸ declared.registered, fun name named => Or.inl ?_⟩
  rw [property] at named
  cases named
  exact entity ▸ declared

theorem locates_of_entity (registered : defect.entity ∈ setting.schemas.keys)
    (nameless : defect.property? = none) : setting.Locates tally defect := by
  refine ⟨registered, fun name named => ?_⟩
  rw [nameless] at named
  cases named

theorem locates_of_misses {entity : String} {miss : Miss}
    (misses : setting.Misses entity miss) :
    setting.Locates tally (miss.baseDefect entity) := by
  have registered : entity ∈ setting.schemas.keys := by
    rcases misses with ⟨schema, reference, found, -⟩
    exact Table.mem_keys_of_find? found
  cases miss with
  | unsettled evaluations =>
      refine ⟨registered, fun name named => Or.inr ?_⟩
      cases named
      exact ⟨rfl, _, misses, rfl⟩
  | unknown name => exact locates_of_entity registered rfl

/-- What strays belongs to no declaration, although the relation that it is
about does. -/
theorem Strays.not_locates (strays : setting.Strays tally defect) :
    ¬setting.Locates tally defect := by
  cases strays with
  | intro added embeddable undeclared =>
      intro located
      rcases located.named _ rfl with declared | ⟨-, miss, -, same⟩
      · exact undeclared declared
      · cases miss <;> cases same

/-- What is located belongs to a declaration, unless it strays from there. -/
theorem Located.locates_or_strays (located : setting.Located tally defect) :
    setting.Locates tally defect ∨ setting.Strays tally defect := by
  cases located with
  | @added source place added embeddable =>
      by_cases declared : setting.Declares tally place
      · exact Or.inl (locates_of_declares declared rfl rfl)
      · exact Or.inr (.intro added embeddable declared)
  | missed declared miss =>
      refine Or.inl (locates_of_declares declared ?_ ?_) <;> cases miss <;> rfl
  | base misses => exact Or.inl (locates_of_misses misses)
  | cycle registered chain => exact Or.inl (locates_of_entity registered rfl)
  | key registered => exact Or.inl (locates_of_entity registered rfl)
  | misused declared | ambiguous declared | dangling declared
  | otherKind declared | otherTarget declared =>
      exact Or.inl (locates_of_declares declared rfl rfl)

theorem Strays.registered (strays : setting.Strays tally defect) :
    defect.entity ∈ setting.schemas.keys := by
  cases strays with
  | intro added embeddable undeclared => exact added.declares.2

end Resolution.Setting

namespace Registry

/-- What a refused attempt reports is what the resolution found. -/
theorem mem_collected_of_invalid {sources : Sources} {registry : Registry}
    {tally : Tally} {defects : List Defect} {reported : Defect}
    (refused : (registry.finalize sources tally).outcome =
      .error (.invalid defects))
    (member : reported ∈ defects) :
    reported ∈ (registry.setting sources).collected tally := by
  cases frozen : registry.graph with
  | some graph =>
      unfold finalize at refused
      rw [frozen] at refused
      cases refused
  | none =>
      by_cases silent : ((registry.setting sources).run tally).defects = []
      · have frozen := (finalize_eq_ok_iff frozen tally
          ⟨((registry.setting sources).run tally).entities⟩).mpr ⟨silent, rfl⟩
        rw [refused] at frozen
        cases frozen
      · rw [finalize_eq_error frozen silent] at refused
        cases refused
        exact Resolution.Setting.mem_collected_of_mem_run member

/-- An attempt is refused if something is wrong at any time.  Then it reports
what is wrong now, in all its wordings and nothing else. -/
theorem Reachable.exists_invalid {sources : Sources} {registry : Registry}
    (reachable : Reachable sources registry)
    (wrong : ∀ earlier, (registry.setting sources).collected earlier ≠ [])
    (tally : Tally) :
    ∃ defects, (registry.finalize sources tally).outcome =
        .error (.invalid defects) ∧
      (∀ reported ∈ defects,
        reported ∈ (registry.setting sources).collected tally) ∧
      ∀ defect ∈ (registry.setting sources).collected tally,
        ∃ reported ∈ defects, reported.message = defect.message := by
  have broken : ∀ earlier,
      ((registry.setting sources).run earlier).defects ≠ [] := by
    intro earlier none
    rcases List.exists_mem_of_ne_nil _ (wrong earlier) with ⟨defect, member⟩
    rcases Resolution.Setting.exists_worded member with ⟨reported, inside, -⟩
    rw [none] at inside
    cases inside
  cases frozen : registry.graph with
  | some graph =>
      rcases reachable.run_of_frozen frozen with ⟨earlier, none, -⟩
      exact absurd none (broken earlier)
  | none =>
      have refused := finalize_eq_error frozen (broken tally)
      exact ⟨_, refused, fun reported => mem_collected_of_invalid refused,
        fun defect => Resolution.Setting.exists_worded⟩

/-- All that a registry reports is reported about registered entities.  It is
located at declarations exactly if it does not stray to an inverse that was
added for an entity that is only stored inside others. -/
theorem finalize_of_strays {sources : Sources} {registry : Registry}
    {tally : Tally} {defects : List Defect}
    (refused : (registry.finalize sources tally).outcome =
      .error (.invalid defects)) :
    ∀ reported ∈ defects, reported.entity ∈ registry.schemas.keys ∧
      ((registry.setting sources).Locates tally reported ↔
        ¬(registry.setting sources).Strays tally reported) := by
  intro reported member
  have located := Resolution.Setting.located_of_mem_collected
    (mem_collected_of_invalid refused member)
  rcases located.locates_or_strays with here | astray
  · exact ⟨here.registered, fun _ strays => strays.not_locates here,
      fun _ => here⟩
  · exact ⟨astray.registered, fun here => absurd here astray.not_locates,
      fun kept => absurd astray kept⟩

end Registry

/-! ## Tagged addresses -/

/-- Addresses are only stored inside others but have tags.  Who owns a tag is
not registered. -/
def taggedAddresses : Registry :=
  .ofSchemas {} [
    { name := "Address"
      embeddable := true
      properties := .ofList [
        ("street", .typed "string"),
        ("tags", .manyToMany (.name "Tag"))] },
    { name := "Tag"
      properties := .ofList [
        ("id", { Options.typed "integer" with primary := true }),
        ("owner", .manyToOne (.name "Person"))] }]

/-- Two things are wrong with tagged addresses.  What is said of the owner of a
tag is located there, and what is said of the tags of an address strays to an
inverse that nobody declared. -/
theorem finalize_of_strays_taggedAddresses :
    (taggedAddresses.finalize ledgerSources .empty).outcome =
        .error (.invalid [
          .unknownEntity ⟨"Tag", "owner"⟩ "Person",
          .configuration ⟨"Tag", "address_tags"⟩
            (.embeddableTarget "Address")]) ∧
      (taggedAddresses.setting ledgerSources).Locates .empty
        (.unknownEntity ⟨"Tag", "owner"⟩ "Person") ∧
      (taggedAddresses.setting ledgerSources).Strays .empty
        (.configuration ⟨"Tag", "address_tags"⟩
          (.embeddableTarget "Address")) := by
  have refused : (taggedAddresses.finalize ledgerSources .empty).outcome =
      .error (.invalid [
        .unknownEntity ⟨"Tag", "owner"⟩ "Person",
        .configuration ⟨"Tag", "address_tags"⟩
          (.embeddableTarget "Address")]) :=
    rfl
  have reports := Registry.finalize_of_strays refused
  refine ⟨refused, ?_, ?_⟩
  · refine (reports _ (by simp)).2.mpr fun strays => ?_
    cases strays
  · by_contra kept
    rcases ((reports _ (by simp)).2.mpr kept).named _ rfl with
      ⟨-, schema, registered, declared, -⟩ | ⟨-, miss, -, same⟩
    · have undeclared : ∀ schema ∈ taggedAddresses.schemas.items,
          "address_tags" ∉ schema.properties.keys := by
        decide
      exact undeclared schema registered declared
    · cases miss <;> cases same

end EntityCatalog
