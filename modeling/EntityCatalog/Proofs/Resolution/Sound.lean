import EntityCatalog.Proofs.Entity.Linked
import EntityCatalog.Proofs.Entity.Linking
import EntityCatalog.Proofs.Relation.Cleared
import EntityCatalog.Resolution

/-!
# Resolutions without defects

With steady sources each stage of a resolution that finds nothing wrong can be
read off the schemas alone.  A `Setting` is what a resolution starts from, and
its functions are the results of the stages when nothing is dropped.
`Setting.Sound` says that the stages up to the settlement of relations find
nothing wrong.  Then a property of the result is the settled one with its
target filled in (`Sound.outline_result`), and the resolution succeeds exactly
if in addition the defaults of enums hold, embedding is in order and no
primary key is missing (`silent_run_iff`).
-/

namespace EntityCatalog

namespace Resolution

/-! ## Stages -/

/-- What a resolution starts from. -/
structure Setting where
  config : Config
  sources : Sources
  schemas : Table Schema.name

namespace Setting

variable (setting : Setting)

/-- Where references are looked up. -/
def directory : Directory :=
  ⟨setting.sources, setting.config.maxDeferredDepth, setting.schemas.keys⟩

/-- The entities with their inherited properties. -/
def merged : Entities :=
  Entities.ofSchemas setting.schemas
    (Bases.ofSchemas setting.directory setting.schemas.items)

/-- What pairing looks at. -/
def scope : Pairing.Scope :=
  ⟨setting.directory, setting.config, setting.merged, []⟩

/-- The properties that the schemas declare. -/
def own : Place → Option Property :=
  Entities.declaredAt setting.schemas

/-- What came of carrying out the decisions about relations. -/
def settled : Entities :=
  (Settlement.carryOut setting.merged setting.scope.decisions).entities

/-- What completion finds out. -/
def visited (findings : Findings) : Completion.Progress :=
  Completion.run setting.directory [] findings setting.settled

/-- The entities in the end. -/
def result (findings : Findings) : Entities :=
  (setting.settled.complete (setting.visited findings)).index

/-- The entities that lack a primary key, if one is demanded. -/
def keyDefects (findings : Findings) : List Defect :=
  if setting.config.requirePrimaryKey then
    (setting.result findings).keyDefects setting.schemas []
  else []

end Setting

/-- The stages up to the settlement of relations find nothing wrong. -/
structure Setting.Related (setting : Setting) : Prop where
  fits : setting.schemas.items.flatMap Schema.misuses = []
  linkable : Bases.Linkable setting.directory setting.schemas.items
  cleared : setting.scope.Cleared setting.own
  accepts : setting.merged.Accepts setting.scope.decisions

/-- Besides, all targets are found. -/
structure Setting.Sound (setting : Setting) : Prop
    extends Setting.Related setting where
  finds : ∀ place property, setting.own place = some property →
    setting.directory.Finds property

variable {setting : Setting}

theorem Setting.coherent (steady : setting.sources.Steady)
    (linkable : Bases.Linkable setting.directory setting.schemas.items) :
    setting.scope.Coherent setting.own where
  steady := steady
  merges := (linkable.forest rfl).merges_ofSchemas
  lawful := fun _ _ declared =>
    (Entities.lawful_of_declaredAt declared).2
  names := by
    intro name registered
    rw [Setting.scope, Setting.merged, Entities.keys_ofSchemas]
    exact registered

/-! ## Settled properties -/

namespace Setting.Related

variable (sound : setting.Related)

include sound

theorem merges : setting.merged.Merges setting.own :=
  sound.cleared.merges

/-- What came of the decisions. -/
theorem carried :
    Settlement.Carried setting.merged setting.scope.Proposed
      (syntheses setting.scope.decisions)
      (Settlement.carryOut setting.merged setting.scope.decisions) := by
  have addressed : ∀ decision ∈ setting.scope.decisions,
      setting.merged.Addresses decision :=
    fun decision member => sound.cleared.addresses member
  exact Settlement.carried_carryOut sound.merges addressed
    ((Settlement.silent_carryOut_iff sound.merges addressed).mpr sound.accepts)

/-- A settled property was held before, with other sides, or was added. -/
theorem settled_cases {place : Place} {property : Property}
    (held : setting.settled.property? place = some property) :
    (∃ before sides, setting.merged.property? place = some before ∧
        property = before.withSides sides ∧
        ∀ relation, before.relation? = some relation →
          relation.sides.Agreed (setting.scope.Proposed place) sides) ∨
      setting.merged.property? place = none ∧
        ∃ synthesis ∈ syntheses setting.scope.decisions,
          synthesis.covers setting.merged place = true ∧
            property = synthesis.property :=
  sound.carried.property_cases held

theorem own_of_added {synthesis : Synthesis}
    (member : synthesis ∈ syntheses setting.scope.decisions) :
    setting.own synthesis.place = none := by
  cases declared : setting.own synthesis.place with
  | none => rfl
  | some property =>
      have held := sound.merges.held_of_declared declared
      rw [sound.accepts.free synthesis member] at held
      cases held

/-- The target of a settled property is open and declared, or known. -/
theorem linkable_of_settled {place : Place} {property : Property}
    (held : setting.settled.property? place = some property) :
    Linkable (references setting.own) property := by
  rcases sound.settled_cases held with
    ⟨before, sides, first, rfl, -⟩ | ⟨-, synthesis, member, -, rfl⟩
  · intro target pointed
    rw [Property.target?_withSides] at pointed
    rw [Property.origin_withSides]
    exact Or.inl (sound.cleared.open_target first pointed).symm
  · intro target pointed
    cases pointed
    refine Or.inr ⟨by simp, ?_⟩
    rw [references, show synthesis.property.origin = synthesis.place from rfl,
      sound.own_of_added member]
    rfl

theorem alike_result (findings : Findings) :
    (setting.result findings).Alike setting.merged :=
  (Entities.alike_index _).trans
    ((Entities.alike_complete _ _).trans sound.carried.alike)

theorem exists_settled_of_own {place : Place} {property : Property}
    (declared : setting.own place = some property) :
    ∃ sides, property.withSides sides ∈
      setting.settled.items.flatMap Entity.ownProperties := by
  have held := sound.merges.held_of_declared declared
  rcases sound.carried.held place property held with ⟨sides, kept, -⟩
  refine ⟨sides, ?_⟩
  rw [Entities.mem_ownProperties_iff, Property.origin_withSides,
    sound.merges.placed place property declared]
  exact kept

/-- What completion finds out, and when it finds nothing wrong. -/
theorem visited_reads {findings : Findings} {start : Tally}
    (faithful : findings.Faithful setting.directory (references setting.own)
      start) :
    (setting.visited findings).Right setting.directory
        (references setting.own) ∧
      (∀ property ∈ setting.settled.items.flatMap Entity.ownProperties,
        (setting.visited findings).Knows setting.directory property) ∧
      ((setting.visited findings).defects = [] ↔
        (∀ property ∈ setting.settled.items.flatMap Entity.ownProperties,
          setting.directory.Finds property) ∧
        DefaultsHold setting.sources
          (setting.settled.items.flatMap Entity.ownProperties) start) := by
  have linkable : ∀ property ∈
      setting.settled.items.flatMap Entity.ownProperties,
        Linkable (references setting.own) property :=
    fun property member =>
      sound.linkable_of_settled (Entities.mem_ownProperties_iff.mp member)
  have before : Completion.Progress.Right { findings := findings }
      setting.directory (references setting.own) :=
    faithful.rebase findings.tally
  rcases Completion.visit_all sound.cleared.steady _ linkable before with
    ⟨right, -, knows, silent⟩
  refine ⟨right, knows, silent.trans ?_⟩
  rw [DefaultsHold.congr _ faithful.mappings]
  exact and_iff_right rfl

end Setting.Related

/-! ## Completed properties -/

namespace Setting.Sound

variable (sound : setting.Sound)

include sound

theorem finds_of_settled {place : Place} {property : Property}
    (held : setting.settled.property? place = some property) :
    setting.directory.Finds property := by
  rcases sound.settled_cases held with
    ⟨before, sides, first, rfl, -⟩ | ⟨-, synthesis, -, -, rfl⟩
  · intro target pointed
    rw [Property.target?_withSides] at pointed
    exact sound.finds _ _ (sound.merges.declared_of_held first).1 target
      pointed
  · intro target pointed unknown
    cases pointed
    cases unknown

/-- What completion enters into a settled property. -/
theorem complete_settled {findings : Findings} {start : Tally}
    (faithful : findings.Faithful setting.directory (references setting.own)
      start)
    {place : Place} {property : Property}
    (held : setting.settled.property? place = some property) :
    (setting.visited findings).complete property =
      (setting.directory.link property).withItems
        (((setting.visited findings).items.find? property.origin).map
          Prod.snd) := by
  rcases sound.visited_reads faithful with ⟨right, knows, -⟩
  refine Completion.complete_eq right (sound.linkable_of_settled held) ?_
    (sound.finds_of_settled held)
  rcases sound.settled_cases held with
    ⟨before, sides, first, rfl, -⟩ | ⟨-, synthesis, -, -, rfl⟩
  · -- The copy at the origin was looked at.
    rcases sound.exists_settled_of_own
      (sound.merges.declared_of_held first).1 with ⟨others, visited⟩
    exact (knows _ visited).of_copy (by simp) (by simp)
  · intro target pointed unknown
    cases pointed
    cases unknown

/-- A property of the result is the settled one with its target filled in. -/
theorem outline_result {findings : Findings} {start : Tally}
    (faithful : findings.Faithful setting.directory (references setting.own)
      start)
    (place : Place) :
    ((setting.result findings).property? place).map Property.outline =
      (setting.settled.property? place).map fun property =>
        (setting.directory.link property).outline := by
  rw [Setting.result, Entities.property?_index, Entities.property?_complete,
    Option.map_map]
  cases held : setting.settled.property? place with
  | none => rfl
  | some property =>
      rw [Option.map_some, Option.map_some, Function.comp_apply,
        sound.complete_settled faithful held, Property.outline_withItems]

end Setting.Sound

/-! ## Whole resolutions -/

theorem withoutRepeats_eq_nil_iff (defects : List Defect) :
    Defect.withoutRepeats [] defects = [] ↔ defects = [] := by
  cases defects with
  | nil => simp [Defect.withoutRepeats]
  | cons defect rest => simp [Defect.withoutRepeats]

/-- What pairing finds out. -/
def Setting.findings (setting : Setting) (tally : Tally) : Findings :=
  (setting.scope.run { tally := (Bases.link setting.directory
    setting.schemas.items tally).tally }).findings

/-- Resolve the schemas of a setting. -/
abbrev Setting.run (setting : Setting) (tally : Tally) : Resolution :=
  Resolution.run setting.config setting.sources setting.schemas tally

namespace Setting.Related

variable (sound : setting.Related)

include sound

theorem clean_run (tally : Tally) :
    (setting.scope.run { tally := (Bases.link setting.directory
      setting.schemas.items tally).tally }).Clean setting.scope setting.own
        tally setting.scope.decisions := by
  have linkSilent := (Bases.silent_link_iff sound.cleared.steady
    setting.schemas.items tally).mpr sound.linkable
  exact sound.cleared.run_clean
    (Bases.link_reads sound.cleared.steady linkSilent).2 sound.cleared.clears

theorem faithful_findings (tally : Tally) :
    (setting.findings tally).Faithful setting.directory
      (references setting.own) tally :=
  (sound.clean_run tally).faithful

/-- A resolution whose first stages find nothing wrong. -/
theorem run_eq (tally : Tally) :
    (setting.run tally).entities =
        setting.result (setting.findings tally) ∧
      (setting.run tally).defects =
        Defect.withoutRepeats []
          ((setting.visited (setting.findings tally)).defects ++
            (setting.result (setting.findings tally)).embeddingDefects ++
            setting.keyDefects (setting.findings tally)) := by
  have linkSilent := (Bases.silent_link_iff sound.cleared.steady
    setting.schemas.items tally).mpr sound.linkable
  have linked := (Bases.link_reads sound.cleared.steady linkSilent).1
  have clean := sound.clean_run tally
  have decided := clean.decisions
  have missed := clean.missed
  have paired := clean.defects
  have settled := sound.carried.silent
  have fits := sound.fits
  simp only [Setting.run, Resolution.run, Setting.result, Setting.findings,
    Setting.visited, Setting.settled, Setting.keyDefects, Setting.scope,
    Setting.merged, Setting.directory] at *
  simp only [fits, linked, List.map_nil, linkSilent, decided, missed, paired,
    settled, List.nil_append, List.append_nil, and_self]

end Setting.Related

/-- Where nothing is wrong, all options fit together, all bases are linked, all
relations are paired and their decisions go together. -/
theorem related_of_silent (steady : setting.sources.Steady) {tally : Tally}
    (silent : (setting.run tally).defects = []) :
    setting.Related := by
  rw [Setting.run, Resolution.run, withoutRepeats_eq_nil_iff] at silent
  simp only [List.append_eq_nil_iff, List.map_eq_nil_iff] at silent
  rcases silent with ⟨⟨⟨⟨⟨⟨fits, linking⟩, pairing⟩, settling⟩, -⟩, -⟩, -⟩
  have linkable : Bases.Linkable setting.directory setting.schemas.items :=
    (Bases.silent_link_iff steady setting.schemas.items tally).mp linking
  have linked : (Bases.link ⟨setting.sources, setting.config.maxDeferredDepth,
      setting.schemas.keys⟩ setting.schemas.items tally).bases =
        Bases.ofSchemas setting.directory setting.schemas.items :=
    (Bases.link_reads steady linking).1
  rw [fits, List.map_nil, linked] at pairing settling
  have coherent := Setting.coherent steady linkable
  have clears : ∀ side, side.Held setting.scope.entities →
      setting.scope.Clears side :=
    fun side held => coherent.clears_of_silent pairing held
  have cleared : setting.scope.Cleared setting.own := ⟨coherent, rfl, clears⟩
  have clean := coherent.run_clean
    (Bases.link_reads steady linking).2 clears
  have addressed : ∀ decision ∈ setting.scope.decisions,
      setting.merged.Addresses decision :=
    fun decision member => cleared.addresses member
  refine ⟨fits, linkable, cleared,
    (Settlement.silent_carryOut_iff coherent.merges addressed).mp ?_⟩
  rw [← clean.decisions]
  exact settling

/-- A resolution finds nothing wrong exactly if its stages up to the settlement
of relations do not, all targets are found, the defaults of enums hold,
embedding is in order and no primary key is missing. -/
theorem silent_run_iff (steady : setting.sources.Steady) (tally : Tally) :
    (setting.run tally).defects = [] ↔
      setting.Sound ∧
        DefaultsHold setting.sources
          (setting.settled.items.flatMap Entity.ownProperties) tally ∧
        (setting.result (setting.findings tally)).embeddingDefects = [] ∧
        setting.keyDefects (setting.findings tally) = [] := by
  constructor
  · intro silent
    have related := related_of_silent steady silent
    rw [(related.run_eq tally).2, withoutRepeats_eq_nil_iff] at silent
    simp only [List.append_eq_nil_iff] at silent
    rcases silent with ⟨⟨completing, embedding⟩, keys⟩
    rcases (related.visited_reads (related.faithful_findings tally)).2.2.mp
      completing with ⟨finds, hold⟩
    refine ⟨⟨related, ?_⟩, hold, embedding, keys⟩
    intro place property declared target pointed
    rcases related.exists_settled_of_own declared with ⟨sides, member⟩
    exact finds _ member target (by rw [Property.target?_withSides, pointed])
  · rintro ⟨sound, hold, embedding, keys⟩
    have related := sound.toRelated
    have finds : ∀ property ∈
        setting.settled.items.flatMap Entity.ownProperties,
          setting.directory.Finds property :=
      fun property member =>
        sound.finds_of_settled (Entities.mem_ownProperties_iff.mp member)
    have completing :=
      (related.visited_reads (related.faithful_findings tally)).2.2.mpr
        ⟨finds, hold⟩
    rw [(related.run_eq tally).2, withoutRepeats_eq_nil_iff]
    simp only [List.append_eq_nil_iff]
    exact ⟨⟨completing, embedding⟩, keys⟩

end Resolution

end EntityCatalog
