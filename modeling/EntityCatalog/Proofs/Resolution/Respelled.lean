import EntityCatalog.Proofs.Entity.Linking
import EntityCatalog.Proofs.Relation.Traversal
import EntityCatalog.Proofs.Resolution.Stages
import EntityCatalog.Resolution

/-!
# Resolutions that come to the same

All that a resolution learns of a reference is what looking it up gives.  So
references can be spelled anew and looked up elsewhere: as long as each of them
is answered as before (`Directory.Answers`), a resolution comes to the same, be
it entities or defects (`Resolution.run_respell`).

All that a resolution leaves behind is how often things were evaluated.  Where
references are answered alike on every evaluation, a later resolution notices
of that only what deferred enum mappings answer.  So two resolutions of the same
schemas come to the same if the mappings answer alike from both tallies on
(`Resolution.run_alike`).
-/

namespace EntityCatalog

/-! ## Tallies that make no difference -/

/-- From two tallies on, deferred enum mappings answer the same. -/
def Sources.AlikeFrom (sources : Sources) (left right : Tally) : Prop :=
  ∀ source later,
    sources.mapping source (left.count (.mapping source) + later) =
      sources.mapping source (right.count (.mapping source) + later)

namespace Sources

variable {sources other : Sources} {left right : Tally}

/-- Mappings that answer the same on every evaluation do so from everywhere. -/
theorem alikeFrom_of_steady
    (steady : ∀ source evaluation,
      sources.mapping source evaluation = sources.mapping source 0)
    (left right : Tally) : sources.AlikeFrom left right :=
  fun source _ => (steady source _).trans (steady source _).symm

namespace AlikeFrom

theorem refl (sources : Sources) (tally : Tally) :
    sources.AlikeFrom tally tally :=
  fun _ _ => rfl

theorem symm (alike : sources.AlikeFrom left right) :
    sources.AlikeFrom right left :=
  fun source later => (alike source later).symm

variable (alike : sources.AlikeFrom left right)

include alike

theorem of_sameMappings {after later : Tally} (first : left.SameMappings after)
    (second : right.SameMappings later) : sources.AlikeFrom after later := by
  intro source more
  rw [← first source, ← second source]
  exact alike source more

theorem record (source : Nat) :
    sources.AlikeFrom (left.record (.mapping source))
      (right.record (.mapping source)) := by
  intro asked later
  rw [Tally.count_record, Tally.count_record, Nat.add_assoc, Nat.add_assoc]
  exact alike asked _

/-- Evaluating the items of an enum gives the same. -/
theorem evaluate (mapping : other.mapping = sources.mapping)
    (part : Enumeration) :
    (part.evaluate sources left).1 = (part.evaluate other right).1 ∧
      sources.AlikeFrom (part.evaluate sources left).2
        (part.evaluate other right).2 := by
  unfold Enumeration.evaluate
  cases part.declared with
  | literal values => exact ⟨rfl, alike⟩
  | deferred source =>
      refine ⟨?_, alike.record source⟩
      simp only [evaluateMapping, mapping]
      exact congrArg (List.map _) (alike source 0)

end AlikeFrom

end Sources

/-! ## References that are answered alike -/

/-- The same targets were found, and enums go on alike. -/
structure Findings.AlikeFrom (sources : Sources) (left right : Findings) :
    Prop where
  tally : sources.AlikeFrom left.tally right.tally
  targets : left.targets = right.targets

namespace Directory

/-- A reference is answered as the one that stands for it elsewhere, at any
time. -/
def Answers (directory other : Directory) (reference spelled : EntityRef) :
    Prop :=
  ∀ tally later, (directory.lookUp reference tally).1 =
    (other.lookUp spelled later).1

/-- Steady sources answer a reference alike at any time. -/
theorem answers_of_steady {directory : Directory}
    (steady : directory.sources.Steady) (reference : EntityRef) :
    directory.Answers directory reference reference :=
  fun tally later => (lookUp_fst steady reference tally).trans
    (lookUp_fst steady reference later).symm

variable {directory other : Directory} {spell : EntityRef → EntityRef}

/-- Forcing a target that is known, or whose reference is answered alike. -/
theorem agree_force {target : Target}
    (answers : target.entity = none →
      directory.Answers other target.declared (spell target.declared))
    {left right : Findings} (alike : left.AlikeFrom directory.sources right)
    (place : Place) :
    Findings.Agree (Findings.AlikeFrom directory.sources)
      (left.force directory place target)
      (right.force other place (target.respell spell)) := by
  have entity : (target.respell spell).entity = target.entity :=
    rfl
  -- What is known is known on both sides, so both look up or neither does.
  unfold Findings.force Findings.target?
  rw [alike.targets, entity]
  cases known : target.entity <|> (right.targets.find? place).map Prod.snd with
  | some entity => exact ⟨rfl, alike⟩
  | none =>
      have unknown : target.entity = none := by
        cases open_target : target.entity with
        | none => rfl
        | some entity =>
            rw [open_target] at known
            cases known
      have answer : (directory.lookUp target.declared left.tally).1 =
          (other.lookUp (target.respell spell).declared right.tally).1 :=
        answers unknown left.tally right.tally
      have tally := alike.tally.of_sameMappings
        (directory.sameMappings_lookUp target.declared left.tally)
        (other.sameMappings_lookUp (target.respell spell).declared right.tally)
      generalize directory.lookUp target.declared left.tally = first
        at answer tally ⊢
      generalize other.lookUp (target.respell spell).declared right.tally =
        second at answer tally ⊢
      rcases first with ⟨found, after⟩
      rcases second with ⟨foundToo, later⟩
      dsimp only at answer tally
      subst answer
      cases found with
      | error | ok => exact ⟨rfl, tally, rfl⟩

/-- An open target of a property is answered alike. -/
def AnswersFor (directory other : Directory) (spell : EntityRef → EntityRef)
    (property : Property) : Prop :=
  ∀ target, property.target? = some target → target.entity = none →
    directory.Answers other target.declared (spell target.declared)

end Directory

/-! ## Bases -/

section

variable {directory other : Directory} {spell : EntityRef → EntityRef}
  {schemas : List Schema}
  (answers : ∀ schema ∈ schemas, ∀ reference, schema.base = some reference →
    directory.Answers other reference (spell reference))
  {left right : Tally} (alike : directory.sources.AlikeFrom left right)

include answers alike

theorem Bases.answers_respell :
    (Bases.answers directory schemas left).1 =
        (Bases.answers other (schemas.map (·.respell spell)) right).1 ∧
      directory.sources.AlikeFrom (Bases.answers directory schemas left).2
        (Bases.answers other (schemas.map (·.respell spell)) right).2 := by
  induction schemas generalizing left right with
  | nil => exact ⟨rfl, alike⟩
  | cons schema rest induction =>
      have further := fun {left right} => @induction
        (fun other inside => answers other (List.mem_cons_of_mem _ inside))
        left right
      have base : (schema.respell spell).base = schema.base.map spell := rfl
      rw [Bases.answers, List.map_cons, Bases.answers, base]
      cases declares : schema.base with
      | none => exact further alike
      | some reference =>
          have answer := answers schema (List.mem_cons_self ..) reference
            declares left right
          have tally := alike.of_sameMappings
            (directory.sameMappings_lookUp reference left)
            (other.sameMappings_lookUp (spell reference) right)
          rcases further tally with ⟨later, final⟩
          dsimp only [Option.map_some]
          rw [answer, later]
          exact ⟨rfl, final⟩

/-- Linking references that are answered alike finds the same bases. -/
theorem Bases.link_respell :
    (link directory schemas left).bases =
        (link other (schemas.map (·.respell spell)) right).bases ∧
      (link directory schemas left).defects =
        (link other (schemas.map (·.respell spell)) right).defects ∧
      directory.sources.AlikeFrom (link directory schemas left).tally
        (link other (schemas.map (·.respell spell)) right).tally := by
  rcases Bases.answers_respell answers alike with ⟨same, tally⟩
  have names : (schemas.map (·.respell spell)).map Schema.name =
      schemas.map Schema.name := by
    rw [List.map_map]
    rfl
  simp only [link, same, names, true_and]
  exact tally

end

/-! ## Completion -/

namespace Completion

/-- Completions that have come to the same, with findings that go on alike. -/
structure Progress.AlikeFrom (sources : Sources) (left right : Progress) :
    Prop where
  findings : left.findings.AlikeFrom sources right.findings
  items : left.items = right.items
  defects : left.defects = right.defects

section

variable {directory other : Directory} {spell : EntityRef → EntityRef}
  {left right : Progress} {property : Property}
  (mapping : other.sources.mapping = directory.sources.mapping)
  (answers : directory.AnswersFor other spell property)
  (alike : left.AlikeFrom directory.sources right)

include alike

theorem alike_findTarget {target : Target}
    (answers : target.entity = none →
      directory.Answers other target.declared (spell target.declared))
    (place : Place) :
    (left.findTarget directory place target).AlikeFrom directory.sources
      (right.findTarget other place (target.respell spell)) := by
  rcases (Directory.agree_force answers alike.findings place).cases with
    ⟨answer, after, later, first, second, related⟩
  unfold Progress.findTarget
  rw [first, second]
  refine ⟨related, alike.items, ?_⟩
  dsimp only
  rw [alike.defects]

include mapping

theorem alike_findItems (place : Place) (part : Enumeration) :
    (left.findItems directory place property part).AlikeFrom directory.sources
      (right.findItems other place (property.respell spell) part) := by
  rcases alike.findings.tally.evaluate mapping part with ⟨items, tally⟩
  have judged : (property.respell spell).defaultMisuse = property.defaultMisuse :=
    rfl
  unfold Progress.findItems
  dsimp only
  rw [items, judged, alike.items, alike.defects]
  exact ⟨⟨tally, alike.findings.targets⟩, rfl, rfl⟩

include answers

theorem alike_visit (invalid : List Place) :
    (left.visit directory invalid property).AlikeFrom directory.sources
      (right.visit other invalid (property.respell spell)) := by
  have pointed : ∀ target, property.target? = some target →
      (left.findTarget directory property.origin target).AlikeFrom
        directory.sources
        (right.findTarget other property.origin (target.respell spell)) :=
    fun target pointed =>
      alike_findTarget alike (answers target pointed) property.origin
  have nature : (property.respell spell).nature =
      property.nature.respell spell := rfl
  unfold Progress.visit
  rw [nature, Property.origin_respell]
  cases made : property.nature with
  | scalar => exact alike
  | enumeration part =>
      exact alike_findItems mapping alike property.origin part
  | embedded part =>
      dsimp only [Nature.respell]
      split
      · exact alike
      · exact pointed part.target (by rw [Property.target?, made])
  | relation part =>
      dsimp only [Nature.respell]
      split
      · exact alike
      · exact pointed part.target (by rw [Property.target?, made])

end

/-- Completing entities whose references are answered alike finds the same. -/
theorem alike_run {directory other : Directory}
    {spell : EntityRef → EntityRef}
    (mapping : other.sources.mapping = directory.sources.mapping)
    (invalid : List Place) {first second : Findings}
    (alike : first.AlikeFrom directory.sources second) {entities : Entities}
    (answers : ∀ property ∈ entities.items.flatMap Entity.ownProperties,
      directory.AnswersFor other spell property) :
    (run directory invalid first entities).AlikeFrom directory.sources
      (run other invalid second (entities.respell spell)) := by
  have start : Progress.AlikeFrom directory.sources { findings := first }
      { findings := second } :=
    ⟨alike, rfl, rfl⟩
  have own : (entities.respell spell).items.flatMap Entity.ownProperties =
      (entities.items.flatMap Entity.ownProperties).map
        (Property.respell spell) :=
    entities.ownProperties_retouch (.respelling spell)
  unfold run
  rw [own]
  generalize entities.items.flatMap Entity.ownProperties = properties
    at answers ⊢
  generalize ({ findings := first } : Progress) = left at start ⊢
  generalize ({ findings := second } : Progress) = right at start ⊢
  induction properties generalizing left right with
  | nil => exact start
  | cons property rest induction =>
      refine induction
        (fun other inside => answers other (List.mem_cons_of_mem _ inside)) _ _
        (alike_visit mapping (answers property (List.mem_cons_self ..)) start
          invalid)

/-- What was found is entered alike, however references are spelled. -/
theorem complete_respell {sources : Sources} {left right : Progress}
    (alike : left.AlikeFrom sources right) (spell : EntityRef → EntityRef)
    (entities : Entities) :
    (entities.respell spell).complete right =
      (entities.complete left).respell spell := by
  have same : ∀ property, right.complete (property.respell spell) =
      (left.complete property).respell spell := by
    intro property
    have nature : (property.respell spell).nature =
        property.nature.respell spell := rfl
    unfold Progress.complete
    rw [nature, Property.origin_respell, Findings.target?, Findings.target?,
      alike.items, alike.findings.targets]
    cases made : property.nature with
    | scalar => rfl
    | enumeration => exact (property.respell_withItems spell _).symm
    | embedded | relation =>
        dsimp only [Nature.respell]
        cases (right.findings.targets.find? property.origin).map Prod.snd with
        | none => rfl
        | some entity => exact (property.respell_withTarget spell _).symm
  refine Table.ext ?_
  change (entities.items.map _).map _ = (entities.items.map _).map _
  rw [List.map_map, List.map_map]
  refine List.map_congr_left fun entity _ => ?_
  have properties : (entity.properties.map (Property.respell spell)
      (Property.name_respell spell)).map right.complete right.name_complete =
        (entity.properties.map left.complete left.name_complete).map
          (Property.respell spell) (Property.name_respell spell) := by
    refine Table.ext ?_
    simp only [Table.items_map, List.map_map]
    exact List.map_congr_left fun property _ => same property
  exact congrArg (fun properties => { entity with properties := properties })
    properties

end Completion

/-! ## Resolutions -/

namespace Resolution.Setting

open Pairing

/-- What a resolution starts from, with all references spelled anew and other
sources. -/
def respell (setting : Setting) (other : Sources)
    (spell : EntityRef → EntityRef) : Setting :=
  ⟨setting.config, other, Schema.respellAll spell setting.schemas⟩

/-- All references are answered alike by other sources, once they are spelled
anew. -/
structure Answered (setting : Setting) (other : Sources)
    (spell : EntityRef → EntityRef) : Prop where
  names : ∀ name, spell (.name name) = .name name
  mapping : other.mapping = setting.sources.mapping
  bases : ∀ schema ∈ setting.schemas.items, ∀ reference,
    schema.base = some reference →
      setting.directory.Answers (setting.respell other spell).directory
        reference (spell reference)
  targets : ∀ schema ∈ setting.schemas.items,
    ∀ entry ∈ schema.properties.items, ∀ reference,
      entry.2.entity = some reference →
        setting.directory.Answers (setting.respell other spell).directory
          reference (spell reference)

variable {setting : Setting} {other : Sources}
  {spell : EntityRef → EntityRef} {tally later : Tally}

theorem misuses_respell :
    (setting.respell other spell).misuses = setting.misuses := by
  unfold misuses
  change (setting.schemas.items.map (Schema.respell spell)).flatMap _ = _
  rw [List.flatMap_map]
  exact List.flatMap_congr fun schema _ => schema.misuses_respell spell

theorem dropped_respell :
    (setting.respell other spell).dropped = setting.dropped := by
  rw [dropped, dropped, misuses_respell]

namespace Answered

variable (answered : setting.Answered other spell)

include answered

theorem answersFor_of_own {place : Place} {property : Property}
    (declared : setting.own place = some property) :
    setting.directory.AnswersFor (setting.respell other spell).directory spell
      property := by
  intro target pointed _
  rcases Option.bind_eq_some_iff.mp declared with ⟨schema, found, own⟩
  rcases Option.bind_eq_some_iff.mp own with ⟨entry, listed, read⟩
  exact answered.targets schema (Table.find?_eq_some found).1 entry
    (Table.find?_eq_some listed).1 _
    (Property.entity_of_ofOptions read pointed)

variable (alike : setting.sources.AlikeFrom tally later)

include alike

theorem linkedAt_respell :
    (setting.linkedAt tally).bases =
        ((setting.respell other spell).linkedAt later).bases ∧
      (setting.linkedAt tally).defects =
        ((setting.respell other spell).linkedAt later).defects ∧
      setting.sources.AlikeFrom (setting.linkedAt tally).tally
        ((setting.respell other spell).linkedAt later).tally :=
  Bases.link_respell answered.bases alike

theorem scopeAt_respell :
    (setting.respell other spell).scopeAt later =
      (setting.scopeAt tally).respell spell
        (setting.respell other spell).directory := by
  have bases := (answered.linkedAt_respell alike).1
  unfold scopeAt
  rw [← bases, dropped_respell]
  exact congrArg (fun entities => (⟨_, setting.config, entities,
    setting.dropped⟩ : Scope)) (Entities.ofSchemas_respell spell _ _)

omit alike in
theorem tracks_scopeAt :
    (setting.scopeAt tally).Tracks spell
      (setting.respell other spell).directory
      (Findings.AlikeFrom setting.sources) := by
  intro place property relation held related left right same
  have declared := (merges_scopeAt.declared_of_held held).1
  exact Directory.agree_force
    (answered.answersFor_of_own declared _
      (Property.target?_of_relation? related)) same _

theorem pairedAt_respell :
    (setting.pairedAt tally).Alike (Findings.AlikeFrom setting.sources)
      ((setting.respell other spell).pairedAt later) := by
  rcases answered.linkedAt_respell alike with ⟨-, -, linked⟩
  have start : Findings.AlikeFrom setting.sources
      { tally := (setting.linkedAt tally).tally }
      { tally := ((setting.respell other spell).linkedAt later).tally } :=
    ⟨linked, rfl⟩
  unfold pairedAt
  rw [answered.scopeAt_respell alike]
  exact Scope.run_respell answered.tracks_scopeAt start

theorem settledAt_respell :
    (setting.respell other spell).settledAt later =
      (setting.settledAt tally).respell spell := by
  unfold settledAt
  rw [answered.scopeAt_respell alike,
    ← (answered.pairedAt_respell alike).decisions]
  exact Settlement.carryOut_respell spell answered.names _ _

theorem invalidAt_respell :
    (setting.respell other spell).invalidAt later = setting.invalidAt tally := by
  rw [invalidAt, invalidAt, dropped_respell,
    (answered.pairedAt_respell alike).missed]

omit alike in
/-- The open targets of settled properties are those of declared ones. -/
theorem answersFor_of_settled {property : Property}
    (held : (setting.settledAt tally).entities.property? property.origin =
      some property) :
    setting.directory.AnswersFor (setting.respell other spell).directory spell
      property := by
  rcases settledAt_cases held with
    ⟨before, sides, earlier, rfl⟩ | ⟨-, synthesis, sides, -, rfl⟩
  · intro target pointed
    rw [Property.target?_withSides] at pointed
    exact answered.answersFor_of_own
      (merges_scopeAt.declared_of_held earlier).1 target pointed
  · intro target pointed unknown
    rw [Property.target?_withSides] at pointed
    cases pointed
    cases unknown

theorem visitedAt_respell :
    (setting.visitedAt tally).AlikeFrom setting.sources
      ((setting.respell other spell).visitedAt later) := by
  unfold visitedAt
  rw [answered.invalidAt_respell alike, answered.settledAt_respell alike]
  exact Completion.alike_run answered.mapping _
    (answered.pairedAt_respell alike).findings fun property own =>
      answered.answersFor_of_settled (Entities.mem_ownProperties_iff.mp own)

theorem entitiesAt_respell :
    (setting.respell other spell).entitiesAt later =
      (setting.entitiesAt tally).respell spell := by
  unfold entitiesAt
  rw [answered.settledAt_respell alike]
  have completed := Completion.complete_respell
    (answered.visitedAt_respell alike) spell (setting.settledAt tally).entities
  exact (congrArg Entities.index completed).trans
    (Entities.index_retouch _ (.respelling spell))

theorem keyDefectsAt_respell :
    (setting.respell other spell).keyDefectsAt later =
      setting.keyDefectsAt tally := by
  unfold keyDefectsAt
  rw [answered.invalidAt_respell alike, answered.entitiesAt_respell alike,
    show (setting.respell other spell).schemas =
      Schema.respellAll spell setting.schemas from rfl,
    Entities.keyDefects_respell]
  rfl

/-- References that are answered alike lead to the same entities, spelled anew,
and the same defects. -/
theorem run_respell :
    ((setting.respell other spell).run later).entities =
        (setting.run tally).entities.respell spell ∧
      ((setting.respell other spell).run later).defects =
        (setting.run tally).defects := by
  have collected : (setting.respell other spell).collected later =
      setting.collected tally := by
    have embedding : ((setting.respell other spell).entitiesAt
        later).embeddingDefects = (setting.entitiesAt tally).embeddingDefects := by
      rw [answered.entitiesAt_respell alike]
      exact Entities.embeddingDefects_retouch _ (.respelling spell)
    rw [Setting.collected, Setting.collected, misuses_respell,
      ← (answered.linkedAt_respell alike).2.1,
      ← (answered.pairedAt_respell alike).defects,
      answered.settledAt_respell alike,
      ← (answered.visitedAt_respell alike).defects, embedding,
      answered.keyDefectsAt_respell alike]
    rfl
  rw [run_eq, run_eq, collected]
  exact ⟨answered.entitiesAt_respell alike, rfl⟩

end Answered

end Resolution.Setting

/-- Resolutions from alike tallies come to the same. -/
theorem Resolution.run_alike {sources : Sources} (steady : sources.Steady)
    (config : Config) (schemas : Table Schema.name) {left right : Tally}
    (alike : sources.AlikeFrom left right) :
    (run config sources schemas left).entities =
        (run config sources schemas right).entities ∧
      (run config sources schemas left).defects =
        (run config sources schemas right).defects := by
  let setting : Setting := ⟨config, sources, schemas⟩
  have one : setting.respell sources id = setting := by
    rw [Setting.respell, Schema.respellAll_id]
  have answered : setting.Answered sources id := by
    refine ⟨fun _ => rfl, rfl, fun _ _ reference _ => ?_,
      fun _ _ _ _ reference _ => ?_⟩ <;>
    · rw [one]
      exact Directory.answers_of_steady steady reference
  rcases answered.run_respell alike with ⟨entities, defects⟩
  rw [one, Entities.respell_id] at entities
  rw [one] at defects
  exact ⟨entities.symm, defects.symm⟩

end EntityCatalog
