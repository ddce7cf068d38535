import EntityCatalog.Proofs.Registry.Reachable
import EntityCatalog.Proofs.Resolution.Respelled
import EntityCatalog.Snapshot.Basic

/-!
# The form of references

A reference can be a name, a schema of that name or deferred.  Two registries
whose references always settle alike, however they are written, are frozen with
equal snapshots or refused with the same defects
(`Registry.finalize_of_respells`).

Neither form is compared with the other.  Every reference that always settles on
a name has a plain spelling, which is the name, and both registries come to what
the registry in plain spelling comes to.
-/

namespace EntityCatalog

/-! ## References that settle alike -/

namespace EntityRef

variable {sources : Sources} {depth : Nat} {reference left right : EntityRef}

/-- Whenever it is followed, a reference settles on a name, or it never settles
in time. -/
def SettlesOn (sources : Sources) (depth : Nat) (reference : EntityRef)
    (outcome : Option String) : Prop :=
  ∀ tally, (reference.settle sources depth tally).1 = outcome

/-- Two references always settle alike. -/
def Respells (sources : Sources) (depth : Nat) (left right : EntityRef) :
    Prop :=
  ∃ outcome, left.SettlesOn sources depth outcome ∧
    right.SettlesOn sources depth outcome

theorem settle_name (sources : Sources) (depth : Nat) (entity : String)
    (tally : Tally) :
    (name entity).settle sources depth tally = (some entity, tally) := by
  cases depth <;> rfl

/-- The name that a reference settles on.  For what never settles it is some
deferred reference. -/
def ofOutcome : Option String → EntityRef
  | some entity => .name entity
  | none => .deferred 0

/-- The plain spelling of a reference. -/
def plain (sources : Sources) (depth : Nat) (reference : EntityRef) :
    EntityRef :=
  ofOutcome (reference.settle sources depth .empty).1

theorem plain_of_settlesOn {outcome : Option String}
    (settles : reference.SettlesOn sources depth outcome) :
    reference.plain sources depth = ofOutcome outcome :=
  congrArg ofOutcome (settles .empty)

theorem Respells.plain_eq (respells : left.Respells sources depth right) :
    left.plain sources depth = right.plain sources depth := by
  rcases respells with ⟨outcome, first, second⟩
  rw [plain_of_settlesOn first, plain_of_settlesOn second]

end EntityRef

/-- Sources whose deferred references never settle, with the same enum
mappings. -/
def Sources.unsettling (sources : Sources) : Sources :=
  { sources with reference := fun source _ => .deferred source }

theorem EntityRef.settle_unsettling (sources : Sources) (depth source : Nat)
    (tally : Tally) :
    ((deferred source).settle sources.unsettling depth tally).1 = none := by
  induction depth generalizing tally with
  | zero => rfl
  | succ depth induction => exact induction _

/-- A plain spelling settles on the name it was made of, if on any. -/
theorem EntityRef.settle_ofOutcome (sources : Sources) (depth : Nat)
    (outcome : Option String) (tally : Tally) :
    ((ofOutcome outcome).settle sources.unsettling depth tally).1 =
      outcome := by
  cases outcome with
  | some entity => exact congrArg Prod.fst (settle_name _ depth entity tally)
  | none => exact settle_unsettling sources depth 0 tally

/-- In plain spelling a reference is answered as before. -/
theorem Directory.answers_plain (directory : Directory)
    {reference : EntityRef} {outcome : Option String}
    (settles : reference.SettlesOn directory.sources directory.depth outcome) :
    directory.Answers { directory with sources := directory.sources.unsettling }
      reference (reference.plain directory.sources directory.depth) := by
  intro tally later
  have settled := EntityRef.settle_ofOutcome directory.sources directory.depth
    outcome later
  rw [← EntityRef.plain_of_settlesOn settles] at settled
  have judged : (directory.lookUp reference tally).1 =
      directory.judge outcome :=
    congrArg directory.judge (settles tally)
  exact judged.trans (congrArg directory.judge settled).symm

/-! ## Registries that settle alike -/

/-- The same options, with references that always settle alike. -/
structure Options.Respells (sources : Sources) (depth : Nat)
    (left right : Options) : Prop where
  same : right = { left with entity := right.entity }
  entity : Option.Rel (EntityRef.Respells sources depth) left.entity
    right.entity

/-- The same declaration, with references that always settle alike. -/
structure Schema.Respells (sources : Sources) (depth : Nat)
    (left right : Schema) : Prop where
  same : right =
    { left with base := right.base, properties := right.properties }
  base : Option.Rel (EntityRef.Respells sources depth) left.base right.base
  properties : List.Forall₂
    (fun first second =>
      first.1 = second.1 ∧ first.2.Respells sources depth second.2)
    left.properties.items right.properties.items

/-- Open registries that differ only in how references are written. -/
structure Registry.Respells (sources : Sources) (left right : Registry) :
    Prop where
  unfrozen : left.graph = none ∧ right.graph = none
  config : right.config = left.config
  schemas : List.Forall₂
    (Schema.Respells sources left.config.maxDeferredDepth)
    left.schemas.items right.schemas.items

variable {sources : Sources} {depth : Nat}

theorem plain_of_rel {left right : Option EntityRef}
    (settle : Option.Rel (EntityRef.Respells sources depth) left right) :
    left.map (EntityRef.plain sources depth) =
      right.map (EntityRef.plain sources depth) := by
  cases settle with
  | none => rfl
  | some respells => exact congrArg some respells.plain_eq

theorem Options.Respells.plain_eq {left right : Options}
    (respells : left.Respells sources depth right) :
    left.respell (EntityRef.plain sources depth) =
      right.respell (EntityRef.plain sources depth) := by
  rw [respells.same]
  exact congrArg (fun entity => { left with entity := entity })
    (plain_of_rel respells.entity)

/-- All references of a schema always settle alike, each in its way. -/
structure Schema.Settles (sources : Sources) (depth : Nat) (schema : Schema) :
    Prop where
  base : ∀ reference, schema.base = some reference →
    ∃ outcome, reference.SettlesOn sources depth outcome
  entity : ∀ entry ∈ schema.properties.items, ∀ reference,
    entry.2.entity = some reference →
      ∃ outcome, reference.SettlesOn sources depth outcome

theorem settles_of_rel {left right : Option EntityRef}
    (settle : Option.Rel (EntityRef.Respells sources depth) left right) :
    (∀ reference, left = some reference →
        ∃ outcome, reference.SettlesOn sources depth outcome) ∧
      ∀ reference, right = some reference →
        ∃ outcome, reference.SettlesOn sources depth outcome := by
  cases settle with
  | none => exact ⟨fun _ absent => (nomatch absent), fun _ absent => nomatch absent⟩
  | some respells =>
      rcases respells with ⟨outcome, first, second⟩
      constructor <;>
      · rintro _ ⟨⟩
        exact ⟨outcome, by assumption⟩

/-- What holds of the members of each pair holds of all members. -/
theorem forall_of_forall₂ {First Second : Type}
    {related : First → Second → Prop} {one : First → Prop}
    {other : Second → Prop}
    (holds : ∀ first second, related first second → one first ∧ other second)
    {left : List First} {right : List Second}
    (pairs : List.Forall₂ related left right) :
    (∀ first ∈ left, one first) ∧ ∀ second ∈ right, other second := by
  induction pairs with
  | nil => exact ⟨fun _ absent => (nomatch absent), fun _ absent => nomatch absent⟩
  | cons here _ induction =>
      exact ⟨List.forall_mem_cons.mpr ⟨(holds _ _ here).1, induction.1⟩,
        List.forall_mem_cons.mpr ⟨(holds _ _ here).2, induction.2⟩⟩

namespace Schema.Respells

variable {left right : Schema} (respells : left.Respells sources depth right)

include respells

theorem settles : left.Settles sources depth ∧ right.Settles sources depth := by
  rcases forall_of_forall₂ (fun _ _ alike => settles_of_rel alike.2.entity)
    respells.properties with ⟨first, second⟩
  rcases settles_of_rel respells.base with ⟨base, other⟩
  exact ⟨⟨base, first⟩, ⟨other, second⟩⟩

/-- Schemas that differ only in how references are written have the same plain
spelling. -/
theorem plain_eq :
    left.respell (EntityRef.plain sources depth) =
      right.respell (EntityRef.plain sources depth) := by
  have properties : ∀ {first second : List (String × Options)},
      List.Forall₂ (fun first second =>
        first.1 = second.1 ∧ first.2.Respells sources depth second.2)
        first second →
      first.map (fun entry =>
          (entry.1, entry.2.respell (EntityRef.plain sources depth))) =
        second.map fun entry =>
          (entry.1, entry.2.respell (EntityRef.plain sources depth)) := by
    intro first second alike
    induction alike with
    | nil => rfl
    | @cons one other _ _ here _ induction =>
        rcases one with ⟨name, options⟩
        rcases other with ⟨named, opted⟩
        rcases here with ⟨rfl, respells⟩
        rw [List.map_cons, List.map_cons, induction]
        dsimp only
        rw [respells.plain_eq]
  have tables : (left.respell (EntityRef.plain sources depth)).properties =
      (right.respell (EntityRef.plain sources depth)).properties :=
    Table.ext (properties respells.properties)
  have bases := plain_of_rel respells.base
  rw [respells.same] at tables bases ⊢
  rw [Schema.respell, Schema.respell, Schema.mk.injEq]
  exact ⟨rfl, bases, rfl, rfl, rfl, tables⟩

end Schema.Respells

/-! ## Resolutions in plain spelling -/

namespace Resolution.Setting

/-- What a resolution starts from, in plain spelling. -/
def plain (setting : Setting) : Setting :=
  setting.respell setting.sources.unsettling
    (EntityRef.plain setting.sources setting.config.maxDeferredDepth)

/-- References that always settle alike are answered in plain spelling. -/
theorem answered_plain {setting : Setting}
    (settles : ∀ schema ∈ setting.schemas.items,
      schema.Settles setting.sources setting.config.maxDeferredDepth) :
    setting.Answered setting.sources.unsettling
      (EntityRef.plain setting.sources setting.config.maxDeferredDepth) := by
  have directory : setting.plain.directory = { setting.directory with
      sources := setting.sources.unsettling } := by
    change Directory.mk _ _ (Table.keys (Schema.respellAll _ _)) = _
    rw [Schema.respellAll, Table.keys_map]
    rfl
  have answers : ∀ reference outcome,
      reference.SettlesOn setting.sources setting.config.maxDeferredDepth
        outcome →
      setting.directory.Answers setting.plain.directory reference
        (reference.plain setting.sources setting.config.maxDeferredDepth) := by
    intro reference outcome settled
    rw [directory]
    exact setting.directory.answers_plain settled
  refine ⟨fun name => ?_, rfl, fun schema member reference given => ?_,
    fun schema member entry inside reference given => ?_⟩
  · exact congrArg (fun settled => EntityRef.ofOutcome settled.1)
      (EntityRef.settle_name _ _ name .empty)
  · rcases (settles schema member).base reference given with
      ⟨outcome, settled⟩
    exact answers reference outcome settled
  · rcases (settles schema member).entity entry inside reference given with
      ⟨outcome, settled⟩
    exact answers reference outcome settled

end Resolution.Setting

/-! ## Snapshots -/

/-- A snapshot shows no reference. -/
theorem PropertySnapshot.ofProperty_respell (spell : EntityRef → EntityRef)
    (property : Property) :
    ofProperty (property.respell spell) = ofProperty property := by
  rcases property with ⟨name, nature⟩
  cases nature <;> rfl

theorem Graph.snapshot_respell (spell : EntityRef → EntityRef)
    (entities : Entities) :
    snapshot ⟨entities.respell spell⟩ = snapshot ⟨entities⟩ := by
  have properties : ∀ entity : Entity,
      EntitySnapshot.ofEntity (entity.respell spell) =
        EntitySnapshot.ofEntity entity := by
    intro entity
    have same : (entity.properties.items.map (Property.respell spell)).map
        PropertySnapshot.ofProperty =
          entity.properties.items.map PropertySnapshot.ofProperty := by
      rw [List.map_map]
      exact List.map_congr_left fun property _ =>
        PropertySnapshot.ofProperty_respell spell property
    exact congrArg (fun properties =>
      { EntitySnapshot.ofEntity entity with properties := properties }) same
  have entities : (entities.items.map (Entity.respell spell)).map
      EntitySnapshot.ofEntity = entities.items.map EntitySnapshot.ofEntity := by
    rw [List.map_map]
    exact List.map_congr_left fun entity _ => properties entity
  exact congrArg Snapshot.mk entities

/-! ## Registries -/

namespace Registry

variable {left right : Registry} {tally later : Tally}

theorem Respells.settles (respells : left.Respells sources right) :
    (∀ schema ∈ left.schemas.items,
        schema.Settles sources left.config.maxDeferredDepth) ∧
      ∀ schema ∈ right.schemas.items,
        schema.Settles sources left.config.maxDeferredDepth :=
  forall_of_forall₂ (fun _ _ alike => alike.settles) respells.schemas

/-- Registries that differ only in how references are written have the same
plain spelling. -/
theorem Respells.plain_eq (respells : left.Respells sources right) :
    (left.setting sources).plain = (right.setting sources).plain := by
  have schemas : ∀ {first second : List Schema}, List.Forall₂
      (Schema.Respells sources left.config.maxDeferredDepth) first second →
      first.map (·.respell (EntityRef.plain sources
          left.config.maxDeferredDepth)) =
        second.map (·.respell (EntityRef.plain sources
          left.config.maxDeferredDepth)) := by
    intro first second alike
    induction alike with
    | nil => rfl
    | cons here _ induction =>
        rw [List.map_cons, List.map_cons, induction, here.plain_eq]
  have tables : Schema.respellAll (EntityRef.plain sources
      left.config.maxDeferredDepth) left.schemas =
        Schema.respellAll (EntityRef.plain sources
          left.config.maxDeferredDepth) right.schemas :=
    Table.ext (schemas respells.schemas)
  unfold Resolution.Setting.plain Resolution.Setting.respell setting
  dsimp only
  rw [respells.config, tables]

/-- The form of references does not matter: two registries that differ in
nothing else are refused with the same defects, or they are frozen with equal
snapshots. -/
theorem finalize_of_respells (respells : left.Respells sources right)
    (alike : sources.AlikeFrom tally later) :
    (∃ defects,
        (left.finalize sources tally).outcome = .error (.invalid defects) ∧
        (right.finalize sources later).outcome = .error (.invalid defects)) ∨
      ∃ graph other,
        (left.finalize sources tally).outcome = .ok graph ∧
        (right.finalize sources later).outcome = .ok other ∧
        graph.snapshot = other.snapshot := by
  have settlesLeft := respells.settles.1
  have settlesRight := respells.settles.2
  rw [← respells.config] at settlesRight
  have answeredLeft :=
    @Resolution.Setting.answered_plain (left.setting sources) settlesLeft
  have answeredRight :=
    @Resolution.Setting.answered_plain (right.setting sources) settlesRight
  -- Both resolutions are compared with the one in plain spelling.
  have first := answeredLeft.run_respell (.refl sources tally)
  have second := answeredRight.run_respell alike.symm
  have plain := respells.plain_eq
  unfold Resolution.Setting.plain at plain
  rw [plain] at first
  have defects : ((left.setting sources).run tally).defects =
      ((right.setting sources).run later).defects :=
    first.2.symm.trans second.2
  by_cases silent : ((left.setting sources).run tally).defects = []
  · refine Or.inr ⟨⟨((left.setting sources).run tally).entities⟩,
      ⟨((right.setting sources).run later).entities⟩, ?_, ?_, ?_⟩
    · exact (finalize_eq_ok_iff respells.unfrozen.1 tally _).mpr ⟨silent, rfl⟩
    · exact (finalize_eq_ok_iff respells.unfrozen.2 later _).mpr
        ⟨defects ▸ silent, rfl⟩
    · have entities := first.1.symm.trans second.1
      rw [← Graph.snapshot_respell (EntityRef.plain sources
        left.config.maxDeferredDepth), ← Graph.snapshot_respell
          (EntityRef.plain sources right.config.maxDeferredDepth)
            ((right.setting sources).run later).entities]
      exact congrArg (fun entities => Graph.snapshot ⟨entities⟩) entities
  · refine Or.inl ⟨((left.setting sources).run tally).defects,
      finalize_eq_error respells.unfrozen.1 silent, ?_⟩
    rw [defects] at silent ⊢
    exact finalize_eq_error respells.unfrozen.2 silent

end Registry

/-! ## A journal -/

/-- A journal: authors have an address and write posts, and both are records. -/
def journal (record author address : EntityRef) : Registry :=
  .ofSchemas {} [
    { name := "Record"
      isAbstract := true
      properties := .ofList [
        ("id", { Options.typed "integer" with primary := true })] },
    { name := "Author"
      base := some record
      properties := .ofList [
        ("address", .embedded address),
        ("posts", .oneToMany (.name "Post") "author")] },
    { name := "Post"
      base := some record
      properties := .ofList [
        ("author", .manyToOne author),
        ("readers", .manyToMany author)] },
    { name := "Address"
      embeddable := true
      properties := .ofList [("street", .typed "string")] }]

/-- The form of three references of the journal does not matter. -/
theorem respells_journal {sources : Sources}
    {record author address recordToo authorToo addressToo : EntityRef}
    (records : record.Respells sources 32 recordToo)
    (authors : author.Respells sources 32 authorToo)
    (addresses : address.Respells sources 32 addressToo) :
    (journal record author address).Respells sources
      (journal recordToo authorToo addressToo) := by
  have posts : (EntityRef.name "Post").Respells sources 32 (.name "Post") :=
    ⟨some "Post", fun _ => rfl, fun _ => rfl⟩
  refine ⟨⟨rfl, rfl⟩, rfl, .cons ?_ (.cons ?_ (.cons ?_ (.cons ?_ .nil)))⟩
  · exact ⟨rfl, .none, .cons ⟨rfl, rfl, .none⟩ .nil⟩
  · exact ⟨rfl, .some records, .cons ⟨rfl, rfl, .some addresses⟩
      (.cons ⟨rfl, rfl, .some posts⟩ .nil)⟩
  · exact ⟨rfl, .some records, .cons ⟨rfl, rfl, .some authors⟩
      (.cons ⟨rfl, rfl, .some authors⟩ .nil)⟩
  · exact ⟨rfl, .none, .cons ⟨rfl, rfl, .none⟩ .nil⟩

/-- Sources by which the first reference leads to the author through others, in
more steps on some evaluations than on others, and the last one never settles. -/
def journalSources : Sources where
  reference
    | 0, evaluation => if evaluation % 2 = 0 then .deferred 1 else .name "Author"
    | 1, _ => .schema "Author"
    | 2, _ => .name "Address"
    | source, _ => .deferred source
  mapping _ _ := []
  hook _ _ := .null

theorem respells_author :
    (EntityRef.name "Author").Respells journalSources 32 (.deferred 0) := by
  refine ⟨some "Author", fun _ => rfl, fun tally => ?_⟩
  change ((if tally.count (.reference 0) % 2 = 0 then .deferred 1
    else .name "Author" : EntityRef).settle journalSources 31 _).1 = _
  split <;> rfl

/-- Written with names or otherwise, the journal has one snapshot. -/
theorem finalize_of_respells_journal :
    (journal (.name "Record") (.name "Author") (.name "Address")).Respells
        journalSources (journal (.schema "Record") (.deferred 0) (.deferred 2)) ∧
    ∃ graph other,
      ((journal (.name "Record") (.name "Author") (.name "Address")).finalize
        journalSources .empty).outcome = .ok graph ∧
      ((journal (.schema "Record") (.deferred 0) (.deferred 2)).finalize
        journalSources .empty).outcome = .ok other ∧
      graph.snapshot = other.snapshot ∧
      other.names = ["Record", "Author", "Post", "Address"] := by
  have respells : (journal (.name "Record") (.name "Author")
      (.name "Address")).Respells journalSources
        (journal (.schema "Record") (.deferred 0) (.deferred 2)) :=
    respells_journal ⟨some "Record", fun _ => rfl, fun _ => rfl⟩
      respells_author ⟨some "Address", fun _ => rfl, fun _ => rfl⟩
  have names : ((journal (.schema "Record") (.deferred 0)
      (.deferred 2)).finalize journalSources .empty).outcome.toOption.map
        Graph.names = some ["Record", "Author", "Post", "Address"] := by
    decide +kernel
  rcases Registry.finalize_of_respells respells
      (.refl journalSources .empty) with
    ⟨defects, -, refused⟩ | ⟨graph, other, frozen, frozenToo, same⟩
  · rw [refused] at names
    cases names
  · rw [frozenToo] at names
    exact ⟨respells, graph, other, frozen, frozenToo, same,
      Option.some.inj names⟩

/-- An address that never settles is reported in the same words. -/
example :
    ((journal (.schema "Record") (.name "Author") (.deferred 3)).finalize
        journalSources .empty).outcome =
      .error (.invalid [.unsettledReference ⟨"Author", "address"⟩ 32]) :=
  rfl

end EntityCatalog
