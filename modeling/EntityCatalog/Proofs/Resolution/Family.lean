import EntityCatalog.Proofs.Relation.Lone
import EntityCatalog.Proofs.Resolution.Plain

/-!
# A relation that is handed down

A family is an entity without base, the entities below it, and one entity besides
these that it has a relation to.  The relation is declared at the top and is handed
down to all of the family.  Its target may declare relations that answer it; all
other properties are plain columns.

Nothing is wrong with the bases and the options of such schemas, so all depends on
what is decided about the one relation (`Family.silent_run_iff`).  Who holds a
relation (`Family.held_cases`) and who pairs it (`Family.leads_iff`) is read off the
schemas.
-/

namespace EntityCatalog

/-- All properties that a schema declares, but for some, are plain columns. -/
def Schema.ColumnsBut (schema : Schema) (others : List String) : Prop :=
  ∀ name ∈ schema.properties.keys, name ∉ others →
    (schema.property? name).map Property.kind = some .scalar

instance (schema : Schema) (others : List String) :
    Decidable (schema.ColumnsBut others) :=
  inferInstanceAs (Decidable (∀ name ∈ schema.properties.keys, name ∉ others →
    (schema.property? name).map Property.kind = some .scalar))

namespace Resolution

open Pairing

namespace Setting

/-- The base that the schema of an entity declares. -/
def base? (setting : Setting) : String → Option String :=
  (Bases.ofSchemas setting.directory setting.schemas.items).base?

/-- The entity of a schema before relations are paired. -/
def entity (setting : Setting) (schema : Schema) : Entity :=
  Entity.ofSchema setting.schemas
    (Bases.ofSchemas setting.directory setting.schemas.items) schema

/-- A concrete schema leads if its base is no concrete one among the given ones. -/
def Leads (setting : Setting) (members : List Schema) (member : Schema) :
    Prop :=
  member.isAbstract = false ∧
    ∀ base ∈ members, setting.base? member.name = some base.name →
      base.isAbstract = true

/-- A relation names the given one as its owner and points at some entity. -/
structure Answers (setting : Setting) (property : Property)
    (relation back : Relation) (pointed : String) : Prop where
  kind : back.kind = relation.kind.reciprocal
  names : back.sides.mappedBy = some property.name
  means : setting.directory.meaning back.target.declared = .ok pointed

/-- A relation without hints that an entity hands down to the entities below it,
and the relations of its target that answer it. -/
structure Family (setting : Setting) (top target : Schema)
    (heirs : List Schema) (property : Property) (relation : Relation)
    (answers : List (String × String)) : Prop where
  registered : setting.schemas.items.Perm (top :: target :: heirs)
  top_rootless : top.base = none
  target_rootless : target.base = none
  below : ∀ heir ∈ heirs, Descends setting.base? heir.name top.name
  declares : top.property? property.name = some property
  related : property.relation? = some relation
  unhinted : relation.sides.isUnhinted = true
  unclaimed : relation.ownerHint = none
  means : setting.directory.meaning relation.target.declared = .ok target.name
  inherits : ∀ heir ∈ heirs, property.name ∉ heir.properties.keys
  answered : ∀ answer ∈ answers, ∃ other back,
    target.property? answer.1 = some other ∧ other.relation? = some back ∧
      setting.Answers property relation back answer.2
  top_columns : top.ColumnsBut [property.name]
  heir_columns : ∀ heir ∈ heirs, heir.ColumnsBut []
  target_columns : target.ColumnsBut (answers.map Prod.fst)

end Setting

/-- A relation that answers another one, as the target holds it. -/
structure Setting.AnswerSide (setting : Setting) (target : Schema)
    (property : Property) (relation : Relation) (name pointed : String)
    (side : Side) : Prop
    extends setting.Answers property relation side.relation pointed where
  held : side.Held setting.merged
  entity : side.entity = setting.entity target
  named : side.property.name = name

namespace Setting.Family

variable {setting : Setting} {top target member schema : Schema}
  {heirs : List Schema} {property : Property} {relation : Relation}
  {answers : List (String × String)}
  (family : setting.Family top target heirs property relation answers)

include family

/-! ## Registered schemas -/

theorem find?_schema (known : schema ∈ top :: target :: heirs) :
    setting.schemas.find? schema.name = some schema :=
  Table.find?_key (family.registered.mem_iff.mpr known)

theorem mem_of_find? {name : String}
    (found : setting.schemas.find? name = some schema) :
    schema ∈ top :: target :: heirs :=
  family.registered.mem_iff.mp (Table.find?_eq_some found).1

theorem eq_of_name_eq {other : Schema}
    (known : schema ∈ top :: target :: heirs)
    (otherKnown : other ∈ top :: target :: heirs)
    (same : schema.name = other.name) :
    schema = other := by
  have found := family.find?_schema known
  rw [same, family.find?_schema otherKnown] at found
  exact (Option.some.inj found).symm

theorem nodup_names :
    ((top :: target :: heirs).map Schema.name).Nodup :=
  (family.registered.map Schema.name).nodup_iff.mp setting.schemas.distinct

theorem top_ne_target : top.name ≠ target.name := by
  have distinct := family.nodup_names
  rw [List.map_cons, List.nodup_cons, List.map_cons] at distinct
  exact fun same => distinct.1 (same ▸ List.mem_cons_self ..)

theorem name_ne_target (inside : member ∈ top :: heirs) :
    member.name ≠ target.name := by
  rcases List.mem_cons.mp inside with rfl | inside
  · exact family.top_ne_target
  · have distinct := family.nodup_names
    rw [List.map_cons, List.nodup_cons, List.map_cons, List.nodup_cons]
      at distinct
    exact fun same => distinct.2.1 (same ▸ List.mem_map_of_mem inside)

theorem base_eq_none_or_mem (known : schema ∈ top :: target :: heirs) :
    schema.base = none ∨ schema ∈ heirs := by
  simp only [List.mem_cons] at known
  rcases known with rfl | rfl | inside
  · exact Or.inl family.top_rootless
  · exact Or.inl family.target_rootless
  · exact Or.inr inside

omit family in
theorem mem_of_target : target ∈ top :: target :: heirs :=
  List.mem_cons_of_mem _ (List.mem_cons_self ..)

omit family in
theorem mem_of_member (inside : member ∈ top :: heirs) :
    member ∈ top :: target :: heirs :=
  List.mem_cons.mpr
    ((List.mem_cons.mp inside).imp_right (List.mem_cons_of_mem _))

/-! ## Bases -/

theorem base?_eq_none (known : schema ∈ top :: target :: heirs)
    (rootless : schema.base = none) :
    setting.base? schema.name = none := by
  refine Option.eq_none_iff_forall_ne_some.mpr fun next link => ?_
  rcases Bases.base?_ofSchemas_eq_some_iff.mp link with
    ⟨other, reference, found, declared, -⟩
  rw [family.find?_schema known] at found
  cases found
  rw [rootless] at declared
  cases declared

theorem base?_top : setting.base? top.name = none :=
  family.base?_eq_none (List.mem_cons_self ..) family.top_rootless

theorem base?_target : setting.base? target.name = none :=
  family.base?_eq_none mem_of_target family.target_rootless

/-- Only entities below the top have a base. -/
theorem exists_heir_of_base? {entity next : String}
    (link : setting.base? entity = some next) :
    ∃ heir ∈ heirs, heir.name = entity := by
  rcases Bases.base?_ofSchemas_eq_some_iff.mp link with
    ⟨schema, reference, found, declared, -⟩
  rcases (Table.find?_eq_some found).2 with rfl
  rcases family.base_eq_none_or_mem (family.mem_of_find? found) with
    rootless | inside
  · rw [rootless] at declared
    cases declared
  · exact ⟨schema, inside, rfl⟩

theorem descends_top (inside : member ∈ top :: heirs) :
    Descends setting.base? member.name top.name := by
  rcases List.mem_cons.mp inside with rfl | inside
  · exact .refl _
  · exact family.below member inside

/-- Nobody is below the target. -/
theorem eq_target_of_descends {entity : String}
    (climb : Descends setting.base? entity target.name) :
    entity = target.name := by
  cases climb with
  | refl => rfl
  | step link rest =>
      rcases family.exists_heir_of_base? link with ⟨heir, inside, rfl⟩
      have toTarget : Descends setting.base? heir.name target.name :=
        .step link rest
      rcases toTarget.total (family.below heir inside) with climb | climb
      · exact absurd (climb.eq_of_rootless family.base?_target).symm
          family.top_ne_target
      · exact absurd (climb.eq_of_rootless family.base?_top)
          family.top_ne_target

/-- Registered entities below the top are those of the family. -/
theorem mem_of_descends (known : schema ∈ top :: target :: heirs)
    (climb : Descends setting.base? schema.name top.name) :
    schema ∈ top :: heirs := by
  simp only [List.mem_cons] at known ⊢
  rcases known with rfl | rfl | inside
  · exact Or.inl rfl
  · exact absurd (climb.eq_of_rootless family.base?_target).symm
      family.top_ne_target
  · exact Or.inr inside

/-- Bases are of the family. -/
theorem exists_base {entity next : String}
    (link : setting.base? entity = some next) :
    ∃ base ∈ top :: heirs, base.name = next := by
  rcases family.exists_heir_of_base? link with ⟨heir, inside, rfl⟩
  rcases (Descends.of_base link).total (family.below heir inside) with
    climb | climb
  · rcases Bases.base?_ofSchemas_eq_some_iff.mp link with ⟨_, _, -, -, means⟩
    rcases Table.mem_keys_iff.mp (Directory.mem_names_of_meaning means) with
      ⟨base, found⟩
    rcases (Table.find?_eq_some found).2 with rfl
    exact ⟨base, family.mem_of_descends (family.mem_of_find? found) climb, rfl⟩
  · exact ⟨top, List.mem_cons_self .., climb.eq_of_rootless family.base?_top⟩

theorem ne_top (inside : member ∈ heirs) : member ≠ top := by
  have distinct := List.nodup_cons.mp family.nodup_names.of_map
  rintro rfl
  exact distinct.1 (List.mem_cons_of_mem _ inside)

/-- Who is below the top has a base in the family. -/
theorem exists_link (inside : member ∈ heirs) :
    ∃ base ∈ top :: heirs, setting.base? member.name = some base.name := by
  cases link : setting.base? member.name with
  | none =>
      have same := family.eq_of_name_eq
        (mem_of_member (List.mem_cons_of_mem _ inside)) (List.mem_cons_self ..)
        ((family.below member inside).eq_of_rootless link)
      exact absurd same (family.ne_top inside)
  | some next =>
      rcases family.exists_base link with ⟨base, inFamily, rfl⟩
      exact ⟨base, inFamily, rfl⟩

theorem rooted (known : schema ∈ top :: target :: heirs) :
    Rooted setting.base? schema.name := by
  simp only [List.mem_cons] at known
  rcases known with rfl | rfl | inside
  · exact ⟨_, .refl _, family.base?_top⟩
  · exact ⟨_, .refl _, family.base?_target⟩
  · exact ⟨_, family.below schema inside, family.base?_top⟩

/-- All bases are linked. -/
theorem linkable :
    Bases.Linkable setting.directory setting.schemas.items where
  found := by
    intro schema inside reference declared
    have known := family.registered.mem_iff.mp inside
    rcases family.base_eq_none_or_mem known with rootless | heir
    · rw [rootless] at declared
      cases declared
    · rcases family.exists_link heir with ⟨base, -, link⟩
      rcases Bases.base?_ofSchemas_eq_some_iff.mp link with
        ⟨other, _, found, same, means⟩
      rw [family.find?_schema known] at found
      cases found
      rw [declared] at same
      cases same
      exact ⟨base.name, means⟩
  acyclic := fun schema inside =>
    Bases.cycle?_eq_none_iff.mpr
      (family.rooted (family.registered.mem_iff.mp inside))

/-- Siblings are not below each other. -/
theorem eq_of_descends_of_direct
    (direct : ∀ heir ∈ heirs, setting.base? heir.name = some top.name)
    {lower upper : Schema} (inLower : lower ∈ heirs) (inUpper : upper ∈ heirs)
    (below : Descends setting.base? lower.name upper.name) :
    lower = upper := by
  have known : ∀ heir ∈ heirs, heir ∈ top :: target :: heirs :=
    fun heir inside => mem_of_member (List.mem_cons_of_mem _ inside)
  apply family.eq_of_name_eq (known lower inLower) (known upper inUpper)
  have link := direct lower inLower
  generalize lower.name = name at below link
  cases below with
  | refl => rfl
  | step step rest =>
      rw [link] at step
      cases step
      have above := direct upper inUpper
      rw [← rest.eq_of_rootless family.base?_top, family.base?_top] at above
      cases above

/-! ## Entities -/

theorem base?_merged : setting.merged.base? = setting.base? :=
  (family.linkable.forest rfl).base?_ofSchemas

theorem find?_merged (known : schema ∈ top :: target :: heirs) :
    setting.merged.find? schema.name = some (setting.entity schema) := by
  rw [Setting.merged, Entities.find?_ofSchemas, family.find?_schema known]
  rfl

/-- The entities are those of the schemas. -/
theorem exists_schema {name : String} {entity : Entity}
    (found : setting.merged.find? name = some entity) :
    ∃ schema ∈ top :: target :: heirs,
      schema.name = name ∧ entity = setting.entity schema := by
  rw [Setting.merged, Entities.find?_ofSchemas] at found
  rcases Option.map_eq_some_iff.mp found with ⟨schema, known, rfl⟩
  exact ⟨schema, family.mem_of_find? known, (Table.find?_eq_some known).2, rfl⟩

theorem merges : setting.merged.Merges setting.own :=
  (family.linkable.forest rfl).merges_ofSchemas

/-! ## Declared properties -/

theorem own_eq (known : schema ∈ top :: target :: heirs) (name : String) :
    setting.own ⟨schema.name, name⟩ = schema.property? name := by
  rw [Setting.own, Entities.declaredAt, family.find?_schema known,
    Option.bind_some]

/-- What is declared is a column, the relation of the family or an answer. -/
theorem declared_cases (known : schema ∈ top :: target :: heirs) {name : String}
    (entry : name ∈ schema.properties.keys) :
    ∃ declared, schema.property? name = some declared ∧
      (declared.kind = .scalar ∨
        schema = top ∧ name = property.name ∧ declared = property ∨
        schema = target ∧ ∃ answer ∈ answers, name = answer.1) := by
  have column : ∀ others, schema.ColumnsBut others → name ∉ others →
      ∃ declared, schema.property? name = some declared ∧
        declared.kind = .scalar :=
    fun _ columns other => Option.map_eq_some_iff.mp (columns name entry other)
  simp only [List.mem_cons] at known
  rcases known with rfl | rfl | inside
  · by_cases same : name = property.name
    · exact ⟨property, same ▸ family.declares, Or.inr (Or.inl ⟨rfl, same, rfl⟩)⟩
    · rcases column _ family.top_columns (by simpa using same) with
        ⟨declared, own, kind⟩
      exact ⟨declared, own, Or.inl kind⟩
  · by_cases other : name ∈ answers.map Prod.fst
    · rcases List.mem_map.mp other with ⟨answer, member, rfl⟩
      rcases family.answered answer member with ⟨declared, _, own, -⟩
      exact ⟨declared, own, Or.inr (Or.inr ⟨rfl, answer, member, rfl⟩)⟩
    · rcases column _ family.target_columns other with ⟨declared, own, kind⟩
      exact ⟨declared, own, Or.inl kind⟩
  · rcases column _ (family.heir_columns _ inside) List.not_mem_nil with
      ⟨declared, own, kind⟩
    exact ⟨declared, own, Or.inl kind⟩

theorem own_cases {place : Place} {declared : Property}
    (here : setting.own place = some declared) :
    declared.kind = .scalar ∨
      place = ⟨top.name, property.name⟩ ∧ declared = property ∨
      place.entity = target.name ∧ ∃ answer ∈ answers,
        place.property = answer.1 ∧ ∃ back, declared.relation? = some back ∧
          setting.Answers property relation back answer.2 := by
  rcases Option.bind_eq_some_iff.mp here with ⟨schema, found, own⟩
  have named := (Table.find?_eq_some found).2
  rcases Option.bind_eq_some_iff.mp own with ⟨_, entry, -⟩
  rcases family.declared_cases (family.mem_of_find? found)
    (Table.mem_keys_of_find? entry) with ⟨other, same, cases⟩
  rw [own] at same
  cases same
  rcases cases with column | ⟨rfl, same, rfl⟩ | ⟨rfl, answer, member, same⟩
  · exact Or.inl column
  · exact Or.inr (Or.inl ⟨congrArg₂ Place.mk named.symm same, rfl⟩)
  · rcases family.answered answer member with ⟨other, back, read, relates⟩
    rw [← same, own] at read
    cases read
    exact Or.inr (Or.inr ⟨named.symm, answer, member, same, back, relates⟩)

/-- All options fit together. -/
theorem fits : setting.schemas.items.flatMap Schema.misuses = [] := by
  refine List.flatMap_eq_nil_iff.mpr fun schema inside => ?_
  refine Schema.misuses_eq_nil_iff.mpr fun name options found => ?_
  rcases family.declared_cases (family.registered.mem_iff.mp inside)
    (Table.mem_keys_of_find? found) with ⟨declared, own, -⟩
  rw [Schema.property?, found, Option.bind_some] at own
  exact ⟨declared, own⟩

theorem plain : setting.Plain := by
  intro place declared here
  have kind : declared.kind = .scalar ∨
      ∃ kind, declared.kind = .relation kind := by
    rcases family.own_cases here with
      column | ⟨-, rfl⟩ | ⟨-, _, -, -, back, relates, -⟩
    · exact Or.inl column
    · exact Or.inr ⟨_, Property.kind_of_relation? family.related⟩
    · exact Or.inr ⟨_, Property.kind_of_relation? relates⟩
  rw [Property.isEmbedded]
  rcases kind with kind | ⟨_, kind⟩ <;>
    exact ⟨Property.enumeration?_eq_none (by simp [kind]), by simp [kind]⟩

theorem finds {place : Place} {declared : Property}
    (here : setting.own place = some declared) :
    setting.directory.Finds declared := by
  intro pointed points unknown
  rcases family.own_cases here with
    column | ⟨-, rfl⟩ | ⟨-, _, -, -, back, relates, answers⟩
  · rw [Property.target?_of_scalar column] at points
    cases points
  · rw [Property.target?_of_relation? family.related] at points
    cases points
    exact ⟨_, family.means⟩
  · rw [Property.target?_of_relation? relates] at points
    cases points
    exact ⟨_, answers.means⟩

/-! ## Held relations -/

/-- The relation is handed down to all of the family. -/
theorem held (inside : member ∈ top :: heirs) :
    setting.merged.property? ⟨member.name, property.name⟩ = some property := by
  have climb := family.descends_top inside
  generalize lower : member.name = name at climb
  generalize upper : top.name = root at climb
  induction climb generalizing member with
  | refl name =>
      subst lower
      have same := family.eq_of_name_eq (mem_of_member inside)
        (List.mem_cons_self ..) upper.symm
      rw [same]
      exact family.merges.held_of_declared
        ((family.own_eq (List.mem_cons_self ..) _).trans family.declares)
  | @step name next root link rest induction =>
      subst lower upper
      rcases List.mem_cons.mp inside with rfl | heir
      · rw [family.base?_top] at link
        cases link
      · have undeclared : setting.own ⟨member.name, property.name⟩ = none := by
          rw [family.own_eq (mem_of_member inside), Schema.property?,
            Table.find?_eq_none_iff.mpr (family.inherits member heir)]
          rfl
        rcases family.exists_base link with ⟨base, above, rfl⟩
        rw [family.merges.held, undeclared, family.base?_merged, link]
        exact induction above rfl rfl

/-- The relation as an entity of the family holds it. -/
theorem side_held (inside : member ∈ top :: heirs) :
    Side.Held ⟨setting.entity member, property, relation⟩ setting.merged where
  entity := family.find?_merged (mem_of_member inside)
  property := family.held inside
  relation := family.related

/-- The target holds its answers. -/
theorem exists_answer {answer : String × String} (inside : answer ∈ answers) :
    ∃ side, setting.AnswerSide target property relation answer.1 answer.2
      side := by
  rcases family.answered answer inside with
    ⟨other, back, own, relates, answering⟩
  have named := (Schema.lawful_of_property? own).1
  have here : Side.place ⟨setting.entity target, other, back⟩ =
      ⟨target.name, answer.1⟩ :=
    congrArg (Place.mk target.name) named
  refine ⟨⟨setting.entity target, other, back⟩, answering,
    ⟨family.find?_merged mem_of_target, ?_, relates⟩, rfl, named⟩
  rw [here]
  exact family.merges.held_of_declared
    ((family.own_eq mem_of_target _).trans own)

/-- A relation is that of the family, held by one of its members, or an answer. -/
theorem held_cases {side : Side} (held : side.Held setting.merged) :
    (∃ member ∈ top :: heirs,
        side = ⟨setting.entity member, property, relation⟩) ∨
      ∃ answer ∈ answers, setting.AnswerSide target property relation answer.1
        answer.2 side := by
  rcases family.exists_schema held.entity with ⟨schema, known, named, entity⟩
  rcases family.merges.declared_of_held held.property with
    ⟨declared, name, below⟩
  rw [family.base?_merged] at below
  have climb : Descends setting.base? schema.name side.property.declaredBy :=
    named ▸ below
  rcases family.own_cases declared with
    column | ⟨origin, same⟩ | ⟨origin, answer, member, same, back, relates, answering⟩
  · rw [Property.kind_of_relation? held.relation] at column
    cases column
  · have declaredBy : side.property.declaredBy = top.name :=
      congrArg Place.entity origin
    rw [declaredBy] at climb
    refine Or.inl ⟨schema, family.mem_of_descends known climb, ?_⟩
    have relation_eq : side.relation = relation := by
      have relates := held.relation
      rw [same, family.related] at relates
      exact (Option.some.inj relates).symm
    cases side
    simp_all
  · have declaredBy : side.property.declaredBy = target.name := origin
    rw [declaredBy] at climb
    have target_eq := family.eq_of_name_eq known mem_of_target
      (family.eq_target_of_descends climb)
    rw [held.relation] at relates
    cases relates
    exact Or.inr ⟨answer, member, answering, held, target_eq ▸ entity, same⟩

/-! ## Who pairs the relation -/

theorem pairedByBase_iff :
    setting.scope.pairedByBase ⟨setting.entity member, property, relation⟩ =
        true ↔
      ∃ base ∈ top :: heirs, setting.base? member.name = some base.name ∧
        base.isAbstract = false := by
  have link : (setting.entity member).base = setting.base? member.name := rfl
  cases above : setting.base? member.name with
  | none => simp [Scope.pairedByBase, link, above]
  | some next =>
      rcases family.exists_base above with ⟨base, inFamily, rfl⟩
      have known := family.find?_merged (mem_of_member inFamily)
      have held := family.held inFamily
      rw [Entities.property?, known, Option.bind_some] at held
      have isAbstract : (setting.entity base).isAbstract = base.isAbstract := rfl
      have paired : setting.scope.pairedByBase
          ⟨setting.entity member, property, relation⟩ = !base.isAbstract := by
        rw [Scope.pairedByBase, link, above, Option.bind_some,
          show setting.scope.entities.find? base.name = _ from known]
        simp [held, isAbstract]
      rw [paired, Bool.not_eq_true']
      constructor
      · exact fun concrete => ⟨base, inFamily, rfl, concrete⟩
      · rintro ⟨other, otherInside, same, concrete⟩
        have equal := family.eq_of_name_eq (mem_of_member inFamily)
          (mem_of_member otherInside) (Option.some.inj same)
        rw [equal]
        exact concrete

theorem concerns_iff :
    setting.scope.concerns ⟨setting.entity member, property, relation⟩ = true ↔
      ∀ base ∈ top :: heirs, setting.base? member.name = some base.name →
        base.isAbstract = true := by
  have paired : ¬ setting.scope.pairedByBase
      ⟨setting.entity member, property, relation⟩ = true ↔ _ :=
    not_congr family.pairedByBase_iff
  rw [Bool.not_eq_true] at paired
  rw [Scope.concerns, show setting.scope.invalid = [] from rfl]
  simp only [List.not_mem_nil, decide_false, Bool.not_false, Bool.true_and,
    Bool.not_eq_true', paired, not_exists, not_and, Bool.not_eq_false]

theorem leads_iff :
    setting.scope.leads ⟨setting.entity member, property, relation⟩ = true ↔
      setting.Leads (top :: heirs) member := by
  rw [Scope.leads, Bool.and_eq_true, family.concerns_iff, Bool.not_eq_true',
    and_comm]
  exact Iff.rfl

/-! ## When nothing is wrong -/

theorem coherent (steady : setting.sources.Steady) :
    setting.scope.Coherent setting.own :=
  Setting.coherent steady family.linkable

theorem sound_iff :
    setting.Sound ↔
      setting.scope.Cleared setting.own ∧
        setting.merged.Accepts setting.scope.decisions := by
  constructor
  · exact fun sound => ⟨sound.cleared, sound.accepts⟩
  · rintro ⟨cleared, accepts⟩
    exact ⟨⟨family.fits, family.linkable, cleared, accepts⟩,
      fun _ _ => family.finds⟩

theorem silent_run_iff (steady : setting.sources.Steady) (tally : Tally) :
    (setting.run tally).defects = [] ↔
      (setting.scope.Cleared setting.own ∧
        setting.merged.Accepts setting.scope.decisions) ∧
      setting.Targeted ∧ setting.Keyed := by
  rw [silent_run_iff_of_plain steady family.plain tally, family.sound_iff]

theorem pointsAt_iff {name : String} :
    setting.PointsAt name ↔
      name = target.name ∨ (∃ answer ∈ answers, answer.2 = name) ∨
        ∃ synthesis ∈ syntheses setting.scope.decisions,
          synthesis.source.entity = name := by
  constructor
  · rintro (⟨side, held, means⟩ | ⟨synthesis, member, source⟩)
    · rcases family.held_cases held with ⟨_, -, rfl⟩ | ⟨answer, inside, back⟩
      · rw [family.means] at means
        exact Or.inl (Except.ok.inj means).symm
      · rw [back.means] at means
        exact Or.inr (Or.inl ⟨answer, inside, Except.ok.inj means⟩)
    · exact Or.inr (Or.inr ⟨synthesis, member, source⟩)
  · rintro (rfl | ⟨answer, inside, rfl⟩ | ⟨synthesis, member, source⟩)
    · exact .held _ (family.side_held (List.mem_cons_self ..)) family.means
    · rcases family.exists_answer inside with ⟨side, back⟩
      exact .held side back.held back.means
    · exact .added synthesis member source

theorem targeted_iff :
    setting.Targeted ↔
      ∀ schema ∈ top :: target :: heirs, setting.PointsAt schema.name →
        schema.embeddable = false := by
  constructor
  · exact fun targeted schema known points =>
      targeted _ _ points (family.find?_merged known)
  · intro fitting name entity points found
    rcases family.exists_schema found with ⟨schema, known, rfl, rfl⟩
    exact fitting schema known points

end Setting.Family

end Resolution

end EntityCatalog
