import EntityCatalog.Proofs.Entity.Inheritance
import EntityCatalog.Proofs.Reference.Steady

/-!
# Linking

Linking looks every declared base up and takes bases away only to break a
cycle.  Every climb along the bases that are left ends (`forest_link`).  If
linking finds nothing wrong, every base that was declared is there.  With steady
sources the bases are what the declared references mean.
-/

namespace EntityCatalog.Bases

/-! ## Bases as declared -/

/-- What the declared bases of schemas mean. -/
def declared (directory : Directory) (schemas : List Schema) :
    List (String × Except Miss String) :=
  schemas.filterMap fun schema =>
    schema.base.map fun reference =>
      (schema.name, directory.meaning reference)

/-- The bases that schemas declare. -/
def ofSchemas (directory : Directory) (schemas : List Schema) : Bases :=
  found (declared directory schemas)

theorem answers_reads {directory : Directory}
    (steady : directory.sources.Steady) (schemas : List Schema)
    (tally : Tally) :
    (answers directory schemas tally).1 = declared directory schemas ∧
      tally.SameMappings (answers directory schemas tally).2 := by
  induction schemas generalizing tally with
  | nil => exact ⟨rfl, .refl tally⟩
  | cons schema rest induction =>
      rw [answers, declared, List.filterMap_cons]
      cases schema.base with
      | none => exact induction tally
      | some reference =>
          have answer := Directory.lookUp_fst steady reference tally
          have counted := directory.sameMappings_lookUp reference tally
          rcases induction (directory.lookUp reference tally).2 with
            ⟨others, more⟩
          dsimp only
          rw [answer, others]
          exact ⟨rfl, counted.trans more⟩

theorem missed_eq_nil_iff (answers : List (String × Except Miss String)) :
    missed answers = [] ↔
      ∀ answer ∈ answers, ∃ base, answer.2 = .ok base := by
  rw [missed, List.filterMap_eq_nil_iff]
  refine forall₂_congr fun answer _ => ?_
  rcases answer with ⟨entity, base | miss⟩ <;> simp

/-! ## Cycles that are not there -/

/-- Where no climb runs into a cycle, none is broken. -/
theorem breakCycles_eq_iff (bases : Bases) (names : List String) :
    (bases.breakCycles names).2 = [] ↔
      ∀ name ∈ names, bases.cycle? name = none := by
  induction names with
  | nil => simp [breakCycles]
  | cons name rest induction =>
      rw [breakCycles, List.forall_mem_cons]
      cases bases.cycle? name with
      | none => simpa using induction
      | some cycle => simp

theorem breakCycles_fst (bases : Bases) (names : List String)
    (silent : (bases.breakCycles names).2 = []) :
    (bases.breakCycles names).1 = bases := by
  induction names with
  | nil => rfl
  | cons name rest induction =>
      rw [breakCycles] at silent ⊢
      cases climbed : bases.cycle? name with
      | none =>
          rw [climbed] at silent
          exact induction silent
      | some cycle =>
          rw [climbed] at silent
          cases silent

/-! ## Linking -/

/-- The declared bases of schemas are registered, and none closes a cycle. -/
structure Linkable (directory : Directory) (schemas : List Schema) : Prop where
  found : ∀ schema ∈ schemas, ∀ reference, schema.base = some reference →
    ∃ base, directory.meaning reference = .ok base
  acyclic : ∀ schema ∈ schemas,
    (ofSchemas directory schemas).cycle? schema.name = none

/-- Linking finds nothing wrong exactly if all bases are registered and none
closes a cycle. -/
theorem silent_link_iff {directory : Directory}
    (steady : directory.sources.Steady) (schemas : List Schema)
    (tally : Tally) :
    (link directory schemas tally).defects = [] ↔
      Linkable directory schemas := by
  have read := (answers_reads steady schemas tally).1
  rw [link]
  dsimp only
  rw [read, List.append_eq_nil_iff, List.map_eq_nil_iff, missed_eq_nil_iff,
    breakCycles_eq_iff]
  have all : (∀ answer ∈ declared directory schemas,
      ∃ base, answer.2 = .ok base) ↔
      ∀ schema ∈ schemas, ∀ reference, schema.base = some reference →
        ∃ base, directory.meaning reference = .ok base := by
    simp only [declared, List.mem_filterMap, Option.map_eq_some_iff]
    constructor
    · intro every schema member reference base
      exact every _ ⟨schema, member, reference, base, rfl⟩
    · rintro every _ ⟨schema, member, reference, base, rfl⟩
      exact every schema member reference base
  rw [all, List.forall_mem_map]
  exact ⟨fun both => ⟨both.1, both.2⟩, fun both => ⟨both.1, both.2⟩⟩

/-- Linking without defects keeps all declared bases and evaluates no enum. -/
theorem link_reads {directory : Directory}
    (steady : directory.sources.Steady) {schemas : List Schema}
    {tally : Tally} (silent : (link directory schemas tally).defects = []) :
    (link directory schemas tally).bases = ofSchemas directory schemas ∧
      tally.SameMappings (link directory schemas tally).tally := by
  rcases answers_reads steady schemas tally with ⟨read, counted⟩
  rw [link] at silent ⊢
  dsimp only at silent ⊢
  rw [List.append_eq_nil_iff, List.map_eq_nil_iff] at silent
  refine ⟨?_, counted⟩
  rw [breakCycles_fst _ _ silent.2, read, ofSchemas]

/-! ## Declared bases -/

variable {directory : Directory} {schemas : Table Schema.name}

/-- The base that a schema declares, with the name of the schema. -/
def declaredBase? (directory : Directory) (schema : Schema) :
    Option (String × String) :=
  schema.base.bind fun reference =>
    (directory.meaning reference).toOption.map fun base => (schema.name, base)

theorem name_of_declaredBase? {schema : Schema} {entry : String × String}
    (declares : declaredBase? directory schema = some entry) :
    entry.1 = schema.name := by
  rcases Option.bind_eq_some_iff.mp declares with ⟨reference, _, means⟩
  rcases Option.map_eq_some_iff.mp means with ⟨base, _, rfl⟩
  rfl

theorem ofSchemas_eq (schemas : List Schema) :
    ofSchemas directory schemas =
      .ofList (schemas.filterMap (declaredBase? directory)) := by
  rw [ofSchemas, found, declared, List.filterMap_filterMap]
  congr 2
  funext schema
  rw [declaredBase?]
  cases schema.base <;> rfl

/-- No schema declares two bases. -/
theorem nodup_entries (schemas : Table Schema.name) :
    ((schemas.items.filterMap (declaredBase? directory)).map Prod.fst).Nodup := by
  refine schemas.distinct.sublist ?_
  induction schemas.items with
  | nil => exact List.Sublist.slnil
  | cons schema rest induction =>
      rw [List.filterMap_cons, List.map_cons]
      cases declares : declaredBase? directory schema with
      | none => exact induction.cons schema.name
      | some entry =>
          rw [List.map_cons, name_of_declaredBase? declares]
          exact induction.cons_cons schema.name

/-- The base of an entity is what its schema declares. -/
theorem base?_ofSchemas_eq_some_iff {entity next : String} :
    (ofSchemas directory schemas.items).base? entity = some next ↔
      ∃ schema reference, schemas.find? entity = some schema ∧
        schema.base = some reference ∧
        directory.meaning reference = .ok next := by
  let entries : Bases :=
    ⟨schemas.items.filterMap (declaredBase? directory), nodup_entries schemas⟩
  have lookup : (ofSchemas directory schemas.items).find? entity =
      entries.find? entity := by
    rw [ofSchemas_eq]
    exact Table.find?_ofList (nodup_entries schemas) entity
  rw [base?, lookup, Option.map_eq_some_iff]
  constructor
  · rintro ⟨entry, found, rfl⟩
    rcases Table.find?_eq_some found with ⟨member, named⟩
    rcases List.mem_filterMap.mp member with ⟨schema, registered, declares⟩
    rcases Option.bind_eq_some_iff.mp declares with ⟨reference, base, means⟩
    rcases Option.map_eq_some_iff.mp means with ⟨next, meaning, rfl⟩
    rcases named with rfl
    exact ⟨schema, reference, Table.find?_key registered, base,
      toOption_eq_some_iff.mp meaning⟩
  · rintro ⟨schema, reference, found, base, means⟩
    rcases Table.find?_eq_some found with ⟨registered, rfl⟩
    have declares : declaredBase? directory schema = some (schema.name, next) := by
      rw [declaredBase?, base, Option.bind_some, means]
      rfl
    refine ⟨(schema.name, next), ?_, rfl⟩
    exact Table.find?_eq_some_iff.mpr
      ⟨List.mem_filterMap.mpr ⟨schema, registered, declares⟩, rfl⟩

/-- Linkable bases form a forest. -/
theorem Linkable.forest (linkable : Linkable directory schemas.items)
    (names : directory.names = schemas.keys) :
    Forest schemas (ofSchemas directory schemas.items) where
  registered := by
    intro entity next link
    rcases base?_ofSchemas_eq_some_iff.mp link with ⟨schema, _, found, -⟩
    exact Table.mem_keys_of_find? found
  closed := by
    intro entity next link
    rcases base?_ofSchemas_eq_some_iff.mp link with ⟨_, _, _, _, means⟩
    rw [← names]
    exact Directory.mem_names_of_meaning means
  rooted := by
    intro entity
    cases found : schemas.find? entity with
    | some schema =>
        have silent :=
          linkable.acyclic schema (Table.find?_eq_some found).1
        rw [(Table.find?_eq_some found).2] at silent
        exact rooted_of_cycle?_eq_none silent
    | none =>
        refine ⟨entity, .refl entity, ?_⟩
        refine Option.eq_none_iff_forall_ne_some.mpr fun next link => ?_
        rcases base?_ofSchemas_eq_some_iff.mp link with ⟨schema, _, other, -⟩
        rw [found] at other
        cases other

/-! ## Links that were found -/

/-- What is looked up for a schema bears its name, and is what its base was
answered with at some time. -/
theorem exists_schema_of_mem_answers {schemas : List Schema} {tally : Tally}
    {entity : String} {answer : Except Miss String}
    (member : (entity, answer) ∈ (answers directory schemas tally).1) :
    ∃ schema ∈ schemas, schema.name = entity ∧
      ∃ reference earlier, schema.base = some reference ∧
        (directory.lookUp reference earlier).1 = answer := by
  induction schemas generalizing tally with
  | nil => cases member
  | cons schema rest induction =>
      have further : ∀ {tally},
          (entity, answer) ∈ (answers directory rest tally).1 →
          ∃ other ∈ schema :: rest, other.name = entity ∧
            ∃ reference earlier, other.base = some reference ∧
              (directory.lookUp reference earlier).1 = answer := by
        intro tally later
        rcases induction later with ⟨other, inside, told⟩
        exact ⟨other, List.mem_cons_of_mem _ inside, told⟩
      rw [answers] at member
      cases declares : schema.base with
      | none =>
          rw [declares] at member
          exact further member
      | some reference =>
          rw [declares] at member
          rcases List.mem_cons.mp member with same | later
          · cases same
            exact ⟨schema, List.mem_cons_self .., rfl, reference, tally,
              declares, rfl⟩
          · exact further later

/-! ## Cycles that are broken -/

theorem base?_erase (bases : Bases) (closing entity : String) :
    base? (bases.erase closing) entity =
      if entity = closing then none else bases.base? entity := by
  rw [base?, Table.find?_erase]
  split <;> rfl

/-- A climb that runs into a cycle passes the member that closes it. -/
theorem descends_closing {base : String → Option String} {steps : Nat}
    {entity : String} {below : List String} {cycle : Cycle}
    (found : climb base steps entity below = some cycle) :
    Descends base entity cycle.closing := by
  induction steps generalizing entity below with
  | zero => cases found
  | succ steps induction =>
      rw [climb] at found
      cases link : base entity with
      | none =>
          rw [link] at found
          cases found
      | some next =>
          simp only [link] at found
          split at found
          · -- The cycle is what was climbed since its start, up to here.
            cases found
            have last : Cycle.closing ⟨next,
                ((entity :: below).takeWhile (· ≠ next)).reverse⟩ = entity := by
              by_cases same : entity = next
              · subst same
                simp [Cycle.closing, Cycle.members]
              · simp [Cycle.closing, Cycle.members, same]
            rw [last]
            exact .refl entity
          · exact .step link (induction found)

/-- Without the base of an entity that is passed, a climb ends there. -/
theorem rooted_of_descends {bases : Bases} {entity closing : String}
    (climb : Descends bases.base? entity closing) :
    Rooted (base? (bases.erase closing)) entity := by
  induction climb with
  | refl entity => exact ⟨entity, .refl entity, by rw [base?_erase, if_pos rfl]⟩
  | @step entity next closing link _ induction =>
      by_cases here : entity = closing
      · exact ⟨entity, .refl entity, by rw [base?_erase, if_pos here]⟩
      · rcases induction with ⟨root, ascent, rootless⟩
        refine ⟨root, .step ?_ ascent, rootless⟩
        rw [base?_erase, if_neg here, link]

/-- Where a climb ends, it still does without the base of some entity. -/
theorem rooted_erase {bases : Bases} {entity : String}
    (rooted : Rooted bases.base? entity) (closing : String) :
    Rooted (base? (bases.erase closing)) entity := by
  rcases rooted with ⟨root, climb, rootless⟩
  induction climb with
  | refl entity =>
      refine ⟨entity, .refl entity, ?_⟩
      rw [base?_erase, rootless, ite_self]
  | @step entity next root link _ induction =>
      by_cases here : entity = closing
      · exact ⟨entity, .refl entity, by rw [base?_erase, if_pos here]⟩
      · rcases induction rootless with ⟨top, ascent, topless⟩
        refine ⟨top, .step ?_ ascent, topless⟩
        rw [base?_erase, if_neg here, link]

/-- Breaking cycles takes bases away and gives none. -/
theorem base?_of_breakCycles {bases : Bases} {names : List String}
    {entity next : String}
    (link : (bases.breakCycles names).1.base? entity = some next) :
    bases.base? entity = some next := by
  induction names generalizing bases with
  | nil => exact link
  | cons name rest induction =>
      rw [breakCycles] at link
      cases climbed : bases.cycle? name with
      | none =>
          rw [climbed] at link
          exact induction link
      | some cycle =>
          rw [climbed] at link
          have kept := induction link
          rw [base?_erase] at kept
          split at kept
          · cases kept
          · exact kept

theorem rooted_breakCycles {bases : Bases} (names : List String)
    {entity : String} (rooted : Rooted bases.base? entity) :
    Rooted (bases.breakCycles names).1.base? entity := by
  induction names generalizing bases with
  | nil => exact rooted
  | cons name rest induction =>
      rw [breakCycles]
      cases bases.cycle? name with
      | none => exact induction rooted
      | some cycle => exact induction (rooted_erase rooted cycle.closing)

/-- After breaking the cycles that climbing from some entities runs into, every
climb from one of them ends. -/
theorem rooted_of_mem_breakCycles {bases : Bases} {names : List String}
    {entity : String} (member : entity ∈ names) :
    Rooted (bases.breakCycles names).1.base? entity := by
  induction names generalizing bases with
  | nil => cases member
  | cons name rest induction =>
      rw [breakCycles]
      cases climbed : bases.cycle? name with
      | none =>
          rcases List.mem_cons.mp member with rfl | later
          · exact rooted_breakCycles rest (rooted_of_cycle?_eq_none climbed)
          · exact induction later
      | some cycle =>
          rcases List.mem_cons.mp member with rfl | later
          · exact rooted_breakCycles rest
              (rooted_of_descends (descends_closing climbed))
          · exact induction later

/-- Bases that were found lead from registered names to registered names. -/
theorem registered_of_found (names : directory.names = schemas.keys)
    {tally : Tally} {entity next : String}
    (link : (found (answers directory schemas.items tally).1).base? entity =
      some next) :
    entity ∈ schemas.keys ∧ next ∈ schemas.keys := by
  rcases Option.map_eq_some_iff.mp link with ⟨entry, here, rfl⟩
  rcases Table.mem_of_find?_insertAll here with member | absent
  · rcases List.mem_filterMap.mp member with ⟨⟨name, answer⟩, told, given⟩
    rcases Option.map_eq_some_iff.mp given with ⟨base, ok, rfl⟩
    rcases exists_schema_of_mem_answers told with
      ⟨schema, inside, rfl, reference, earlier, -, answered⟩
    rcases (Table.find?_eq_some here).2 with rfl
    refine ⟨List.mem_map_of_mem inside, names ▸ ?_⟩
    exact Directory.mem_names_of_lookUp
      (answered.trans (toOption_eq_some_iff.mp ok))
  · cases absent

/-- Linked bases form a forest, whatever the sources answer and whatever was
wrong. -/
theorem forest_link (names : directory.names = schemas.keys) (tally : Tally) :
    Forest schemas (link directory schemas.items tally).bases := by
  have known : ∀ {entity next : String},
      (link directory schemas.items tally).bases.base? entity = some next →
        entity ∈ schemas.keys ∧ next ∈ schemas.keys :=
    fun link => registered_of_found names (base?_of_breakCycles link)
  refine ⟨fun _ _ link => (known link).1, fun _ _ link => (known link).2, ?_⟩
  intro entity
  by_cases registered : entity ∈ schemas.keys
  · exact rooted_of_mem_breakCycles registered
  · refine ⟨entity, .refl entity, ?_⟩
    exact Option.eq_none_iff_forall_ne_some.mpr fun next link =>
      registered (known link).1

/-! ## What linking reports -/

/-- A cycle starts at the base of some entity. -/
theorem exists_base_of_climb {base : String → Option String} {steps : Nat}
    {entity : String} {below : List String} {cycle : Cycle}
    (found : climb base steps entity below = some cycle) :
    ∃ lower, base lower = some cycle.start := by
  induction steps generalizing entity below with
  | zero => cases found
  | succ steps induction =>
      rw [climb] at found
      cases link : base entity with
      | none =>
          rw [link] at found
          cases found
      | some next =>
          simp only [link] at found
          split at found
          · cases found
            exact ⟨entity, link⟩
          · exact induction found

theorem exists_base_of_mem_breakCycles {bases : Bases} {names : List String}
    {cycle : Cycle} (member : cycle ∈ (bases.breakCycles names).2) :
    ∃ lower, bases.base? lower = some cycle.start := by
  induction names generalizing bases with
  | nil => cases member
  | cons name rest induction =>
      rw [breakCycles] at member
      cases climbed : bases.cycle? name with
      | none =>
          rw [climbed] at member
          exact induction member
      | some first =>
          rw [climbed] at member
          rcases List.mem_cons.mp member with rfl | later
          · exact exists_base_of_climb climbed
          · rcases induction later with ⟨lower, link⟩
            rw [base?_erase] at link
            split at link
            · cases link
            · exact ⟨lower, link⟩

/-- Linking reports of a registered entity that its base is missed or that it
lies on a cycle. -/
theorem exists_schema_of_mem_defects
    (names : directory.names = schemas.keys) {tally : Tally} {defect : Defect}
    (member : defect ∈ (link directory schemas.items tally).defects) :
    ∃ schema ∈ schemas.items,
      (∃ reference earlier miss, schema.base = some reference ∧
        (directory.lookUp reference earlier).1 = .error miss ∧
        miss.baseDefect schema.name = defect) ∨
      ∃ chain, .inheritanceCycle schema.name chain = defect := by
  rcases List.mem_append.mp member with lost | looped
  · rcases List.mem_filterMap.mp lost with ⟨⟨entity, answer⟩, told, wrong⟩
    rcases exists_schema_of_mem_answers told with
      ⟨schema, inside, rfl, reference, earlier, declares, answered⟩
    cases answer with
    | ok base => cases wrong
    | error miss =>
        exact ⟨schema, inside, Or.inl ⟨reference, earlier, miss, declares,
          answered, Option.some.inj wrong⟩⟩
  · rcases List.mem_map.mp looped with ⟨cycle, inside, rfl⟩
    rcases exists_base_of_mem_breakCycles inside with ⟨lower, link⟩
    rcases List.mem_map.mp (registered_of_found names link).2 with
      ⟨schema, member, named⟩
    refine ⟨schema, member, Or.inr ⟨cycle.members ++ [cycle.start], ?_⟩⟩
    rw [named]
    rfl

end EntityCatalog.Bases
