import EntityCatalog.Bases
import EntityCatalog.Entity.Ancestry
import EntityCatalog.Proofs.Table.Lookups

/-!
# Lineages without cycles

`Descends base lower upper` says that climbing from `lower` along bases leads
to `upper`.  Where every climb ends (`Rooted`), no entity is its own proper
ancestor, and the ancestors of one entity lie on one line.  A lineage with as
many steps as there are registered names then leaves nothing out, so that
`Entities.isWithin` decides `Descends`.

That every climb ends is what the search for cycles establishes: a climb that
closes no cycle runs out of entities with a base.
-/

namespace EntityCatalog

/-! ## Climbing -/

/-- The second entity is the first one, or one of its bases. -/
inductive Descends (base : String → Option String) : String → String → Prop where
  | refl (entity : String) : Descends base entity entity
  | step {lower next upper : String} (link : base lower = some next)
      (rest : Descends base next upper) : Descends base lower upper

/-- Climbing from an entity ends at an entity without base. -/
def Rooted (base : String → Option String) (entity : String) : Prop :=
  ∃ root, Descends base entity root ∧ base root = none

namespace Descends

variable {base : String → Option String} {lower middle upper : String}

theorem of_base (link : base lower = some upper) :
    Descends base lower upper :=
  .step link (.refl upper)

theorem trans (first : Descends base lower middle)
    (second : Descends base middle upper) :
    Descends base lower upper := by
  induction first with
  | refl => exact second
  | step link _ induction => exact .step link (induction second)

/-- The ancestors of one entity lie on one line. -/
theorem total {left right : String}
    (toLeft : Descends base lower left)
    (toRight : Descends base lower right) :
    Descends base left right ∨ Descends base right left := by
  induction toLeft with
  | refl => exact Or.inl toRight
  | step link rest induction =>
      cases toRight with
      | refl => exact Or.inr (.step link rest)
      | step otherLink otherRest =>
          rw [link] at otherLink
          cases otherLink
          exact induction otherRest

/-- From an entity without base no climb leads on. -/
theorem eq_of_rootless (climb : Descends base lower upper)
    (rootless : base lower = none) : lower = upper := by
  cases climb with
  | refl => rfl
  | step link _ =>
      rw [rootless] at link
      cases link

end Descends

/-- An entity whose climb ends is not within itself by way of its base. -/
theorem Rooted.not_descends_of_base {base : String → Option String}
    {entity next : String} (rooted : Rooted base entity)
    (link : base entity = some next) :
    ¬ Descends base next entity := by
  rcases rooted with ⟨root, climb, rootless⟩
  induction climb generalizing next with
  | refl entity =>
      rw [rootless] at link
      cases link
  | step ahead _ induction =>
      rw [ahead] at link
      cases link
      intro back
      cases back with
      | refl => exact induction ahead rootless (.refl _)
      | step later rest =>
          exact induction later rootless (rest.trans (.of_base ahead))

/-- Where climbing from an entity ends, climbing from its base does. -/
theorem Rooted.of_base {base : String → Option String} {entity next : String}
    (rooted : Rooted base entity) (link : base entity = some next) :
    Rooted base next := by
  rcases rooted with ⟨root, climb, rootless⟩
  cases climb with
  | refl =>
      rw [rootless] at link
      cases link
  | step above rest =>
      rw [above] at link
      cases link
      exact ⟨root, rest, rootless⟩

/-- Some names in a row: each is the base of the one before, and the last one
has no base. -/
inductive Climbs (base : String → Option String) :
    String → List String → Prop where
  | root {entity : String} (rootless : base entity = none) :
      Climbs base entity [entity]
  | step {entity next : String} {above : List String}
      (link : base entity = some next) (rest : Climbs base next above) :
      Climbs base entity (entity :: above)

/-! ## Lineages -/

section

variable {base : String → Option String}

theorem descends_of_mem_lineage {steps : Nat} {entity ancestor : String}
    (member : ancestor ∈ lineage base steps entity) :
    Descends base entity ancestor := by
  induction steps generalizing entity with
  | zero => cases member
  | succ steps induction =>
      rw [lineage] at member
      rcases List.mem_cons.mp member with rfl | above
      · exact .refl ancestor
      · cases link : base entity with
        | none =>
            rw [link] at above
            cases above
        | some next =>
            rw [link] at above
            exact .step link (induction above)

theorem nodup_lineage (rooted : ∀ entity, Rooted base entity) (steps : Nat)
    (entity : String) :
    (lineage base steps entity).Nodup := by
  induction steps generalizing entity with
  | zero => exact List.nodup_nil
  | succ steps induction =>
      rw [lineage]
      cases link : base entity with
      | none => exact List.nodup_singleton entity
      | some next =>
          refine List.nodup_cons.mpr ⟨?_, induction next⟩
          intro member
          exact (rooted entity).not_descends_of_base link
            (descends_of_mem_lineage member)

/-- A lineage leaves an ancestor out only where its steps are used up. -/
theorem mem_lineage_or_length_eq {entity ancestor : String}
    (climb : Descends base entity ancestor) (steps : Nat) :
    ancestor ∈ lineage base steps entity ∨
      (lineage base steps entity).length = steps := by
  induction steps generalizing entity with
  | zero => exact Or.inr rfl
  | succ steps induction =>
      rw [lineage]
      cases climb with
      | refl => exact Or.inl (List.mem_cons_self ..)
      | step link rest =>
          simp only [link, List.mem_cons, List.length_cons,
            Nat.add_right_cancel_iff]
          rcases induction rest with member | full
          · exact Or.inl (Or.inr member)
          · exact Or.inr full

/-- A lineage that does not use up its steps is the whole one. -/
theorem lineage_succ_of_length_le {steps : Nat} {entity : String}
    (short : (lineage base (steps + 1) entity).length ≤ steps) :
    lineage base (steps + 1) entity = lineage base steps entity := by
  induction steps generalizing entity with
  | zero => simp [lineage] at short
  | succ steps induction =>
      rw [lineage] at short ⊢
      rw [lineage]
      cases link : base entity with
      | none => rfl
      | some next =>
          rw [link] at short
          exact congrArg (entity :: ·)
            (induction (Nat.le_of_succ_le_succ short))

theorem descends_mem {names : List String}
    (closed : ∀ entity next, base entity = some next → next ∈ names)
    {entity ancestor : String} (registered : entity ∈ names)
    (climb : Descends base entity ancestor) :
    ancestor ∈ names := by
  induction climb with
  | refl => exact registered
  | step link _ induction => exact induction (closed _ _ link)

end

/-! ## Hierarchies of entities -/

namespace Entities

/-- Bases are registered, and every climb along them ends. -/
structure Forest (entities : Entities) : Prop where
  closed : ∀ entity next, entities.base? entity = some next →
    next ∈ entities.keys
  rooted : ∀ entity, Rooted entities.base? entity

variable {entities : Entities}

/-- Where a name is registered, a lineage has at least one step. -/
theorem exists_size_eq_succ {entity : String}
    (registered : entity ∈ entities.keys) :
    ∃ steps, entities.size = steps + 1 := by
  apply Nat.exists_eq_succ_of_ne_zero
  intro zero
  rw [Table.keys, List.eq_nil_of_length_eq_zero zero] at registered
  cases registered

theorem ancestry_of_base_eq_none {entity : String}
    (registered : entity ∈ entities.keys)
    (rootless : entities.base? entity = none) :
    entities.ancestry entity = [entity] := by
  rcases exists_size_eq_succ registered with ⟨steps, size⟩
  rw [ancestry, size, lineage, rootless]

theorem mem_keys_of_base? {entity next : String}
    (link : entities.base? entity = some next) :
    entity ∈ entities.keys := by
  rcases Option.bind_eq_some_iff.mp link with ⟨_, found, _⟩
  exact Table.mem_keys_of_find? found

namespace Forest

/-- The ancestry of a registered entity names everything it is within. -/
theorem mem_ancestry_iff (forest : Forest entities) {entity ancestor : String}
    (registered : entity ∈ entities.keys) :
    ancestor ∈ entities.ancestry entity ↔
      Descends entities.base? entity ancestor := by
  constructor
  · exact descends_of_mem_lineage
  · intro climb
    rcases mem_lineage_or_length_eq climb entities.size with member | full
    · exact member
    -- As many different registered names as there are: all of them.
    · have below : entities.ancestry entity ⊆ entities.keys := by
        intro name member
        exact descends_mem forest.closed registered
          (descends_of_mem_lineage member)
      have everything :=
        List.subperm_of_subset
          (nodup_lineage forest.rooted entities.size entity) below
      have perm := everything.perm_of_length_le
        (Nat.le_of_eq ((Table.length_keys entities).trans full.symm))
      exact perm.mem_iff.mpr (descends_mem forest.closed registered climb)

theorem isWithin_iff (forest : Forest entities) {entity ancestor : String}
    (registered : entity ∈ entities.keys) :
    entities.isWithin entity ancestor = true ↔
      Descends entities.base? entity ancestor := by
  rw [isWithin, decide_eq_true_eq, forest.mem_ancestry_iff registered]

/-- An ancestry is the entity followed by the ancestry of its base. -/
theorem ancestry_of_base (forest : Forest entities) {entity next : String}
    (link : entities.base? entity = some next) :
    entities.ancestry entity = entity :: entities.ancestry next := by
  have registered : entity ∈ entities.keys := mem_keys_of_base? link
  rcases exists_size_eq_succ registered with ⟨steps, size⟩
  have fresh : entity ∉ entities.ancestry next := by
    intro member
    exact (forest.rooted entity).not_descends_of_base link
      (descends_of_mem_lineage member)
  have below : (entity :: entities.ancestry next) ⊆ entities.keys := by
    intro name member
    rcases List.mem_cons.mp member with rfl | above
    · exact registered
    · exact descends_mem forest.closed (forest.closed _ _ link)
        (descends_of_mem_lineage above)
  have distinct : (entity :: entities.ancestry next).Nodup :=
    List.nodup_cons.mpr ⟨fresh, nodup_lineage forest.rooted _ _⟩
  have bounded := (List.subperm_of_subset distinct below).length_le
  have short : (lineage entities.base? (steps + 1) next).length ≤ steps := by
    rw [Table.length_keys, size, List.length_cons, ancestry, size] at bounded
    exact Nat.le_of_succ_le_succ bounded
  simp only [ancestry, size]
  rw [lineage, link]
  exact congrArg (entity :: ·) (lineage_succ_of_length_le short).symm

/-- The ancestry of an entity climbs to one without base, along different
registered entities. -/
theorem climbs_ancestry (forest : Forest entities) {entity : String}
    (registered : entity ∈ entities.keys) :
    Climbs entities.base? entity (entities.ancestry entity) ∧
      (entities.ancestry entity).Nodup ∧
      ∀ ancestor ∈ entities.ancestry entity, ancestor ∈ entities.keys := by
  refine ⟨?_, nodup_lineage forest.rooted _ _, fun ancestor member => ?_⟩
  · rcases forest.rooted entity with ⟨root, climb, rootless⟩
    induction climb with
    | refl entity =>
        rw [ancestry_of_base_eq_none registered rootless]
        exact .root rootless
    | step link _ induction =>
        rw [forest.ancestry_of_base link]
        exact .step link (induction (forest.closed _ _ link) rootless)
  · exact descends_mem forest.closed registered
      (descends_of_mem_lineage member)

end Forest

end Entities

/-! ## Climbs without cycles end -/

namespace Bases

/-- Climbing from an entity, above some others, on and on: it comes to an entity
without base, or a base comes up again. -/
inductive Climbing (base : String → Option String) :
    String → List String → Option Cycle → Prop where
  | ends {entity : String} {below : List String} (rootless : base entity = none) :
      Climbing base entity below none
  | closes {entity next : String} {below : List String}
      (link : base entity = some next) (again : next ∈ entity :: below) :
      Climbing base entity below
        (some ⟨next, ((entity :: below).takeWhile (· ≠ next)).reverse⟩)
  | goes {entity next : String} {below : List String} {result : Option Cycle}
      (link : base entity = some next) (fresh : next ∉ entity :: below)
      (rest : Climbing base next (entity :: below) result) :
      Climbing base entity below result

/-- A bounded climb comes to what climbing without a bound does, provided its
steps outnumber the entities that have a base and were not passed yet. -/
theorem climbing_climb {base : String → Option String} (based : List String)
    (complete : ∀ entity next, base entity = some next → entity ∈ based)
    {steps : Nat} {entity : String} {below : List String}
    (distinct : (entity :: below).Nodup) (passed : below ⊆ based)
    (enough : based.length < steps + below.length) :
    Climbing base entity below (climb base steps entity below) := by
  induction steps generalizing entity below with
  | zero =>
      have bounded :=
        (List.subperm_of_subset (List.nodup_cons.mp distinct).2
          passed).length_le
      omega
  | succ steps induction =>
      rw [climb]
      cases link : base entity with
      | none => exact .ends link
      | some next =>
          dsimp only
          split
          · rename_i again
            exact .closes link again
          · rename_i fresh
            refine .goes link fresh (induction
              (List.nodup_cons.mpr ⟨fresh, distinct⟩) ?_ ?_)
            · exact List.cons_subset.mpr ⟨complete _ _ link, passed⟩
            · simp only [List.length_cons]
              omega

/-- The search for a cycle comes to what climbing without a bound does. -/
theorem climbing_cycle? (bases : Bases) (entity : String) :
    Climbing bases.base? entity [] (bases.cycle? entity) := by
  refine climbing_climb bases.keys (fun lower next link => ?_)
    (List.nodup_singleton entity) (List.nil_subset _) ?_
  · rcases Option.map_eq_some_iff.mp link with ⟨_, found, _⟩
    exact Table.mem_keys_of_find? found
  · rw [Table.length_keys]
    exact Nat.lt_succ_self _

/-- Climbing that finds no cycle ends. -/
theorem Climbing.rooted {base : String → Option String} {entity : String}
    {below : List String} {result : Option Cycle}
    (climbing : Climbing base entity below result) (silent : result = none) :
    Rooted base entity := by
  induction climbing with
  | @ends entity _ rootless => exact ⟨entity, .refl entity, rootless⟩
  | closes => cases silent
  | goes link _ _ induction =>
      rcases induction silent with ⟨root, ascent, rootless⟩
      exact ⟨root, .step link ascent, rootless⟩

theorem rooted_of_cycle?_eq_none {bases : Bases} {entity : String}
    (silent : bases.cycle? entity = none) :
    Rooted bases.base? entity :=
  (climbing_cycle? bases entity).rooted silent

/-- A climb that ends runs into no cycle, however far it goes. -/
theorem climb_eq_none_of_rooted {base : String → Option String} {steps : Nat}
    {entity : String} {below : List String} (rooted : Rooted base entity)
    (passed : ∀ lower ∈ below, Descends base lower entity) :
    climb base steps entity below = none := by
  induction steps generalizing entity below with
  | zero => rfl
  | succ steps induction =>
      rw [climb]
      cases link : base entity with
      | none => rfl
      | some next =>
          have ahead := rooted.not_descends_of_base link
          have fresh : next ∉ entity :: below := by
            intro member
            rcases List.mem_cons.mp member with same | earlier
            · exact ahead (same ▸ .refl next)
            · exact ahead (passed next earlier)
          dsimp only
          rw [if_neg fresh]
          refine induction (rooted.of_base link) fun lower member => ?_
          rcases List.mem_cons.mp member with rfl | earlier
          · exact .of_base link
          · exact (passed lower earlier).trans (.of_base link)

/-- Climbing from an entity runs into no cycle exactly if it ends. -/
theorem cycle?_eq_none_iff {bases : Bases} {entity : String} :
    bases.cycle? entity = none ↔ Rooted bases.base? entity :=
  ⟨rooted_of_cycle?_eq_none, fun rooted =>
    climb_eq_none_of_rooted rooted fun _ absent => nomatch absent⟩

end Bases

end EntityCatalog
