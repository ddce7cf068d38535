import EntityCatalog.Proofs.Entity.Completed
import EntityCatalog.Proofs.Relation.Traversal

/-!
# What pairing decides and reports about

These statements hold for all sources, steady or not.  Whatever pairing finds
out, it decides about relations that entities hold and about inverses of such
relations (`Scope.Grounded`), and what it reports is wrong with such a relation
(`Scope.Faults`).  What is reported of a hint is wrong with the property that
the target of the relation has under its name, by what is found out in the end
(`Scope.Mistakes`).  All this is shown of single relations
(`Scope.accounts_pair`) and then of a run (`Scope.accounts_run`).
-/

namespace EntityCatalog.Pairing

/-! ## Decisions and defects with a ground -/

/-- A relation that may get an inverse. -/
structure Scope.Inverts (scope : Scope) (side : Side) : Prop where
  held : side.Held scope.entities
  many : side.relation.kind = .manyToMany
  concrete : side.entity.isAbstract = false
  adds : scope.config.synthesizeInverse = true

/-- The places that decisions are made on account of: relations that entities
hold, and inverses that these may get. -/
inductive Scope.Names (scope : Scope) : Place → Prop
  | held {side : Side} (held : side.Held scope.entities) :
      scope.Names side.place
  | inverse {side : Side} {holder : String} (inverts : scope.Inverts side)
      (registered : holder ∈ scope.entities.keys) :
      scope.Names ⟨holder, scope.config.inverseNaming.inverseName
        side.entity.name side.property.name⟩

/-- A decision about a relation that an entity holds, or about an inverse of
one that is added to an entity. -/
inductive Scope.Grounded (scope : Scope) : Decision → Prop
  | settle {side : Side} {source : Place} (held : side.Held scope.entities)
      (sides : Sides) (named : scope.Names source) :
      scope.Grounded (.settle ⟨side.place, sides, source⟩)
  | synthesize {side : Side} {holder : String} (inverts : scope.Inverts side)
      (registered : holder ∈ scope.entities.keys) :
      scope.Grounded (.synthesize ⟨holder,
        scope.config.inverseNaming.inverseName side.entity.name
          side.property.name, side.place⟩)

/-- An entity holds a relation whose target was found, with a hint at what the
target has under a name. -/
structure Scope.Refers (scope : Scope) (findings : Findings) (side : Side)
    (target : Entity) (name : String) : Prop where
  held : side.Held scope.entities
  registered : scope.entities.find? target.name = some target
  known : findings.known? side.property.origin side.relation.target =
    some target.name
  hinted : side.relation.sides.reciprocalName? = some name

/-- What is wrong with a property that a hint names, as the other side of a
relation. -/
inductive Scope.Mistakes (scope : Scope) (findings : Findings) (side : Side)
    (target : Entity) (other : Property) : Defect → Prop
  | kind (differs : ∀ relation, other.relation? = some relation →
        relation.kind ≠ side.relation.kind.reciprocal) :
      scope.Mistakes findings side target other
        (.kindMismatch side.place (.relation side.relation.kind)
          (target.place other) other.kind)
  | target {relation : Relation} {found : String}
      (related : other.relation? = some relation)
      (reciprocal : relation.kind = side.relation.kind.reciprocal)
      (known : findings.known? other.origin relation.target = some found)
      (apart : scope.entities.isRelated found side.entity.name = false) :
      scope.Mistakes findings side target other
        (.targetMismatch side.place (target.place other) found)

/-- What may be wrong with a relation that an entity holds. -/
inductive Scope.Faults (scope : Scope) (findings : Findings) : Defect → Prop
  | missed {side : Side} (held : side.Held scope.entities) (miss : Miss) :
      scope.Faults findings (miss.targetDefect side.property.origin)
  | misused {side : Side} (held : side.Held scope.entities) (misuse : Misuse) :
      scope.Faults findings (.configuration side.place misuse)
  /-- Its hint names nothing, not even what was dropped. -/
  | dangling {side : Side} {target : Entity} {name : String}
      (refers : scope.Refers findings side target name)
      (absent : target.property? name = none)
      (kept : scope.entities.anyWithin scope.invalid ⟨target.name, name⟩ =
        false)
      (hint : Hint) :
      scope.Faults findings
        (.danglingHint side.place target.name name hint)
  | mistaken {side : Side} {target : Entity} {name : String} {other : Property}
      {defect : Defect} (refers : scope.Refers findings side target name)
      (named : target.property? name = some other)
      (mistakes : scope.Mistakes findings side target other defect) :
      scope.Faults findings defect
  | conflict {side other : Side} (held : side.Held scope.entities)
      (heldOther : other.Held scope.entities) (ambiguity : Ambiguity) :
      scope.Faults findings (.conflict side.property other.property ambiguity)

/-- An outcome all of which has a ground. -/
structure Scope.Accounts (scope : Scope) (findings : Findings)
    (outcome : Outcome) : Prop where
  decisions : ∀ decision ∈ outcome.decisions, scope.Grounded decision
  defect : ∀ defect, outcome.defect = some defect →
    scope.Faults findings defect

section

variable {scope : Scope} {findings later : Findings} {side : Side}
  {target : Entity} {defect : Defect}

theorem Scope.Refers.of_keeps {name : String}
    (refers : scope.Refers findings side target name)
    (keeps : findings.Keeps later) : scope.Refers later side target name :=
  { refers with known := keeps.known? refers.known }

theorem Scope.Mistakes.of_keeps {other : Property}
    (mistakes : scope.Mistakes findings side target other defect)
    (keeps : findings.Keeps later) :
    scope.Mistakes later side target other defect := by
  cases mistakes with
  | kind differs => exact .kind differs
  | target related reciprocal known apart =>
      exact .target related reciprocal (keeps.known? known) apart

/-- What is wrong stays wrong. -/
theorem Scope.Faults.of_keeps (faults : scope.Faults findings defect)
    (keeps : findings.Keeps later) : scope.Faults later defect := by
  cases faults with
  | missed held miss => exact .missed held miss
  | misused held misuse => exact .misused held misuse
  | dangling refers absent kept hint =>
      exact .dangling (refers.of_keeps keeps) absent kept hint
  | mistaken refers named mistakes =>
      exact .mistaken (refers.of_keeps keeps) named (mistakes.of_keeps keeps)
  | conflict held heldOther ambiguity =>
      exact .conflict held heldOther ambiguity

end

theorem Scope.Grounded.addresses {scope : Scope} {decision : Decision}
    (grounded : scope.Grounded decision) :
    scope.entities.Addresses decision := by
  cases grounded with
  | settle held sides named => exact ⟨_, _, held.property, held.relation⟩
  | synthesize inverts registered => exact registered

namespace Scope

variable {scope : Scope} {side other : Side} {target : Entity}
  {findings : Findings}

theorem accounts_silent (scope : Scope) (findings : Findings) :
    scope.Accounts findings .silent :=
  ⟨fun _ absent => (nomatch absent), fun _ absent => nomatch absent⟩

theorem accounts_failure {defect : Defect}
    (faults : scope.Faults findings defect) :
    scope.Accounts findings (.failure defect) := by
  refine ⟨fun _ absent => (nomatch absent), fun other wrong => ?_⟩
  cases wrong
  exact faults

theorem accounts_decisions {decisions : List Decision}
    (grounded : ∀ decision ∈ decisions, scope.Grounded decision) :
    scope.Accounts findings { decisions := decisions } :=
  ⟨grounded, fun _ absent => nomatch absent⟩

theorem grounded_settle {source : Place} (held : side.Held scope.entities)
    (owner : Bool) (name : Option String) (named : scope.Names source) :
    scope.Grounded (Pairing.settle side owner name source) :=
  .settle held _ named

/-! ## Following hints -/

theorem keeps_targetOf (scope : Scope) (property : Property)
    (relation : Relation) (findings : Findings) :
    findings.Keeps (scope.targetOf property relation findings).2 := by
  unfold targetOf
  split
  · exact .refl findings
  · exact findings.keeps_force _ _ _

/-- The target that a possible other side points at is known from then on. -/
theorem known_of_targetOf {property : Property} {relation : Relation}
    {found : String}
    (answered : (scope.targetOf property relation findings).1 = some found) :
    (scope.targetOf property relation findings).2.known? property.origin
      relation.target = some found := by
  unfold targetOf at answered ⊢
  split at answered
  · cases answered
  · rename_i kept
    rw [if_neg kept]
    refine Findings.known_of_force ?_
    dsimp only at answered
    generalize (findings.force scope.directory property.origin
      relation.target).1 = answer at answered ⊢
    cases answer with
    | ok name =>
        cases answered
        rfl
    | error miss => cases answered

/-- What following a hint may lead to. -/
inductive Follows (scope : Scope) (findings : Findings) : Hinted → Prop
  | silent : scope.Follows findings .silent
  | failure {defect : Defect} (faults : scope.Faults findings defect) :
      scope.Follows findings (.failure defect)
  | found {other : Side} (held : other.Held scope.entities) :
      scope.Follows findings (.found other)

section

variable {name : String} (refers : scope.Refers findings side target name)

include refers

theorem follows_follow (hint : Hint) :
    scope.Follows (scope.follow side target hint name findings).2
      (scope.follow side target hint name findings).1 := by
  unfold follow
  cases named : target.property? name with
  | none =>
      dsimp only
      split
      · exact .silent
      · rename_i kept
        exact .failure (.dangling refers named (Bool.eq_false_iff.mpr kept) _)
  | some property =>
      rw [Property.kind_of_relation? refers.held.relation]
      dsimp only
      cases related : property.relation? with
      | none =>
          refine .failure (.mistaken refers named (.kind fun other same => ?_))
          rw [related] at same
          cases same
      | some relation =>
          dsimp only
          split
          · rename_i reciprocal
            have keeps := scope.keeps_targetOf property relation findings
            have known := @known_of_targetOf scope findings property relation
            generalize scope.targetOf property relation findings = answered
              at keeps known ⊢
            rcases answered with ⟨_ | back, after⟩
            · exact .silent
            · dsimp only
              split
              · exact .found (held_of_property? refers.registered rfl named
                  related).1
              · rename_i apart
                exact .failure (.mistaken (refers.of_keeps keeps) named
                  (.target related reciprocal (known rfl)
                    (Bool.eq_false_iff.mpr apart)))
          · rename_i differs
            refine .failure (.mistaken refers named
              (.kind fun other same => ?_))
            rw [related] at same
            cases same
            exact differs

theorem accounts_pairHinted (hint : Hint) :
    scope.Accounts (scope.pairHinted side target hint name findings).2
      (scope.pairHinted side target hint name findings).1 := by
  have follows := follows_follow refers hint
  have held := refers.held
  unfold pairHinted
  generalize scope.follow side target hint name findings = followed at follows ⊢
  rcases followed with ⟨hinted, after⟩
  cases follows with
  | silent => exact accounts_silent scope after
  | failure faults => exact accounts_failure faults
  | @found other heldOther =>
      dsimp only
      cases objection hint side.property.name other.relation with
      | some ambiguity =>
          exact accounts_failure (.conflict held heldOther ambiguity)
      | none =>
          refine accounts_decisions fun decision member => ?_
          rcases List.mem_pair.mp member with rfl | rfl
          · exact grounded_settle held _ _ (.held heldOther)
          · exact grounded_settle heldOther _ _ (.held held)

end

/-! ## Looking for another side -/

theorem keeps_candidates (scope : Scope) (side : Side) (target : Entity)
    (properties : List Property) (findings : Findings) :
    findings.Keeps (scope.candidates side target properties findings).2 := by
  induction properties generalizing findings with
  | nil => exact .refl findings
  | cons property rest induction =>
      rw [candidates]
      cases property.relation? with
      | none => exact induction findings
      | some relation =>
          dsimp only
          split
          · have first := scope.keeps_targetOf property relation findings
            have later :=
              induction (scope.targetOf property relation findings).2
            split <;> exact first.trans later
          · exact induction findings

/-- What is in sight has the kind of the relation, is another one and points
back. -/
theorem of_mem_candidates {properties : List Property}
    (member : other ∈ (scope.candidates side target properties findings).1) :
    other.entity = target ∧ other.property ∈ properties ∧
      other.property.relation? = some other.relation ∧
      other.relation.kind = side.relation.kind ∧ other.place ≠ side.place ∧
      ∃ found, (scope.candidates side target properties findings).2.known?
          other.property.origin other.relation.target = some found ∧
        scope.entities.isRelated found side.entity.name = true := by
  induction properties generalizing findings with
  | nil => cases member
  | cons property rest induction =>
      have further : ∀ {between}, other ∈
          (scope.candidates side target rest between).1 →
            other.entity = target ∧ other.property ∈ property :: rest ∧
            other.property.relation? = some other.relation ∧
            other.relation.kind = side.relation.kind ∧
            other.place ≠ side.place ∧
            ∃ found, (scope.candidates side target rest between).2.known?
                other.property.origin other.relation.target = some found ∧
              scope.entities.isRelated found side.entity.name = true := by
        intro between inside
        rcases induction inside with ⟨entity, within, facts⟩
        exact ⟨entity, List.mem_cons_of_mem _ within, facts⟩
      rw [candidates] at member ⊢
      cases related : property.relation? with
      | none =>
          rw [related] at member
          exact further member
      | some relation =>
          rw [related] at member
          dsimp only at member ⊢
          split at member
          · rename_i alike
            rw [if_pos alike]
            split at member
            · rename_i back
              rw [if_pos back]
              rcases List.mem_cons.mp member with rfl | inside
              · rcases (Option.any_eq_true _ _).mp back with
                  ⟨found, answered, near⟩
                exact ⟨rfl, List.mem_cons_self .., related, alike.1, alike.2,
                  found, Findings.Keeps.known?
                    (scope.keeps_candidates side target rest _)
                    (known_of_targetOf answered), near⟩
              · exact further inside
            · rename_i apart
              rw [if_neg apart]
              exact further member
          · rename_i differs
            rw [if_neg differs]
            exact further member

section

variable (held : side.Held scope.entities)
  (registered : scope.entities.find? target.name = some target)

include held registered

omit held in
theorem accounts_synthesis (inverts : scope.Inverts side) :
    scope.Accounts findings (scope.synthesis side target) := by
  have held := inverts.held
  have known := Table.mem_keys_of_find? registered
  unfold synthesis
  dsimp only
  split
  · exact accounts_failure (.misused held _)
  · refine accounts_decisions fun decision member => ?_
    rcases List.mem_pair.mp member with rfl | rfl
    · exact grounded_settle held _ _ (.inverse inverts known)
    · exact .synthesize inverts known

theorem accounts_decideAlone :
    scope.Accounts findings (scope.decideAlone side target) := by
  have owning : scope.Grounded (Pairing.settle side true none side.place) :=
    grounded_settle held _ _ (.held held)
  unfold decideAlone
  dsimp only
  split
  · exact accounts_failure (.misused held _)
  · split
    · rename_i adding
      rw [Bool.and_eq_true, Bool.and_eq_true, decide_eq_true_eq,
        Bool.not_eq_true'] at adding
      have added : scope.Accounts findings (scope.synthesis side target) :=
        accounts_synthesis registered
          ⟨held, adding.1.1, adding.2, adding.1.2⟩
      refine ⟨fun decision member => ?_, added.defect⟩
      rcases List.mem_cons.mp member with rfl | later
      · exact owning
      · exact added.decisions decision later
    · refine accounts_decisions fun decision member => ?_
      rw [List.mem_singleton.mp member]
      exact owning

omit registered in
theorem accounts_decideBetween (heldOther : other.Held scope.entities) :
    scope.Accounts findings (decideBetween side other) := by
  unfold decideBetween
  split
  · exact accounts_failure (.conflict held heldOther _)
  · refine accounts_decisions fun decision member => ?_
    rcases List.mem_pair.mp member with rfl | rfl
    · exact grounded_settle held _ _ (.held heldOther)
    · exact grounded_settle heldOther _ _ (.held held)

theorem accounts_decideUnhinted {candidates : List Side}
    (holds : ∀ other ∈ candidates, other.Held scope.entities) :
    scope.Accounts findings (scope.decideUnhinted side target candidates) := by
  unfold decideUnhinted
  dsimp only
  split
  · rename_i other owner answered
    rcases List.exists_of_findSome?_eq_some answered with
      ⟨candidate, inside, answer⟩
    rcases Option.map_eq_some_iff.mp answer with ⟨owns, -, same⟩
    cases same
    refine accounts_decisions fun decision member => ?_
    rw [List.mem_singleton.mp member]
    exact grounded_settle held _ _ (.held (holds _ inside))
  · have free : ∀ other ∈ candidates.filter (·.relation.sides.isUnhinted),
        other.Held scope.entities :=
      fun other inside => holds other (List.mem_filter.mp inside).1
    split
    · exact accounts_decideAlone held registered
    · rename_i other single
      exact accounts_decideBetween held (free other (by simp [single]))
    · rename_i other next rest several
      exact accounts_failure
        (.conflict held (free other (by simp [several])) _)

/-- What comes of pairing a relation with its target has a ground. -/
theorem accounts_pair
    (known : findings.known? side.property.origin side.relation.target =
      some target.name) :
    scope.Accounts (scope.pair side target findings).2
      (scope.pair side target findings).1 := by
  have holds : ∀ other ∈ (scope.candidates side target
      target.properties.items findings).1, other.Held scope.entities := by
    intro other inside
    rcases of_mem_candidates inside with ⟨entity, within, related, -⟩
    exact (held_of_property? registered entity (Table.find?_key within)
      related).1
  unfold pair
  split
  · rename_i mapped
    refine accounts_pairHinted ⟨held, registered, known, ?_⟩ _
    rw [Sides.reciprocalName?, mapped]
    rfl
  · rename_i unmapped inverted
    refine accounts_pairHinted ⟨held, registered, known, ?_⟩ _
    rw [Sides.reciprocalName?, unmapped, inverted]
    rfl
  · split
    · exact accounts_silent scope findings
    · exact accounts_silent scope findings
    · exact accounts_decideUnhinted held registered holds
    · exact accounts_decideUnhinted held registered holds

end

end Scope

/-! ## Runs -/

/-- A pairing all of whose decisions and defects have a ground, and which missed
no target unless something is wrong. -/
structure Progress.Accounted (progress : Progress) (scope : Scope) : Prop where
  decisions : ∀ decision ∈ progress.decisions, scope.Grounded decision
  defects : ∀ defect ∈ progress.defects, scope.Faults progress.findings defect
  missed : progress.defects = [] → progress.missed = []

namespace Scope

variable {scope : Scope}

theorem accounts_step {progress : Progress} {side : Side}
    (accounted : progress.Accounted scope)
    (held : side.Held scope.entities) :
    (scope.step progress side).Accounted scope := by
  unfold step
  split
  · exact accounted
  · have keeps := progress.findings.keeps_force scope.directory
      side.property.origin side.relation.target
    have known := @Findings.known_of_force progress.findings scope.directory
      side.property.origin side.relation.target
    generalize progress.findings.force scope.directory side.property.origin
      side.relation.target = forced at keeps known ⊢
    rcases forced with ⟨_ | name, findings⟩
    · refine ⟨accounted.decisions, fun defect member => ?_, fun silent => ?_⟩
      · rcases List.mem_append.mp member with earlier | here
        · exact (accounted.defects defect earlier).of_keeps keeps
        · rw [List.mem_singleton.mp here]
          exact .missed held _
      · exact absurd silent (List.append_ne_nil_of_right_ne_nil _ (by simp))
    · dsimp only
      split
      · exact ⟨accounted.decisions, fun defect member =>
          (accounted.defects defect member).of_keeps keeps, accounted.missed⟩
      · rename_i target found
        rcases (Table.find?_eq_some found).2 with rfl
        have paired := accounts_pair held found (known rfl)
        have later : findings.Keeps (scope.pair side target findings).2 :=
          kept_pair (fun _ _ between kept =>
            kept.trans (between.keeps_force _ _ _)) found (.refl findings)
        refine ⟨fun decision member => ?_, fun defect member => ?_,
          fun silent => ?_⟩
        · rcases List.mem_append.mp member with earlier | here
          · exact accounted.decisions decision earlier
          · exact paired.decisions decision here
        · rcases List.mem_append.mp member with earlier | here
          · exact (accounted.defects defect earlier).of_keeps
              (keeps.trans later)
          · exact paired.defect defect (Option.mem_toList.mp here)
        · exact accounted.missed (List.append_eq_nil_iff.mp silent).1

/-- Whatever a run decides and reports has a ground, and where nothing is wrong
it missed no target. -/
theorem accounts_run (scope : Scope) (findings : Findings) :
    (scope.run findings).Accounted scope := by
  have start : Progress.Accounted { findings := findings } scope :=
    ⟨fun _ absent => (nomatch absent), fun _ absent => (nomatch absent),
      fun _ => rfl⟩
  have held : ∀ side ∈ scope.sides, side.Held scope.entities :=
    fun side member => mem_sides_iff.mp member
  change (scope.sides.foldl scope.step { findings := findings }).Accounted _
  generalize ({ findings := findings } : Progress) = progress at start ⊢
  generalize scope.sides = sides at held ⊢
  induction sides generalizing progress with
  | nil => exact start
  | cons side rest induction =>
      exact induction _ (accounts_step start (held side (List.mem_cons_self ..)))
        fun other later => held other (List.mem_cons_of_mem _ later)

end Scope

end EntityCatalog.Pairing
