import EntityCatalog.Proofs.Relation.Grounded

/-!
# Why relations are settled and contested

These statements hold for all sources, steady or not.  A side is settled for one of
six reasons (`Scope.Warrants`): its hint or that of the other side, an answer or the
lack of one, an inverse that is added, or a claim on ownership.  Two relations are
contested because a hint of one names the other, or because one without hints has
the other in sight (`Scope.Contests`).  All this is shown of single relations
(`Scope.explains_pair`) and then of a run (`Scope.explains_run`).
-/

namespace EntityCatalog.Pairing

/-! ## Reasons -/

/-- A relation of a kind that looks for its other side. -/
def Side.Seeks (side : Side) : Prop :=
  side.relation.kind = .oneToOne ∨ side.relation.kind = .manyToMany

/-- Two relations that entities hold, where a hint of the one names the other. -/
structure Scope.Hints (scope : Scope) (hint : Hint) (side other : Side) :
    Prop where
  held : side.Held scope.entities
  heldOther : other.Held scope.entities
  slot : hint.slot side.relation.sides = some other.property.name
  kind : other.relation.kind = side.relation.kind.reciprocal

/-- Two relations that entities hold, where the one that seeks its other side has
the other in sight. -/
structure Scope.Sights (scope : Scope) (side other : Side) : Prop where
  held : side.Held scope.entities
  heldOther : other.Held scope.entities
  seeks : side.Seeks
  kind : other.relation.kind = side.relation.kind
  different : other.place ≠ side.place

/-- The reasons for which a side is settled. -/
inductive Scope.Warrants (scope : Scope) : Settlement → Prop
  | hinted {hint : Hint} {side other : Side}
      (hints : scope.Hints hint side other) :
      scope.Warrants ⟨side.place,
        sidesNaming (decide (hint = .inversedBy)) none, other.place⟩
  | named {hint : Hint} {side other : Side}
      (hints : scope.Hints hint side other) :
      scope.Warrants ⟨other.place, sidesNaming (!decide (hint = .inversedBy))
        (some side.property.name), side.place⟩
  | answered {side other : Side} {owner : Bool}
      (sights : scope.Sights side other)
      (answer : other.answer side.property.name = some owner) :
      scope.Warrants ⟨side.place, sidesNaming owner (some other.property.name),
        other.place⟩
  | alone {side : Side} (held : side.Held scope.entities) (seeks : side.Seeks)
      (unhinted : side.relation.sides.isUnhinted = true) :
      scope.Warrants ⟨side.place, sidesNaming true none, side.place⟩
  | added {side : Side} {target : Entity} {name : String}
      (held : side.Held scope.entities) (seeks : side.Seeks)
      (registered : scope.entities.find? target.name = some target)
      (fresh : target.property? name = none) :
      scope.Warrants ⟨side.place, sidesNaming true (some name),
        ⟨target.name, name⟩⟩
  | between {side other : Side} {owner : Bool}
      (sights : scope.Sights side other)
      (claim : owns side.relation.ownerHint other.relation.ownerHint =
        .ok owner) :
      scope.Warrants ⟨side.place, sidesNaming owner (some other.property.name),
        other.place⟩

/-- A relation that seeks its other side has another one of its target in sight,
which is as free as it is and points back, by what was found out. -/
structure Scope.Confronts (scope : Scope) (findings : Findings) (side : Side)
    (target : Entity) (other : Side) : Prop
    extends scope.Sights side other where
  known : findings.known? side.property.origin side.relation.target =
    some target.name
  entity : other.entity = target
  back : ∃ found,
    findings.known? other.property.origin other.relation.target = some found ∧
      scope.entities.isRelated found side.entity.name = true
  leads : scope.pairedByBase side = false
  unhinted : side.relation.sides.isUnhinted = true
  unhintedOther : other.relation.sides.isUnhinted = true

/-- The reasons for which two relations are reported as ambiguous. -/
inductive Scope.Contests (scope : Scope) (findings : Findings) : Defect → Prop
  | hinted {hint : Hint} {side other : Side}
      (hints : scope.Hints hint side other) (ambiguity : Ambiguity) :
      scope.Contests findings (.conflict side.property other.property ambiguity)
  | facing {side other : Side} {target : Entity}
      (confronts : scope.Confronts findings side target other)
      (ambiguity : Ambiguity) :
      scope.Contests findings (.conflict side.property other.property ambiguity)

/-- An outcome whose settlements and ambiguities have a reason. -/
structure Scope.Explains (scope : Scope) (findings : Findings)
    (outcome : Outcome) : Prop where
  settles : ∀ settlement, .settle settlement ∈ outcome.decisions →
    scope.Warrants settlement
  contests : ∀ place other ambiguity,
    outcome.defect = some (.ambiguousOwnership place other ambiguity) →
      scope.Contests findings (.ambiguousOwnership place other ambiguity)

/-! ## What is found out later -/

section

variable {scope : Scope} {findings later : Findings} {side other : Side}
  {target : Entity} {defect : Defect}

theorem Scope.Confronts.of_keeps
    (confronts : scope.Confronts findings side target other)
    (keeps : findings.Keeps later) :
    scope.Confronts later side target other where
  toSights := confronts.toSights
  known := keeps.known? confronts.known
  entity := confronts.entity
  back := by
    rcases confronts.back with ⟨found, known, related⟩
    exact ⟨found, keeps.known? known, related⟩
  leads := confronts.leads
  unhinted := confronts.unhinted
  unhintedOther := confronts.unhintedOther

theorem Scope.Contests.of_keeps (contests : scope.Contests findings defect)
    (keeps : findings.Keeps later) : scope.Contests later defect := by
  cases contests with
  | hinted hints ambiguity => exact .hinted hints ambiguity
  | facing confronts ambiguity =>
      exact .facing (confronts.of_keeps keeps) ambiguity

end

namespace Scope

variable {scope : Scope} {side other : Side} {target : Entity}
  {findings : Findings}

/-! ## Outcomes -/

theorem explains_silent (scope : Scope) (findings : Findings) :
    scope.Explains findings .silent :=
  ⟨fun _ absent => (nomatch absent), fun _ _ _ absent => nomatch absent⟩

theorem explains_failure {defect : Defect}
    (contests : ∀ place other ambiguity,
      defect = .ambiguousOwnership place other ambiguity →
        scope.Contests findings defect) :
    scope.Explains findings (.failure defect) := by
  refine ⟨fun _ absent => (nomatch absent), fun place other ambiguity same => ?_⟩
  cases same
  exact contests place other ambiguity rfl

theorem explains_decisions {decisions : List Decision}
    (settles : ∀ settlement, .settle settlement ∈ decisions →
      scope.Warrants settlement) :
    scope.Explains findings { decisions := decisions } :=
  ⟨settles, fun _ _ _ absent => nomatch absent⟩

/-! ## Hinted relations -/

/-- The other side that is found by a hint is held by the target under the name,
and the kinds are reciprocal. -/
theorem of_follow {hint : Hint} {name : String}
    (found : (scope.follow side target hint name findings).1 = .found other) :
    other.entity = target ∧ target.property? name = some other.property ∧
      other.property.relation? = some other.relation ∧
      other.relation.kind = side.relation.kind.reciprocal := by
  unfold follow at found
  cases named : target.property? name with
  | none =>
      rw [named] at found
      dsimp only at found
      split at found <;> cases found
  | some property =>
      rw [named] at found
      dsimp only at found
      cases related : property.relation? with
      | none =>
          rw [related] at found
          cases found
      | some relation =>
          rw [related] at found
          dsimp only at found
          split at found
          · rename_i kind
            generalize scope.targetOf property relation findings = answered
              at found
            rcases answered with ⟨_ | back, later⟩
            · cases found
            · dsimp only at found
              split at found
              · cases found
                exact ⟨rfl, rfl, related, kind⟩
              · cases found
          · cases found

/-- What a hint fails with says nothing of ownership. -/
theorem not_ambiguous_of_follow {hint : Hint} {name : String} {defect : Defect}
    (failed : (scope.follow side target hint name findings).1 =
      .failure defect) {place rival : Place} {ambiguity : Ambiguity} :
    defect ≠ .ambiguousOwnership place rival ambiguity := by
  rintro rfl
  unfold follow at failed
  cases named : target.property? name with
  | none =>
      rw [named] at failed
      dsimp only at failed
      split at failed <;> cases failed
  | some property =>
      rw [named] at failed
      dsimp only at failed
      cases related : property.relation? with
      | none =>
          rw [related] at failed
          cases failed
      | some relation =>
          rw [related] at failed
          dsimp only at failed
          split at failed
          · generalize scope.targetOf property relation findings = answered
              at failed
            rcases answered with ⟨_ | back, later⟩
            · cases failed
            · dsimp only at failed
              split at failed <;> cases failed
          · cases failed

theorem explains_pairHinted (held : side.Held scope.entities)
    (registered : scope.entities.find? target.name = some target)
    {hint : Hint} {name : String}
    (slot : hint.slot side.relation.sides = some name) :
    scope.Explains (scope.pairHinted side target hint name findings).2
      (scope.pairHinted side target hint name findings).1 := by
  have found := @of_follow scope side
  have failed := @not_ambiguous_of_follow scope side target findings hint name
  unfold pairHinted
  rcases followed : scope.follow side target hint name findings with
    ⟨hinted, after⟩
  rw [followed] at failed
  cases hinted with
  | silent => exact explains_silent scope after
  | failure defect =>
      exact explains_failure fun place rival ambiguity same =>
        absurd same (failed rfl)
  | found other =>
      rcases found (congrArg Prod.fst followed) with
        ⟨entity, named, related, kind⟩
      have heldOther := (held_of_property? registered entity named related).1
      have called : name = other.property.name :=
        (Table.find?_eq_some named).2.symm
      have hints : scope.Hints hint side other :=
        ⟨held, heldOther, called ▸ slot, kind⟩
      dsimp only
      cases objection hint side.property.name other.relation with
      | some ambiguity =>
          exact explains_failure fun _ _ _ _ => .hinted hints ambiguity
      | none =>
          refine explains_decisions fun settlement member => ?_
          rcases List.mem_pair.mp member with same | same
          · cases same
            exact .hinted hints
          · cases same
            exact .named hints

/-! ## Relations without hints -/

section

variable (held : side.Held scope.entities) (seeks : side.Seeks)
  (unhinted : side.relation.sides.isUnhinted = true)

include held seeks unhinted

theorem explains_decideAlone
    (registered : scope.entities.find? target.name = some target) :
    scope.Explains findings (scope.decideAlone side target) := by
  unfold decideAlone
  dsimp only
  split
  · refine explains_failure fun _ _ _ same => ?_
    cases same
  · split
    · unfold synthesis
      dsimp only
      split
      · constructor
        · intro settlement member
          cases List.mem_singleton.mp member
          exact .alone held seeks unhinted
        · intro place other ambiguity same
          cases same
      · rename_i free
        rw [Table.contains_eq, Bool.not_eq_true, Option.isSome_eq_false_iff,
          Option.isNone_iff_eq_none] at free
        refine explains_decisions fun settlement member => ?_
        rcases List.mem_cons.mp member with same | later
        · cases same
          exact .alone held seeks unhinted
        · rcases List.mem_pair.mp later with same | same
          · cases same
            exact .added held seeks registered free
          · cases same
    · refine explains_decisions fun settlement member => ?_
      cases List.mem_singleton.mp member
      exact .alone held seeks unhinted

end

/-- Claims on ownership that go together do so seen from either side. -/
theorem owns_symm {left right : Option Bool} {owner : Bool}
    (claim : owns left right = .ok owner) :
    owns right left = .ok !owner := by
  rcases left with _ | _ | _ <;> rcases right with _ | _ | _ <;>
    cases claim <;> rfl

theorem Sights.symm (sights : scope.Sights side other) :
    scope.Sights other side where
  held := sights.heldOther
  heldOther := sights.held
  seeks := by
    rw [Side.Seeks, sights.kind]
    exact sights.seeks
  kind := sights.kind.symm
  different := sights.different.symm

theorem explains_decideBetween
    (confronts : scope.Confronts findings side target other) :
    scope.Explains findings (decideBetween side other) := by
  unfold decideBetween
  split
  · exact explains_failure fun _ _ _ _ => .facing confronts _
  · rename_i owner claim
    refine explains_decisions fun settlement member => ?_
    rcases List.mem_pair.mp member with same | same
    · cases same
      exact .between confronts.toSights claim
    · cases same
      exact .between confronts.toSights.symm (owns_symm claim)

theorem explains_decideUnhinted (held : side.Held scope.entities)
    (seeks : side.Seeks)
    (registered : scope.entities.find? target.name = some target)
    (unhinted : side.relation.sides.isUnhinted = true)
    {candidates : List Side}
    (sights : ∀ other ∈ candidates, scope.Sights side other)
    (confronts : ∀ other ∈ candidates,
      other.relation.sides.isUnhinted = true →
        scope.Confronts findings side target other) :
    scope.Explains findings (scope.decideUnhinted side target candidates) := by
  unfold decideUnhinted
  dsimp only
  split
  · rename_i other owner answered
    rcases List.exists_of_findSome?_eq_some answered with
      ⟨candidate, inside, answer⟩
    rcases Option.map_eq_some_iff.mp answer with ⟨owns, names, same⟩
    cases same
    refine explains_decisions fun settlement member => ?_
    cases List.mem_singleton.mp member
    exact .answered (sights _ inside) names
  · have free : ∀ other ∈ candidates.filter (·.relation.sides.isUnhinted),
        scope.Confronts findings side target other := by
      intro other inside
      rcases List.mem_filter.mp inside with ⟨member, unhintedOther⟩
      exact confronts other member unhintedOther
    split
    · exact explains_decideAlone held seeks unhinted registered
    · rename_i other single
      exact explains_decideBetween (free other (by simp [single]))
    · rename_i other next rest several
      exact explains_failure fun _ _ _ _ =>
        .facing (free other (by simp [several])) _

/-- What comes of pairing a relation with its target has a reason. -/
theorem explains_pair (held : side.Held scope.entities)
    (registered : scope.entities.find? target.name = some target)
    (known : findings.known? side.property.origin side.relation.target =
      some target.name)
    (leads : scope.pairedByBase side = false) :
    scope.Explains (scope.pair side target findings).2
      (scope.pair side target findings).1 := by
  have seeking : side.relation.sides.isUnhinted = true → side.Seeks →
      scope.Explains
        (scope.candidates side target target.properties.items findings).2
        (scope.decideUnhinted side target (scope.candidates side target
          target.properties.items findings).1) := by
    intro unhinted seeks
    have sights : ∀ other ∈ (scope.candidates side target
        target.properties.items findings).1, scope.Sights side other := by
      intro other inside
      rcases of_mem_candidates inside with
        ⟨entity, within, related, kind, different, -⟩
      exact ⟨held, (held_of_property? registered entity
        (Table.find?_key within) related).1, seeks, kind, different⟩
    refine explains_decideUnhinted held seeks registered unhinted sights ?_
    intro other inside unhintedOther
    rcases of_mem_candidates inside with ⟨entity, -, -, -, -, back⟩
    exact ⟨sights other inside,
      Findings.Keeps.known?
        (scope.keeps_candidates side target target.properties.items findings)
        known,
      entity, back, leads, unhinted, unhintedOther⟩
  unfold pair
  split
  · rename_i mapped
    exact explains_pairHinted held registered mapped
  · rename_i unmapped inverted
    exact explains_pairHinted held registered inverted
  · rename_i unmapped uninverted
    have unhinted : side.relation.sides.isUnhinted = true := by
      rw [Sides.isUnhinted, unmapped, uninverted]
      rfl
    split
    · exact explains_silent scope findings
    · exact explains_silent scope findings
    · rename_i kind
      exact seeking unhinted (Or.inl kind)
    · rename_i kind
      exact seeking unhinted (Or.inr kind)

end Scope

/-! ## Runs -/

/-- A pairing all of whose settlements and ambiguities have a reason. -/
structure Progress.Explained (progress : Progress) (scope : Scope) : Prop where
  settles : ∀ settlement, .settle settlement ∈ progress.decisions →
    scope.Warrants settlement
  contests : ∀ place other ambiguity,
    .ambiguousOwnership place other ambiguity ∈ progress.defects →
      scope.Contests progress.findings
        (.ambiguousOwnership place other ambiguity)

namespace Scope

variable {scope : Scope}

theorem explains_step {progress : Progress} {side : Side}
    (explained : progress.Explained scope)
    (held : side.Held scope.entities) :
    (scope.step progress side).Explained scope := by
  unfold step
  split
  · exact explained
  · rename_i taken
    have leads : scope.pairedByBase side = false := by
      rw [skips, Bool.or_eq_true, not_or] at taken
      exact Bool.eq_false_iff.mpr taken.2
    have keeps := progress.findings.keeps_force scope.directory
      side.property.origin side.relation.target
    have known := @Findings.known_of_force progress.findings scope.directory
      side.property.origin side.relation.target
    generalize progress.findings.force scope.directory side.property.origin
      side.relation.target = forced at keeps known ⊢
    rcases forced with ⟨miss | name, findings⟩
    · refine ⟨explained.settles, fun place other ambiguity member => ?_⟩
      rcases List.mem_append.mp member with earlier | here
      · exact (explained.contests _ _ _ earlier).of_keeps keeps
      · cases miss <;> cases List.mem_singleton.mp here
    · dsimp only
      split
      · exact ⟨explained.settles, fun place other ambiguity member =>
          (explained.contests _ _ _ member).of_keeps keeps⟩
      · rename_i target found
        rcases (Table.find?_eq_some found).2 with rfl
        have paired := explains_pair held found (known rfl) leads
        have later : findings.Keeps (scope.pair side target findings).2 :=
          kept_pair (fun _ _ between kept =>
            kept.trans (between.keeps_force _ _ _)) found (.refl findings)
        refine ⟨fun settlement member => ?_,
          fun place other ambiguity member => ?_⟩
        · rcases List.mem_append.mp member with earlier | here
          · exact explained.settles settlement earlier
          · exact paired.settles settlement here
        · rcases List.mem_append.mp member with earlier | here
          · exact (explained.contests _ _ _ earlier).of_keeps
              (keeps.trans later)
          · exact paired.contests _ _ _ (Option.mem_toList.mp here)

/-- Whatever a run settles and finds ambiguous has a reason. -/
theorem explains_run (scope : Scope) (findings : Findings) :
    (scope.run findings).Explained scope := by
  have start : Progress.Explained { findings := findings } scope :=
    ⟨fun _ absent => (nomatch absent), fun _ _ _ absent => nomatch absent⟩
  have held : ∀ side ∈ scope.sides, side.Held scope.entities :=
    fun side member => mem_sides_iff.mp member
  change (scope.sides.foldl scope.step { findings := findings }).Explained _
  generalize ({ findings := findings } : Progress) = progress at start ⊢
  generalize scope.sides = sides at held ⊢
  induction sides generalizing progress with
  | nil => exact start
  | cons side rest induction =>
      exact induction _ (explains_step start (held side (List.mem_cons_self ..)))
        fun other later => held other (List.mem_cons_of_mem _ later)

end Scope

end EntityCatalog.Pairing
