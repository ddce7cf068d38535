import EntityCatalog.Proofs.Reference.Tasks

/-!
# How far references are followed

A deferred reference answers with another reference, which may be deferred in
turn.  Its answers may differ from one evaluation to the next, and the chain
need not end.  `EntityRef.Follows` says where some evaluations lead, however many
they are; it knows of no bound.

Looking up a reference follows its chain to the end, if it is not longer than
the directory allows, and otherwise for as many evaluations as are allowed
(`Directory.looksUp`).  So the bound is met exactly: a chain of just that many
deferred references is followed to its name, and one more of them is refused
before it is evaluated.
-/

namespace EntityCatalog

namespace EntityRef

/-- To evaluate some deferred references in turn leads from one reference to
another.  Each answers by the number of its evaluations so far. -/
inductive Follows (sources : Sources) :
    EntityRef → Tally → List Nat → EntityRef → Prop where
  | refl (reference : EntityRef) (tally : Tally) :
      Follows sources reference tally [] reference
  | step {source : Nat} {tally : Tally} {rest : List Nat} {last : EntityRef}
      (onward : Follows sources
        (sources.reference source (tally.count (.reference source)))
        (tally.record (.reference source)) rest last) :
      Follows sources (.deferred source) tally (source :: rest) last

variable {sources : Sources} {reference last : EntityRef} {tally : Tally}
  {evaluated : List Nat}

/-- To settle a reference is to settle what it leads to, with what is left of
the allowed evaluations. -/
theorem Follows.settle_eq (follows : Follows sources reference tally evaluated last)
    (left : Nat) :
    reference.settle sources (evaluated.length + left) tally =
      last.settle sources left
        (tally.recordAll (evaluated.map .reference)) := by
  induction follows with
  | refl reference tally =>
      rw [List.length_nil, Nat.zero_add]
      rfl
  | step onward induction =>
      rw [List.length_cons, Nat.succ_add, settle]
      exact induction

/-- A reference whose name is known settles on it without an evaluation. -/
theorem settle_of_staticName? {name : String}
    (known : reference.staticName? = some name) (depth : Nat) (tally : Tally) :
    reference.settle sources depth tally = (some name, tally) := by
  cases reference with
  | name entity | schema entity =>
      cases known
      cases depth <;> rfl
  | deferred source => cases known

/-- The evaluations that are allowed suffice to reach a name, or they are all
made and lead to a reference that is deferred still. -/
theorem exists_follows (sources : Sources) (depth : Nat) (reference : EntityRef)
    (tally : Tally) :
    (∃ evaluated last, Follows sources reference tally evaluated last ∧
        last.staticName?.isSome ∧ evaluated.length ≤ depth) ∨
      ∃ evaluated source, evaluated.length = depth ∧
        Follows sources reference tally evaluated (.deferred source) := by
  induction depth generalizing reference tally with
  | zero =>
      cases reference with
      | name | schema => exact Or.inl ⟨[], _, .refl _ _, rfl, Nat.le_refl 0⟩
      | deferred source => exact Or.inr ⟨[], source, rfl, .refl _ _⟩
  | succ depth induction =>
      cases reference with
      | name | schema => exact Or.inl ⟨[], _, .refl _ _, rfl, Nat.zero_le _⟩
      | deferred source =>
          rcases induction
              (sources.reference source (tally.count (.reference source)))
              (tally.record (.reference source)) with
            ⟨rest, last, follows, known, short⟩ | ⟨rest, next, all, follows⟩
          · exact Or.inl ⟨source :: rest, last, .step follows, known,
              Nat.succ_le_succ short⟩
          · exact Or.inr ⟨source :: rest, next, congrArg Nat.succ all,
              .step follows⟩

end EntityRef

namespace Directory

/-- What is found, and what is evaluated, when a reference is looked up for the
property at a place. -/
structure LooksUp (directory : Directory) (place : Place)
    (reference : EntityRef) (tally : Tally) : Prop where
  /-- Where a name is reached within the allowed evaluations, just these are made.
  The name is found if it is registered, and is reported as unknown if not. -/
  reached : ∀ evaluated last name,
    reference.Follows directory.sources tally evaluated last →
    last.staticName? = some name → evaluated.length ≤ directory.depth →
      (directory.lookUp reference tally).2 =
          tally.recordAll (evaluated.map .reference) ∧
        (directory.lookUp reference tally).1.mapError
            (Miss.targetDefect place) =
          if name ∈ directory.names then .ok name
          else .error (.unknownEntity place name)
  /-- Where no name is reached so soon, all allowed evaluations are made, and no
  more, and it is reported that the reference did not settle. -/
  unsettled :
    (∀ evaluated last name,
      reference.Follows directory.sources tally evaluated last →
      last.staticName? = some name → directory.depth < evaluated.length) →
      ∃ evaluated source, evaluated.length = directory.depth ∧
        reference.Follows directory.sources tally evaluated
          (.deferred source) ∧
        (directory.lookUp reference tally).2 =
          tally.recordAll (evaluated.map .reference) ∧
        (directory.lookUp reference tally).1.mapError
            (Miss.targetDefect place) =
          .error (.unsettledReference place directory.depth)

/-- References are followed exactly as far as the directory allows. -/
theorem looksUp (directory : Directory) (place : Place)
    (reference : EntityRef) (tally : Tally) :
    directory.LooksUp place reference tally := by
  constructor
  case reached =>
    intro evaluated last name follows known short
    have settled := follows.settle_eq (directory.depth - evaluated.length)
    rw [Nat.add_sub_cancel' short, EntityRef.settle_of_staticName? known]
      at settled
    simp only [lookUp, settled, judge]
    refine ⟨trivial, ?_⟩
    split <;> rfl
  case unsettled =>
    intro late
    rcases EntityRef.exists_follows directory.sources directory.depth reference
      tally with ⟨evaluated, last, follows, known, short⟩ |
        ⟨evaluated, source, all, follows⟩
    · rcases Option.isSome_iff_exists.mp known with ⟨name, here⟩
      exact absurd (late evaluated last name follows here) (Nat.not_lt.mpr short)
    · have settled := follows.settle_eq 0
      rw [Nat.add_zero, all] at settled
      refine ⟨evaluated, source, all, follows, ?_⟩
      simp only [lookUp, settled, EntityRef.settle, judge]
      exact ⟨trivial, rfl⟩

/-- The source answers with itself until its third evaluation. -/
example :
    let sources : Sources :=
      { reference := fun _ evaluation =>
          if evaluation < 2 then .deferred 0 else .name "Node"
        mapping := fun _ _ => []
        hook := fun _ _ => .null }
    (lookUp ⟨sources, 3, ["Node"]⟩ (.deferred 0) .empty).1 = .ok "Node" ∧
      (lookUp ⟨sources, 2, ["Node"]⟩ (.deferred 0) .empty).1 =
        .error (.unsettled 2) :=
  ⟨rfl, rfl⟩

end Directory

end EntityCatalog
