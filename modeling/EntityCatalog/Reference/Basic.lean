import EntityCatalog.Value

/-!
# References, hooks and what they answer

An entity is referred to by its name, by a schema of that name, or through a
deferred reference that is evaluated when it is needed.  Enum items may be
deferred in the same way, and hooks produce values at write time.

A deferred thing is known by the number of its source.  `Sources` says what
each source answers, which may differ from one evaluation to the next, and
`Tally` counts the evaluations made so far.  A deferred reference may answer
with another one, and such a chain need not end, so `EntityRef.settle` follows
it only to a given depth.
-/

namespace EntityCatalog

/-- How an entity is referred to. -/
inductive EntityRef where
  | name (entity : String)
  /-- By a schema, of which only the name matters. -/
  | schema (entity : String)
  /-- Through a source that is evaluated during resolution. -/
  | deferred (source : Nat)
  deriving DecidableEq, Repr, Inhabited

/-- The name, where it is known without evaluation. -/
def EntityRef.staticName? : EntityRef → Option String
  | .name entity => some entity
  | .schema entity => some entity
  | .deferred _ => none

/-- A reference of a document is a name. -/
def EntityRef.decode : Json.Decoder EntityRef := fun depth node =>
  (Json.decodeString depth node).map .name

/-- The items of an enum as declared. -/
inductive EnumItems where
  | literal (values : List Value)
  /-- A source of keys and values, evaluated on first use. -/
  | deferred (source : Nat)
  deriving Inhabited

/-- Enum items of a document are a list of values. -/
def EnumItems.decode : Json.Decoder EnumItems := fun depth node =>
  (Json.decodeList Value.decode depth node).map .literal

/-- A hook, which produces a value at write time. -/
structure Hook where
  source : Nat
  deriving DecidableEq, Repr, Inhabited

/-- Something that is evaluated. -/
inductive Evaluation where
  | reference (source : Nat)
  | mapping (source : Nat)
  | hook (source : Nat)
  deriving DecidableEq, Repr

/-- What every source answers, by the number of its earlier evaluations. -/
structure Sources where
  reference : Nat → Nat → EntityRef
  mapping : Nat → Nat → List (String × Value)
  hook : Nat → Nat → Value

/-- How often each thing was evaluated. -/
abbrev Tally := Table (Prod.fst : Evaluation × Nat → Evaluation)

namespace Tally

/-- How often a thing was evaluated. -/
def count (tally : Tally) (evaluation : Evaluation) : Nat :=
  (tally.find? evaluation).elim 0 Prod.snd

/-- Count one more evaluation. -/
def record (tally : Tally) (evaluation : Evaluation) : Tally :=
  tally.insert (evaluation, tally.count evaluation + 1)

/-- Recording an evaluation adds one to its count and to no other. -/
theorem count_record (tally : Tally) (made asked : Evaluation) :
    (tally.record made).count asked =
      tally.count asked + if made = asked then 1 else 0 := by
  by_cases same : made = asked
  · subst same
    simp [count, record]
  · simp [count, record, same]

end Tally

namespace Sources

/-- Evaluate a deferred reference. -/
def evaluateReference (sources : Sources) (source : Nat) (tally : Tally) :
    EntityRef × Tally :=
  (sources.reference source (tally.count (.reference source)),
    tally.record (.reference source))

/-- Evaluate a deferred enum mapping. -/
def evaluateMapping (sources : Sources) (source : Nat) (tally : Tally) :
    List (String × Value) × Tally :=
  (sources.mapping source (tally.count (.mapping source)),
    tally.record (.mapping source))

/-- Evaluate a hook. -/
def evaluateHook (sources : Sources) (hook : Hook) (tally : Tally) :
    Value × Tally :=
  (sources.hook hook.source (tally.count (.hook hook.source)),
    tally.record (.hook hook.source))

end Sources

/-- Follow a reference to the name it settles on, through at most `depth`
deferred references. -/
def EntityRef.settle (sources : Sources) :
    Nat → EntityRef → Tally → Option String × Tally
  | _, .name entity, tally => (some entity, tally)
  | _, .schema entity, tally => (some entity, tally)
  | 0, .deferred _, tally => (none, tally)
  | depth + 1, .deferred source, tally =>
    let (next, tally) := sources.evaluateReference source tally
    settle sources depth next tally

/-- The references that a reference leads to, itself first, through at most
`depth` evaluations. -/
def EntityRef.trail (sources : Sources) :
    Nat → EntityRef → Tally → List EntityRef × Tally
  | depth + 1, .deferred source, tally =>
    let (next, tally) := sources.evaluateReference source tally
    let (rest, tally) := trail sources depth next tally
    (.deferred source :: rest, tally)
  | _, reference, tally => ([reference], tally)

end EntityCatalog
