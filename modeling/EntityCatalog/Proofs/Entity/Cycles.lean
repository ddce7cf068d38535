import EntityCatalog.Proofs.Entity.Linking
import Mathlib.Data.List.Chain

/-!
# Cycles of bases

A cycle that climbing runs into leads once round (`Cycle.Closes`): its members
differ, each is followed by its base, and the last one by the start.  Cycles of
the same bases have the same members or none in common, and so breaking them in
turn finds each exactly once, from wherever the climb comes
(`Breaks.exists_cycle`).  A base is taken away from one member of each cycle and
from nobody else (`Breaks.exists_lost`, `Breaks.base?_of_apart`).
-/

namespace EntityCatalog

/-! ## Rounds -/

/-- Climbing from the start of a cycle leads to its members in turn, each once,
and then back to the start. -/
structure Cycle.Closes (cycle : Cycle) (base : String → Option String) :
    Prop where
  distinct : cycle.members.Nodup
  follows : (cycle.members ++ [cycle.start]).IsChain fun lower upper =>
    base lower = some upper

section

variable {base : String → Option String}

/-- The first of several names that are bases in turn is within all of them. -/
theorem descends_of_isChain {first : String} {names : List String}
    (chain : (first :: names).IsChain fun lower upper =>
      base lower = some upper) :
    ∀ name ∈ first :: names, Descends base first name := by
  induction names generalizing first with
  | nil =>
      intro name member
      rw [List.mem_singleton.mp member]
      exact .refl first
  | cons second rest induction =>
      rcases List.isChain_cons_cons.mp chain with ⟨link, later⟩
      intro name member
      rcases List.mem_cons.mp member with rfl | above
      · exact .refl name
      · exact .step link (induction later name above)

/-- All of several names that are bases in turn are within the last. -/
theorem descends_last_of_isChain {last : String} {names : List String}
    (chain : (names ++ [last]).IsChain fun lower upper =>
      base lower = some upper) :
    ∀ name ∈ names, Descends base name last := by
  intro name member
  rcases List.append_of_mem member with ⟨below, above, rfl⟩
  rw [List.append_assoc] at chain
  exact descends_of_isChain chain.right_of_append last (by simp)

namespace Cycle.Closes

variable {cycle other : Cycle}

theorem exists_base (closes : cycle.Closes base) {entity : String}
    (member : entity ∈ cycle.members) :
    ∃ next ∈ cycle.members, base entity = some next := by
  have chain := closes.follows
  rcases List.append_of_mem member with ⟨below, above, split⟩
  have inside : ∀ name ∈ above ++ [cycle.start], name ∈ cycle.members := by
    intro name later
    rcases List.mem_append.mp later with here | last
    · rw [split]
      exact List.mem_append_right _ (List.mem_cons_of_mem _ here)
    · rw [List.mem_singleton.mp last]
      exact List.mem_cons_self ..
  rw [split, List.append_assoc, List.cons_append] at chain
  cases onward : above ++ [cycle.start] with
  | nil => exact absurd onward (by simp)
  | cons next rest =>
      rw [onward] at chain inside
      exact ⟨next, inside next (List.mem_cons_self ..),
        (List.isChain_append_cons_cons.mp chain).2.1⟩

/-- The members of a cycle are what each of them is within. -/
theorem mem_members_iff (closes : cycle.Closes base) {entity name : String}
    (member : entity ∈ cycle.members) :
    name ∈ cycle.members ↔ Descends base entity name := by
  constructor
  · intro within
    refine (descends_last_of_isChain closes.follows entity member).trans ?_
    exact descends_of_isChain closes.follows.left_of_append name within
  · intro climb
    induction climb with
    | refl => exact member
    | step link _ induction =>
        rcases closes.exists_base member with ⟨next, inside, same⟩
        rw [link] at same
        cases same
        exact induction inside

/-- Cycles with a common member have the same members. -/
theorem perm (closes : cycle.Closes base) (also : other.Closes base)
    {entity : String} (member : entity ∈ cycle.members)
    (shared : entity ∈ other.members) :
    cycle.members.Perm other.members := by
  refine (List.perm_ext_iff_of_nodup closes.distinct also.distinct).mpr ?_
  intro name
  rw [closes.mem_members_iff member, also.mem_members_iff shared]

/-- Where a cycle closes, climbing does not end. -/
theorem not_rooted (closes : cycle.Closes base) {entity : String}
    (member : entity ∈ cycle.members) : ¬ Rooted base entity := by
  intro rooted
  rcases closes.exists_base member with ⟨next, inside, link⟩
  exact rooted.not_descends_of_base link
    ((closes.mem_members_iff inside).mp member)

/-- A cycle closes along other bases, if its members have the same there. -/
theorem congr {further : String → Option String}
    (closes : cycle.Closes base)
    (same : ∀ entity ∈ cycle.members, ∀ next, base entity = some next →
      further entity = some next) :
    cycle.Closes further := by
  refine ⟨closes.distinct, ?_⟩
  refine List.IsChain.imp_of_mem_imp (fun lower upper below _ link => ?_)
    closes.follows
  rcases List.mem_append.mp below with member | last
  · exact same lower member upper link
  · rw [List.mem_singleton.mp last] at link ⊢
    exact same _ (List.mem_cons_self ..) upper link

end Cycle.Closes

end

namespace Bases

/-! ## Cycles that are found -/

/-- What climbing runs into is a cycle. -/
theorem Climbing.isCycle {base : String → Option String} {entity : String}
    {below : List String} {result : Option Cycle}
    (climbing : Climbing base entity below result)
    (distinct : (entity :: below).Nodup)
    (path : (entity :: below).IsChain fun upper lower =>
      base lower = some upper) :
    ∀ cycle, result = some cycle → cycle.Closes base := by
  induction climbing with
  | ends =>
      intro cycle found
      cases found
  | goes link fresh rest induction =>
      exact induction (List.nodup_cons.mpr ⟨fresh, distinct⟩)
        (List.isChain_cons_cons.mpr ⟨link, path⟩)
  | @closes entity next below link again =>
      rintro cycle ⟨⟩
      -- The cycle is what was climbed since the base came up first.
      rcases List.eq_append_cons_of_mem again with ⟨since, before, split, fresh⟩
      have climbed : (entity :: below).takeWhile (· ≠ next) = since := by
        rw [split, List.takeWhile_append_of_pos]
        · simp
        · intro name member
          exact decide_eq_true fun same => fresh (same ▸ member)
      have first : (since ++ [next]).head? = some entity := by
        have whole : (since ++ next :: before).head? = some entity := by
          rw [← split, List.head?_cons]
        cases since <;> exact whole
      rw [split] at distinct path
      rw [climbed]
      have members : Cycle.members ⟨next, since.reverse⟩ =
          (since ++ [next]).reverse := by
        simp [Cycle.members]
      constructor
      · rw [members, List.nodup_reverse]
        refine distinct.sublist ?_
        exact List.Sublist.append_left (by simp) since
      · have turned : Cycle.members ⟨next, since.reverse⟩ ++ [next] =
            (next :: (since ++ [next])).reverse := by
          rw [members, List.reverse_cons]
        rw [turned, List.isChain_reverse, List.isChain_cons]
        refine ⟨fun lower here => ?_, (List.isChain_split.mp path).1⟩
        rw [first] at here
        cases here
        exact link

/-- The search finds cycles. -/
theorem closes_of_cycle? {bases : Bases} {entity : String} {cycle : Cycle}
    (found : bases.cycle? entity = some cycle) :
    cycle.Closes bases.base? :=
  (climbing_cycle? bases entity).isCycle (List.nodup_singleton entity)
    (List.isChain_singleton entity) cycle found

/-! ## Breaking cycles -/

/-- Some cycles, no two with a common member, are broken by taking the base of
one member away. -/
structure Breaks (before after : Bases) (cycles : List Cycle) : Prop where
  closes : ∀ cycle ∈ cycles, cycle.Closes before.base?
  apart : cycles.Pairwise fun first second =>
    first.members.Disjoint second.members
  /-- Nobody else loses its base. -/
  base? : ∀ entity, after.base? entity =
    if entity ∈ cycles.map Cycle.closing then none else before.base? entity

/-- What is left without some base was there before. -/
theorem base?_of_erase {bases : Bases} {closing entity next : String}
    (link : base? (bases.erase closing) entity = some next) :
    entity ≠ closing ∧ bases.base? entity = some next := by
  rw [base?_erase] at link
  split at link
  · cases link
  · rename_i other
    exact ⟨other, link⟩

theorem breaks_breakCycles (bases : Bases) (names : List String) :
    Breaks bases (bases.breakCycles names).1 (bases.breakCycles names).2 := by
  induction names generalizing bases with
  | nil =>
      refine ⟨?_, List.Pairwise.nil, fun entity => ?_⟩
      · exact fun _ absent => nomatch absent
      · exact (if_neg List.not_mem_nil).symm
  | cons name rest induction =>
      rw [breakCycles]
      cases climbed : bases.cycle? name with
      | none => exact induction bases
      | some cycle =>
          have round := closes_of_cycle? climbed
          have later := induction (bases.erase cycle.closing)
          -- What closes without the base that was taken away closed before,
          -- and does not pass the entity that lost it.
          have closed : ∀ other ∈
              (breakCycles (bases.erase cycle.closing) rest).2,
              other.Closes bases.base? := by
            intro other member
            exact (later.closes other member).congr
              fun _ _ _ link => (base?_of_erase link).2
          refine ⟨List.forall_mem_cons.mpr ⟨round, closed⟩,
            List.pairwise_cons.mpr ⟨?_, later.apart⟩, fun entity => ?_⟩
          · intro other member entity here there
            have passes := (round.perm (closed other member) here
              there).mem_iff.mp cycle.closing_mem_members
            rcases (later.closes other member).exists_base passes with
              ⟨next, -, link⟩
            exact (base?_of_erase link).1 rfl
          · dsimp only
            rw [later.base?, base?_erase, List.map_cons]
            by_cases first : entity = cycle.closing <;> simp [first]

namespace Breaks

variable {before after : Bases} {cycles : List Cycle} {round : Cycle}

/-- Where all climbs end afterwards, every cycle there was has been broken, and
only once. -/
theorem exists_cycle (breaks : Breaks before after cycles)
    (rooted : ∀ entity, Rooted after.base? entity)
    (closes : round.Closes before.base?) :
    ∃ earlier cycle later, cycles = earlier ++ cycle :: later ∧
      cycle.members.Perm round.members ∧
      ∀ other ∈ earlier ++ later, other.members.Disjoint round.members := by
  have broken : ∃ cycle ∈ cycles, cycle.closing ∈ round.members := by
    by_contra whole
    have kept : round.Closes after.base? := by
      refine closes.congr fun entity member next link => ?_
      rw [breaks.base?, if_neg, link]
      intro lost
      rcases List.mem_map.mp lost with ⟨cycle, listed, rfl⟩
      exact whole ⟨cycle, listed, member⟩
    exact kept.not_rooted (List.mem_cons_self ..) (rooted round.start)
  rcases broken with ⟨cycle, listed, passes⟩
  have same := (breaks.closes cycle listed).perm closes
    cycle.closing_mem_members passes
  rcases List.append_of_mem listed with ⟨earlier, later, split⟩
  refine ⟨earlier, cycle, later, split, same, fun other member => ?_⟩
  have apart := breaks.apart
  rw [split, List.pairwise_append, List.pairwise_cons] at apart
  rcases apart with ⟨-, ⟨after, -⟩, across⟩
  intro entity inside shared
  have here := same.mem_iff.mpr shared
  rcases List.mem_append.mp member with first | last
  · exact across other first cycle (List.mem_cons_self ..) inside here
  · exact after other last here inside

/-- One member of each cycle has lost its base, and the others kept theirs. -/
theorem exists_lost (breaks : Breaks before after cycles)
    (rooted : ∀ entity, Rooted after.base? entity)
    (closes : round.Closes before.base?) :
    ∃ lost ∈ round.members, after.base? lost = none ∧
      ∀ kept ∈ round.members, kept ≠ lost →
        after.base? kept = before.base? kept := by
  rcases breaks.exists_cycle rooted closes with
    ⟨earlier, cycle, later, split, same, others⟩
  refine ⟨cycle.closing, same.mem_iff.mp cycle.closing_mem_members, ?_, ?_⟩
  · rw [breaks.base?, if_pos]
    rw [split]
    simp
  · intro kept member other
    rw [breaks.base?, if_neg]
    intro lost
    rcases List.mem_map.mp lost with ⟨found, listed, rfl⟩
    rw [split] at listed
    rcases List.mem_append.mp listed with first | here
    · exact others found (List.mem_append_left _ first)
        found.closing_mem_members member
    · rcases List.mem_cons.mp here with rfl | last
      · exact other rfl
      · exact others found (List.mem_append_right _ last)
          found.closing_mem_members member

/-- Whoever is on no cycle keeps its base. -/
theorem base?_of_apart (breaks : Breaks before after cycles) {entity : String}
    (apart : ∀ cycle : Cycle, cycle.Closes before.base? →
      entity ∉ cycle.members) :
    after.base? entity = before.base? entity := by
  rw [breaks.base?, if_neg]
  intro lost
  rcases List.mem_map.mp lost with ⟨cycle, listed, rfl⟩
  exact apart cycle (breaks.closes cycle listed) cycle.closing_mem_members

end Breaks

end Bases

end EntityCatalog
