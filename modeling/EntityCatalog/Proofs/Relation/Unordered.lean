import EntityCatalog.Proofs.Relation.Carrying

/-!
# Proposals for one side in any order

A side of a relation is settled by proposals in turn, each of which is checked
against how ownership was decided and against two slots that may be filled, and
may fail after it has filled one of them.  Still the order does not matter
(`Settlement.unordered`).  In every order all proposals succeed exactly if they
go together: they give the side one owner, and each slot one name at most, with
the name that it held from the start (`Sides.Compatible`).  What the side is
settled to is then the same in every order.
-/

namespace EntityCatalog

namespace Sides

/-! ## Proposals that go together -/

/-- A name is given for a slot: it was there from the start or is proposed. -/
def Given (slot : Sides → Option String) (initial : Sides)
    (proposed : List Sides) (name : String) : Prop :=
  slot initial = some name ∨ ∃ sides ∈ proposed, slot sides = some name

/-- All proposals give the side one owner, and each slot one name at most. -/
structure Compatible (initial : Sides) (proposed : List Sides) : Prop where
  owner : ∀ first ∈ proposed, ∀ second ∈ proposed, first.owner = second.owner
  mappedBy : ∀ first second, Given Sides.mappedBy initial proposed first →
    Given Sides.mappedBy initial proposed second → first = second
  inversedBy : ∀ first second, Given Sides.inversedBy initial proposed first →
    Given Sides.inversedBy initial proposed second → first = second

variable {initial : Sides} {proposed : List Sides}

/-- Proposals that come to a result go together. -/
theorem Agreed.compatible {final : Sides}
    (agreed : initial.Agreed (· ∈ proposed) final) :
    initial.Compatible proposed where
  owner first here second there :=
    (agreed.owner first here).symm.trans (agreed.owner second there)
  mappedBy first second here there :=
    Option.some.inj (((agreed.mappedBy first).mpr here).symm.trans
      ((agreed.mappedBy second).mpr there))
  inversedBy first second here there :=
    Option.some.inj (((agreed.inversedBy first).mpr here).symm.trans
      ((agreed.inversedBy second).mpr there))

/-- Proposals that go together come to a result. -/
theorem Compatible.exists_agreed (compatible : initial.Compatible proposed) :
    ∃ final, initial.Agreed (· ∈ proposed) final := by
  rcases exists_slot_of_unique compatible.mappedBy with ⟨mappedBy, maps⟩
  rcases exists_slot_of_unique compatible.inversedBy with ⟨inversedBy, inverts⟩
  cases proposed with
  | nil =>
      refine ⟨⟨initial.owner, mappedBy, inversedBy⟩, ?_, fun _ => rfl, maps,
        inverts⟩
      exact fun sides given => absurd given List.not_mem_nil
  | cons sides rest =>
      have member : sides ∈ sides :: rest := List.mem_cons_self ..
      refine ⟨⟨sides.owner, mappedBy, inversedBy⟩, ?_, ?_, maps, inverts⟩
      · exact compatible.owner sides member
      · exact fun nothing => absurd member (nothing sides)

/-- Whether proposals go together is a matter of which they are. -/
theorem compatible_congr {other : List Sides}
    (same : ∀ sides, sides ∈ other ↔ sides ∈ proposed) :
    initial.Compatible other ↔ initial.Compatible proposed := by
  constructor
  · intro compatible
    rcases compatible.exists_agreed with ⟨final, agreed⟩
    exact (agreed.congr same).compatible
  · intro compatible
    rcases compatible.exists_agreed with ⟨final, agreed⟩
    exact (agreed.congr fun sides => (same sides).symm).compatible

end Sides

namespace Settlement

/-! ## Settling one copy by many proposals -/

/-- Settle one copy of a side by proposals in turn, each made on account of a
place. -/
def Progress.settleEach (progress : Progress) (place : Place)
    (links : List (Sides × Place)) : Progress :=
  links.foldl
    (fun progress (sides, source) => progress.settleCopy sides source place)
    progress

theorem Progress.defects_prefix_settleEach (progress : Progress)
    (place : Place) (links : List (Sides × Place)) :
    progress.defects <+: (progress.settleEach place links).defects := by
  induction links generalizing progress with
  | nil => exact List.prefix_rfl
  | cons link rest induction =>
      exact (Carried.defects_prefix_settleCopy progress link.1 link.2
        place).trans (induction _)

/-- Proposals for one copy are carried out, or one of them fails; where all of
them come to a result with the earlier ones, none does. -/
theorem Carried.settleEach {merged : Entities}
    {proposed : Place → Sides → Prop} {added : List Synthesis}
    {progress : Progress} {place : Place} {property : Property}
    {relation : Relation} (carried : Carried merged proposed added progress)
    (held : merged.property? place = some property)
    (related : property.relation? = some relation)
    (links : List (Sides × Place)) :
    ((progress.settleEach place links).defects = [] →
        Carried merged
          (fun asked sides =>
            proposed asked sides ∨ asked = place ∧ sides ∈ links.map Prod.fst)
          added (progress.settleEach place links)) ∧
      ((∃ result, relation.sides.Agreed
          (fun sides => proposed place sides ∨ sides ∈ links.map Prod.fst)
          result) →
        (progress.settleEach place links).defects = []) := by
  induction links generalizing progress proposed with
  | nil =>
      refine ⟨fun _ => carried.congr fun asked sides => ?_,
        fun _ => carried.silent⟩
      simp
  | cons link rest induction =>
      rcases link with ⟨next, source⟩
      rcases carried.settleCopy held related next source with ⟨agrees, keeps⟩
      change (((progress.settleCopy next source place).settleEach place
        rest).defects = [] → _) ∧ (_ → ((progress.settleCopy next source
          place).settleEach place rest).defects = [])
      constructor
      · intro silent
        have here : (progress.settleCopy next source place).defects = [] :=
          List.prefix_nil.mp
            (silent ▸ Progress.defects_prefix_settleEach _ place rest)
        refine ((induction (keeps here)).1 silent).congr fun asked sides => ?_
        rw [List.map_cons, List.mem_cons, or_assoc, and_or_left]
      · rintro ⟨result, together⟩
        have first : ∃ smaller, relation.sides.Agreed
            (fun sides => proposed place sides ∨ sides = next) smaller :=
          together.exists_of_fewer fun sides given =>
            given.imp_right fun same => List.mem_cons.mpr (Or.inl same)
        refine (induction (keeps (agrees.mpr first))).2 ⟨result, ?_⟩
        refine together.congr fun sides => ?_
        rw [List.map_cons, List.mem_cons, ← or_assoc]
        simp

/-! ## Proposals in any order -/

/-- What becomes of a relation that is settled by some proposals does not depend
on their order. -/
structure Unordered (entities : Entities) (place : Place) (property : Property)
    (relation : Relation) (links : List (Sides × Place)) : Prop where
  silent_iff :
    (Progress.settleEach { entities := entities } place links).defects = [] ↔
      relation.sides.Compatible (links.map Prod.fst)
  perm : ∀ other, other.Perm links →
    ((Progress.settleEach { entities := entities } place other).defects = [] ↔
      (Progress.settleEach { entities := entities } place links).defects = [])
  /-- If they do, the relation comes out with the same sides in every order, and
  these are what the proposals come to. -/
  same :
    (Progress.settleEach { entities := entities } place links).defects = [] →
      ∃ final, relation.sides.Agreed (· ∈ links.map Prod.fst) final ∧
        ∀ other, other.Perm links →
          (Progress.settleEach { entities := entities } place
              other).entities.property? place =
            some (property.withSides final)

variable {entities : Entities} {place : Place} {property : Property}
  {relation : Relation}

/-- Proposals of which none fails settle a relation to what they come to. -/
theorem exists_agreed_settleEach
    (held : entities.property? place = some property)
    (related : property.relation? = some relation)
    {links : List (Sides × Place)}
    (silent :
      (Progress.settleEach { entities := entities } place links).defects = []) :
    ∃ final, relation.sides.Agreed (· ∈ links.map Prod.fst) final ∧
      (Progress.settleEach { entities := entities } place
        links).entities.property? place = some (property.withSides final) := by
  have carried := ((carried_nothing entities).settleEach held related
    links).1 silent
  rcases carried.held place property held with ⟨final, kept, agrees⟩
  refine ⟨final, (agrees relation related).congr fun sides => ?_, kept⟩
  simp

/-- No proposal fails exactly if all go together. -/
theorem settleEach_eq_nil_iff
    (held : entities.property? place = some property)
    (related : property.relation? = some relation)
    (links : List (Sides × Place)) :
    (Progress.settleEach { entities := entities } place links).defects = [] ↔
      relation.sides.Compatible (links.map Prod.fst) := by
  constructor
  · intro silent
    rcases exists_agreed_settleEach held related silent with ⟨final, agreed, -⟩
    exact agreed.compatible
  · intro compatible
    rcases compatible.exists_agreed with ⟨final, agreed⟩
    refine ((carried_nothing entities).settleEach held related links).2
      ⟨final, agreed.congr fun sides => ?_⟩
    rw [false_or]

/-- Settling a relation by proposals does not depend on their order. -/
theorem unordered (held : entities.property? place = some property)
    (related : property.relation? = some relation)
    (links : List (Sides × Place)) :
    Unordered entities place property relation links := by
  have reordered : ∀ other : List (Sides × Place), other.Perm links →
      ∀ sides, sides ∈ other.map Prod.fst ↔ sides ∈ links.map Prod.fst :=
    fun other perm sides => (perm.map Prod.fst).mem_iff
  have perm : ∀ other : List (Sides × Place), other.Perm links →
      ((Progress.settleEach { entities := entities } place
          other).defects = [] ↔
        (Progress.settleEach { entities := entities } place
          links).defects = []) := by
    intro other perm
    rw [settleEach_eq_nil_iff held related, settleEach_eq_nil_iff held related]
    exact Sides.compatible_congr (reordered other perm)
  refine ⟨settleEach_eq_nil_iff held related links, perm, fun silent => ?_⟩
  rcases exists_agreed_settleEach held related silent with ⟨final, agreed, -⟩
  refine ⟨final, agreed, fun other reorder => ?_⟩
  rcases exists_agreed_settleEach held related
    ((perm other reorder).mpr silent) with ⟨result, also, kept⟩
  rw [agreed.unique (also.congr (reordered other reorder))]
  exact kept

/-- A post's tags, with nothing decided. -/
def postTags : Property where
  name := "tags"
  nature := .relation {
    kind := .manyToMany
    target := ⟨.name "Tag", some "Tag"⟩
    sides := ⟨false, none, none⟩ }
  declaredBy := "Post"

/-- A post whose tags are to be settled. -/
def taggedPosts : Entities :=
  .ofList [{ name := "Post", properties := .ofList [postTags] }]

/-- The tags are told to own twice, and the name of their inverse once. -/
theorem unordered_taggedPosts :
    taggedPosts.property? ⟨"Post", "tags"⟩ = some postTags ∧
      ∃ relation, postTags.relation? = some relation ∧
        Unordered taggedPosts ⟨"Post", "tags"⟩ postTags relation
          [(⟨true, none, some "posts"⟩, ⟨"Tag", "posts"⟩),
            (⟨true, none, none⟩, ⟨"Post", "tags"⟩)] := by
  have held : taggedPosts.property? ⟨"Post", "tags"⟩ = some postTags :=
    rfl
  exact ⟨held, _, rfl, unordered held rfl _⟩

/-- A proposal that fails on its second slot leaves its name in the first, yet
none of the orders passes without a defect. -/
example :
    let contrary : List (Sides × Place) :=
      [(⟨true, none, some "posts"⟩, ⟨"Tag", "posts"⟩),
        (⟨true, some "owner", some "articles"⟩, ⟨"Tag", "articles"⟩)]
    (Progress.settleEach { entities := taggedPosts } ⟨"Post", "tags"⟩
        contrary).defects ≠ [] ∧
      (Progress.settleEach { entities := taggedPosts } ⟨"Post", "tags"⟩
        contrary.reverse).defects ≠ [] := by
  decide

end Settlement

end EntityCatalog
