import EntityCatalog.Proofs.Entity.Lineage
import EntityCatalog.Proofs.Table.Lookups

/-!
# Entities in another order

Whatever is read off entities through names is the same for entities that are
registered in another order (`Reordered`): what is found under a name, bases,
ancestries, who is within whom.  What does depend on the order is in which turn
entities are dealt with, bases first; `Precedes` compares two of them.
-/

namespace EntityCatalog.Entities

/-- The same entities, registered in some order each. -/
def Reordered (left right : Entities) : Prop :=
  left.items.Perm right.items

namespace Reordered

variable {left right : Entities}

theorem symm (reordered : left.Reordered right) : right.Reordered left :=
  List.Perm.symm reordered

theorem find? (reordered : left.Reordered right) :
    left.find? = right.find? := by
  funext name
  exact Table.find?_perm reordered name

theorem property? (reordered : left.Reordered right) :
    left.property? = right.property? := by
  funext place
  rw [Entities.property?, Entities.property?, reordered.find?]

theorem base? (reordered : left.Reordered right) :
    left.base? = right.base? := by
  funext name
  rw [Entities.base?, Entities.base?, reordered.find?]

theorem ancestry (reordered : left.Reordered right) :
    left.ancestry = right.ancestry := by
  funext name
  rw [Entities.ancestry, Entities.ancestry, reordered.base?,
    Table.size_perm reordered]

theorem isWithin (reordered : left.Reordered right) :
    left.isWithin = right.isWithin := by
  funext entity ancestor
  rw [Entities.isWithin, Entities.isWithin, reordered.ancestry]

theorem isRelated (reordered : left.Reordered right) :
    left.isRelated = right.isRelated := by
  funext entity other
  rw [Entities.isRelated, Entities.isRelated, reordered.isWithin]

theorem anyWithin (reordered : left.Reordered right) :
    left.anyWithin = right.anyWithin := by
  funext places place
  rw [Entities.anyWithin, Entities.anyWithin, reordered.ancestry]

theorem mem_keys_iff (reordered : left.Reordered right) {name : String} :
    name ∈ left.keys ↔ name ∈ right.keys :=
  (Table.keys_perm reordered).mem_iff

end Reordered

/-! ## Bases first -/

/-- One entity is dealt with before another: it has fewer ancestors, or as many
and comes first in the order of registration. -/
def Precedes (entities : Entities) (order : List String)
    (earlier later : String) : Prop :=
  (entities.ancestry earlier).length < (entities.ancestry later).length ∨
    (entities.ancestry earlier).length = (entities.ancestry later).length ∧
      order.idxOf earlier < order.idxOf later

theorem Precedes.asymm {entities : Entities} {order : List String}
    {earlier later : String}
    (precedes : entities.Precedes order earlier later) :
    ¬ entities.Precedes order later earlier := by
  intro reverse
  unfold Precedes at precedes reverse
  omega

/-- Items come in the order of their keys. -/
theorem sorted_items (entities : Entities) :
    entities.items.Pairwise fun earlier later =>
      entities.keys.idxOf earlier.name < entities.keys.idxOf later.name := by
  rw [List.pairwise_iff_getElem]
  intro first second firstBound secondBound before
  have position : ∀ index (bound : index < entities.items.length),
      entities.keys.idxOf (entities.items[index]).name = index := by
    intro index bound
    have inside : index < entities.keys.length := by
      rw [Table.length_keys]
      exact bound
    have named : (entities.items[index]).name = entities.keys[index] := by
      simp [Table.keys]
    rw [named]
    exact entities.distinct.idxOf_getElem index inside
  rw [position first firstBound, position second secondBound]
  exact before

/-- Entities are dealt with in turn. -/
theorem sorted_basesFirst (entities : Entities) :
    entities.basesFirst.Pairwise fun earlier later =>
      entities.Precedes entities.keys earlier.name later.name := by
  unfold basesFirst
  dsimp only
  rw [List.pairwise_flatMap]
  constructor
  · intro depth _
    rw [List.pairwise_map, List.filter_map, List.pairwise_map]
    refine (entities.sorted_items.filter _).imp_of_mem ?_
    intro earlier later first second before
    have firstDepth := (List.mem_filter.mp first).2
    have secondDepth := (List.mem_filter.mp second).2
    simp only [Function.comp_apply, decide_eq_true_eq] at firstDepth secondDepth
    exact Or.inr ⟨firstDepth.trans secondDepth.symm, before⟩
  · refine List.pairwise_lt_range.imp ?_
    intro less more before earlier first later second
    rcases List.mem_map.mp first with ⟨⟨_, _⟩, ranked, rfl⟩
    rcases List.mem_map.mp second with ⟨⟨_, _⟩, rankedLater, rfl⟩
    simp only [List.mem_filter, List.mem_map, Prod.mk.injEq,
      decide_eq_true_eq] at ranked rankedLater
    rcases ranked with ⟨⟨_, _, firstDepth, rfl⟩, rfl⟩
    rcases rankedLater with ⟨⟨_, _, secondDepth, rfl⟩, rfl⟩
    subst firstDepth secondDepth
    exact Or.inl before

/-- Dealing with bases first is a matter of order. -/
theorem perm_basesFirst (entities : Entities) :
    entities.basesFirst.Perm entities.items := by
  have distinct : entities.basesFirst.Nodup := by
    refine entities.sorted_basesFirst.imp ?_
    intro earlier later precedes
    rintro rfl
    exact precedes.asymm precedes
  have items : entities.items.Nodup := entities.distinct.of_map
  exact (List.perm_ext_iff_of_nodup distinct items).mpr fun entity =>
    mem_basesFirst

end EntityCatalog.Entities
