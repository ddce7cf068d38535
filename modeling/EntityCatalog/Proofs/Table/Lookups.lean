import EntityCatalog.Table
import Mathlib.Data.List.Perm.Basic
import Mathlib.Data.List.Nodup

/-!
# Lookups in tables

A table is determined, up to the order of its items, by what lookups find.
The first group of statements reads a lookup as membership.  The second says
how every operation on tables changes lookups.  The last one compares tables
that hold the same items in different orders: no lookup tells them apart.
-/

namespace EntityCatalog.Table

variable {Item Key : Type} {key : Item → Key}

theorem length_keys (table : Table key) : table.keys.length = table.size :=
  List.length_map key

theorem keys_perm {left right : Table key}
    (perm : left.items.Perm right.items) :
    left.keys.Perm right.keys :=
  perm.map key

theorem size_perm {left right : Table key}
    (perm : left.items.Perm right.items) :
    left.size = right.size :=
  perm.length_eq

variable [DecidableEq Key]

/-! ## Lookups and membership -/

/-- A table finds exactly its own items, each under its key. -/
theorem find?_eq_some_iff {table : Table key} {name : Key} {item : Item} :
    table.find? name = some item ↔ item ∈ table.items ∧ key item = name := by
  constructor
  · exact find?_eq_some
  · rintro ⟨member, rfl⟩
    cases found : table.find? (key item) with
    | none =>
        have absent := List.find?_eq_none.mp found item member
        simp at absent
    | some other =>
        rcases find?_eq_some found with ⟨otherMember, sameKey⟩
        rw [List.inj_on_of_nodup_map table.distinct otherMember member sameKey]

theorem find?_key {table : Table key} {item : Item}
    (member : item ∈ table.items) :
    table.find? (key item) = some item :=
  find?_eq_some_iff.mpr ⟨member, rfl⟩

theorem find?_eq_none_iff {table : Table key} {name : Key} :
    table.find? name = none ↔ name ∉ table.keys := by
  simp only [find?, keys, List.find?_eq_none, decide_eq_true_eq, List.mem_map,
    not_exists, not_and]

theorem mem_keys_iff {table : Table key} {name : Key} :
    name ∈ table.keys ↔ ∃ item, table.find? name = some item := by
  rw [← not_iff_not, ← find?_eq_none_iff]
  simp [Option.eq_none_iff_forall_ne_some]

theorem mem_keys_of_find? {table : Table key} {name : Key} {item : Item}
    (found : table.find? name = some item) :
    name ∈ table.keys :=
  mem_keys_iff.mpr ⟨item, found⟩

/-- A table is determined by its keys and what lookups find. -/
theorem ext_find? {left right : Table key} (keys : left.keys = right.keys)
    (lookups : ∀ name, left.find? name = right.find? name) : left = right := by
  have found : ∀ table : Table key,
      table.keys.filterMap table.find? = table.items := by
    intro table
    rw [Table.keys, List.filterMap_map]
    refine Eq.trans (List.filterMap_congr fun item member => ?_)
      List.filterMap_some
    exact find?_key member
  refine ext ?_
  rw [← found left, ← found right, keys, funext lookups]

/-- Going through the keys is going through the items. -/
theorem flatMap_keys {Result : Type} (table : Table key)
    (read : Item → List Result) :
    (table.keys.flatMap fun name => ((table.find? name).map read).getD []) =
      table.items.flatMap read := by
  rw [keys, List.flatMap_map]
  refine List.flatMap_congr fun item member => ?_
  rw [find?_key member, Option.map_some, Option.getD_some]

/-! ## Lookups after an operation -/

/-- Changing all items changes what every lookup finds. -/
@[simp]
theorem find?_map (table : Table key) (change : Item → Item)
    (keeps : ∀ item, key (change item) = key item) (name : Key) :
    (table.map change keeps).find? name = (table.find? name).map change := by
  have same : (fun item => decide (key item = name)) ∘ change =
      fun item => decide (key item = name) := by
    funext item
    rw [Function.comp_apply, keeps]
  rw [find?, items_map, List.find?_map, same, find?]

/-- Changing one item changes what its own key finds and nothing else. -/
@[simp]
theorem find?_adjust (table : Table key) (name : Key) (change : Item → Item)
    (keeps : ∀ item, key (change item) = key item) (asked : Key) :
    (table.adjust name change keeps).find? asked =
      if asked = name then (table.find? asked).map change
      else table.find? asked := by
  rw [adjust, find?_map]
  cases found : table.find? asked with
  | none => simp
  | some item =>
      rcases find?_eq_some found with ⟨_, rfl⟩
      split <;> simp_all

/-- Taking an item away changes what its own key finds and nothing else. -/
theorem find?_erase (table : Table key) (name asked : Key) :
    (table.erase name).find? asked =
      if asked = name then none else table.find? asked := by
  rw [erase, find?, List.find?_filter]
  split
  · rename_i here
    subst here
    simp
  · rename_i other
    congr 1
    funext item
    by_cases same : key item = asked <;> simp [same, other]

/-- The items that satisfy a condition, in order. -/
def filter (table : Table key) (condition : Item → Bool) : Table key where
  items := table.items.filter condition
  distinct := table.distinct.sublist (List.Sublist.map key List.filter_sublist)

/-- An item is found among some items if it is one of these. -/
theorem find?_filter (table : Table key) (condition : Item → Bool)
    (name : Key) :
    (table.filter condition).find? name =
      (table.find? name).filter condition := by
  refine Option.ext fun item => ?_
  rw [find?_eq_some_iff, Option.filter_eq_some_iff, find?_eq_some_iff, filter,
    List.mem_filter]
  exact and_right_comm

/-- Inserting items with different keys in turn: each is found under its key,
and all other lookups go on as before. -/
theorem find?_insertAll (items : List Item) (table : Table key)
    (distinct : (items.map key).Nodup) (name : Key) :
    (table.insertAll items).find? name =
      (items.find? fun item => decide (key item = name)).or
        (table.find? name) := by
  induction items generalizing table with
  | nil => simp [insertAll]
  | cons item rest step =>
      have fresh : key item ∉ rest.map key := (List.nodup_cons.mp distinct).1
      have later := step (table.insert item) (List.nodup_cons.mp distinct).2
      rw [insertAll, List.foldl_cons]
      rw [insertAll] at later
      rw [later, find?_insert]
      by_cases same : key item = name
      · have missing :
            rest.find? (fun item => decide (key item = name)) = none := by
          rw [List.find?_eq_none]
          intro other member
          have different : key other ≠ name := by
            intro equal
            exact fresh (List.mem_map.mpr ⟨other, member, equal.trans same.symm⟩)
          simpa using different
        simp [same, missing]
      · simp [same]

/-- What is found after inserting items is one of them, or was found before. -/
theorem mem_of_find?_insertAll {items : List Item} {table : Table key}
    {name : Key} {item : Item}
    (found : (table.insertAll items).find? name = some item) :
    item ∈ items ∨ table.find? name = some item := by
  induction items generalizing table with
  | nil => exact Or.inr found
  | cons head rest induction =>
      rcases @induction (table.insert head) found with later | before
      · exact Or.inl (List.mem_cons_of_mem _ later)
      · rw [find?_insert] at before
        split at before
        · cases before
          exact Or.inl (List.mem_cons_self ..)
        · exact Or.inr before

/-- Items with different keys, inserted into an empty table, are found under
their keys. -/
theorem find?_ofList {items : List Item} (distinct : (items.map key).Nodup)
    (name : Key) :
    (ofList items : Table key).find? name =
      items.find? fun item => decide (key item = name) := by
  rw [ofList, find?_insertAll items _ distinct name]
  exact Option.or_none

/-- Before an item of a table stand the items up to its key. -/
theorem exists_items_eq {table : Table key} {item : Item}
    (member : item ∈ table.items) :
    ∃ after, table.items =
      table.items.takeWhile (fun other => decide (key other ≠ key item)) ++
        item :: after := by
  have distinct := table.distinct
  generalize table.items = items at member distinct
  induction items with
  | nil => cases member
  | cons head rest induction =>
      rcases List.nodup_cons.mp distinct with ⟨fresh, later⟩
      rcases List.mem_cons.mp member with rfl | inside
      · exact ⟨rest, by simp⟩
      · have different : key head ≠ key item := fun same =>
          fresh (List.mem_map.mpr ⟨item, inside, same.symm⟩)
        rcases induction inside later with ⟨after, split⟩
        refine ⟨after, ?_⟩
        rw [List.takeWhile_cons, if_pos (decide_eq_true different),
          List.cons_append, ← split]

/-- An item with a new key goes to the end. -/
theorem items_insert_of_fresh {table : Table key} {item : Item}
    (fresh : key item ∉ table.keys) :
    (table.insert item).items = table.items ++ [item] := by
  have absent : ∀ other ∈ table.items, key other ≠ key item := by
    intro other member same
    exact fresh (List.mem_map.mpr ⟨other, member, same⟩)
  change put key item table.items = _
  generalize table.items = items at absent
  induction items with
  | nil => rfl
  | cons head rest induction =>
      rw [put, if_neg (absent head (List.mem_cons_self ..)), List.cons_append,
        induction fun other inside =>
          absent other (List.mem_cons_of_mem _ inside)]

/-- Items with new and different keys go to the end in turn. -/
theorem items_insertAll_of_fresh {items : List Item} {table : Table key}
    (distinct : (items.map key).Nodup)
    (fresh : ∀ item ∈ items, key item ∉ table.keys) :
    (table.insertAll items).items = table.items ++ items := by
  induction items generalizing table with
  | nil => exact (List.append_nil _).symm
  | cons item rest induction =>
      rcases List.nodup_cons.mp distinct with ⟨once, later⟩
      have first := items_insert_of_fresh (fresh item (List.mem_cons_self ..))
      have still : ∀ other ∈ rest, key other ∉ (table.insert item).keys := by
        intro other inside present
        rw [keys, first, List.map_append, List.mem_append] at present
        rcases present with before | here
        · exact fresh other (List.mem_cons_of_mem _ inside) before
        · refine once (List.mem_map.mpr ⟨other, inside, ?_⟩)
          exact List.mem_singleton.mp here
      rw [insertAll, List.foldl_cons]
      refine (induction later still).trans ?_
      rw [first, List.append_assoc]
      rfl

/-- An item whose key is present takes the place of the one that has it. -/
theorem items_insert_of_mem {table : Table key} {item : Item}
    (member : key item ∈ table.keys) :
    (table.insert item).items = table.items.map fun other =>
      if key other = key item then item else other := by
  have distinct := table.distinct
  change put key item table.items = _
  change key item ∈ table.items.map key at member
  generalize table.items = items at member distinct
  induction items with
  | nil => cases member
  | cons head rest induction =>
      rcases List.nodup_cons.mp distinct with ⟨fresh, later⟩
      rw [put, List.map_cons]
      by_cases here : key head = key item
      · -- The key comes up only once, so the rest stays.
        rw [if_pos here, if_pos here]
        have stays : ∀ other ∈ rest,
            (if key other = key item then item else other) = other := by
          intro other inside
          refine if_neg fun same => fresh ?_
          rw [here, ← same]
          exact List.mem_map_of_mem inside
        rw [List.map_congr_left stays, List.map_id']
      · rw [if_neg here, if_neg here]
        rcases List.mem_cons.mp member with same | inside
        · exact absurd same.symm here
        · rw [induction inside later]

/-! ## Changed items -/

section

variable (change : Item → Item) (keeps : ∀ item, key (change item) = key item)

theorem map_insert (table : Table key) (item : Item) :
    (table.insert item).map change keeps =
      (table.map change keeps).insert (change item) := by
  refine ext ?_
  change (put key item table.items).map change =
    put key (change item) (table.items.map change)
  generalize table.items = items
  induction items with
  | nil => rfl
  | cons head rest induction =>
      rw [put, List.map_cons, put, keeps, keeps]
      split
      · rfl
      · rw [List.map_cons, induction]

theorem map_insertAll (table : Table key) (items : List Item) :
    (table.insertAll items).map change keeps =
      (table.map change keeps).insertAll (items.map change) := by
  induction items generalizing table with
  | nil => rfl
  | cons item rest induction =>
      rw [insertAll, List.foldl_cons, List.map_cons, insertAll, List.foldl_cons,
        ← map_insert]
      exact induction _

/-- Two changes that commute, one of all items and one of the item with a given
key. -/
theorem map_adjust (table : Table key) (name : Key) (other : Item → Item)
    (keepsToo : ∀ item, key (other item) = key item)
    (commute : ∀ item, change (other item) = other (change item)) :
    (table.adjust name other keepsToo).map change keeps =
      (table.map change keeps).adjust name other keepsToo := by
  refine ext ?_
  simp only [adjust, items_map, List.map_map]
  refine List.map_congr_left fun item _ => ?_
  simp only [Function.comp_apply, keeps]
  split
  · exact commute item
  · rfl

omit [DecidableEq Key] in
theorem map_eq_self {table : Table key}
    (same : ∀ item, change item = item) : table.map change keeps = table :=
  ext (List.map_id'' same table.items)

end

/-! ## Orders -/

/-- The items of a table stand in the order of their keys. -/
theorem pairwise_idxOf_keys (table : Table key) :
    table.items.Pairwise fun earlier later =>
      table.keys.idxOf (key earlier) < table.keys.idxOf (key later) := by
  have distinct : table.keys.Nodup := table.distinct
  have ordered : table.keys.Pairwise fun earlier later =>
      table.keys.idxOf earlier < table.keys.idxOf later := by
    refine List.pairwise_iff_getElem.mpr fun first second _ _ before => ?_
    rw [distinct.idxOf_getElem, distinct.idxOf_getElem]
    exact before
  exact ordered.of_map key fun _ _ before => before

/-- What each item of a list gives, if it gives something, is a part of what
all would give. -/
theorem sublist_filterMap {Result : Type} {items : List Item}
    {give : Item → Option Result} {would : Item → Result}
    (gives : ∀ item result, give item = some result → result = would item) :
    (items.filterMap give).Sublist (items.map would) := by
  induction items with
  | nil => exact List.Sublist.refl _
  | cons item rest induction =>
      rw [List.filterMap_cons, List.map_cons]
      cases given : give item with
      | none => exact induction.cons _
      | some result =>
          rw [gives item result given]
          exact induction.cons_cons _

/-! ## Reordered tables -/

/-- Tables with the same items in some order answer every lookup alike. -/
theorem find?_perm {left right : Table key}
    (perm : left.items.Perm right.items) (name : Key) :
    left.find? name = right.find? name := by
  apply Option.ext
  intro item
  rw [find?_eq_some_iff, find?_eq_some_iff, perm.mem_iff]

end EntityCatalog.Table
