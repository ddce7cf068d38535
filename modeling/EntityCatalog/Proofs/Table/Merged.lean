import EntityCatalog.Proofs.Table.Lookups
import Mathlib.Data.List.Induction

/-!
# Tables that items are inserted into

Whatever items are inserted in turn, with whatever repetitions, every key keeps
the place where it first occurs and every lookup finds the last item with the
key (`Table.keys_insertAll`, `Table.find?_insertAll_eq`).  `Table.Collects` says
so of a table and the items it came from.

A table comes from its own items (`Table.ofList_items`), and to insert the items
of a table is to insert all that it came from (`Table.insertAll_ofList`).  So
merging tables is appending what they came from (`Table.merge_ofList`), and its
laws are those of lists.
-/

namespace EntityCatalog

/-! ## Keys in the order of their arrival -/

section

variable {Key : Type} [DecidableEq Key] {names rest : List Key} {name : Key}

/-- Keys that differ all occur first where they stand. -/
theorem eraseDups_of_nodup (distinct : names.Nodup) :
    names.eraseDups = names := by
  induction names with
  | nil => rfl
  | cons name rest induction =>
      rcases List.nodup_cons.mp distinct with ⟨fresh, later⟩
      have apart : rest.filter (fun other => !other == name) = rest := by
        rw [List.filter_eq_self]
        intro other member
        have different : other ≠ name := fun same => fresh (same ▸ member)
        simpa using different
      rw [List.eraseDups_cons, apart, induction later]

/-- A key that occurred before does not arrive again. -/
theorem eraseDups_append_cons_of_mem (member : name ∈ names) :
    (names ++ name :: rest).eraseDups = (names ++ rest).eraseDups := by
  have gone : (name :: rest).removeAll names = rest.removeAll names := by
    simp [List.removeAll, member]
  rw [List.eraseDups_append, List.eraseDups_append, gone]

/-- One more key arrives if it did not occur before. -/
theorem eraseDups_concat (names : List Key) (name : Key) :
    (names ++ [name]).eraseDups =
      if name ∈ names then names.eraseDups else names.eraseDups ++ [name] := by
  split
  · rename_i member
    rw [eraseDups_append_cons_of_mem member, List.append_nil]
  · rename_i fresh
    have stays : [name].removeAll names = [name] := by
      simp [List.removeAll, fresh]
    rw [List.eraseDups_append, stays]
    rfl

/-- Repetitions among later keys make no difference. -/
theorem eraseDups_append_eraseDups (names rest : List Key) :
    (names ++ rest.eraseDups).eraseDups = (names ++ rest).eraseDups := by
  induction rest using List.reverseRecOn with
  | nil => rfl
  | append_singleton rest name induction =>
      rw [eraseDups_concat, ← List.append_assoc, eraseDups_concat]
      by_cases inside : name ∈ rest
      · rw [if_pos inside, if_pos (List.mem_append_right names inside), induction]
      · rw [if_neg inside, ← List.append_assoc, eraseDups_concat, induction]
        simp only [List.mem_append, List.mem_eraseDups]

end

namespace Table

variable {Item Key : Type} {key : Item → Key} [DecidableEq Key]

/-! ## Items inserted in turn -/

theorem insertAll_append (table : Table key) (first second : List Item) :
    table.insertAll (first ++ second) =
      (table.insertAll first).insertAll second :=
  List.foldl_append

/-- Inserting items keeps the keys in the order in which they first arrived. -/
theorem keys_insertAll (table : Table key) (items : List Item) :
    (table.insertAll items).keys =
      (table.keys ++ items.map key).eraseDups := by
  induction items generalizing table with
  | nil =>
      rw [List.map_nil, List.append_nil]
      exact (eraseDups_of_nodup table.distinct).symm
  | cons item rest induction =>
      rw [insertAll, List.foldl_cons]
      refine (induction (table.insert item)).trans ?_
      rw [keys_insert, List.map_cons]
      split
      · rename_i present
        rw [eraseDups_append_cons_of_mem present]
      · rw [List.append_assoc]
        rfl

/-- After inserting items a lookup finds the last one with the key, if there is
one. -/
theorem find?_insertAll_eq (table : Table key) (items : List Item)
    (name : Key) :
    (table.insertAll items).find? name =
      (items.reverse.find? fun item => decide (key item = name)).or
        (table.find? name) := by
  induction items generalizing table with
  | nil => rfl
  | cons item rest induction =>
      rw [insertAll, List.foldl_cons, ← insertAll, induction, find?_insert,
        List.reverse_cons, List.find?_append, Option.or_assoc]
      by_cases same : key item = name <;> simp [same]

/-! ## What a table came from -/

/-- A table is what items come to if they are inserted in turn. -/
structure Collects (table : Table key) (items : List Item) : Prop where
  /-- Every key stands where it occurs first. -/
  first : table.keys = (items.map key).eraseDups
  /-- Every key has the item with which it occurs last. -/
  last : ∀ name, table.find? name =
    items.reverse.find? fun item => decide (key item = name)

theorem collects_ofList (items : List Item) :
    (ofList items : Table key).Collects items where
  first := keys_insertAll empty items
  last name := (find?_insertAll_eq empty items name).trans Option.or_none

/-- A table comes from its own items. -/
theorem ofList_items (table : Table key) : ofList table.items = table :=
  ext (items_insertAll_of_fresh table.distinct fun _ _ => List.not_mem_nil)

theorem collects_items (table : Table key) : table.Collects table.items := by
  have collects : (ofList table.items : Table key).Collects table.items :=
    collects_ofList table.items
  rw [ofList_items] at collects
  exact collects

/-- What items come to is one table. -/
theorem Collects.eq_ofList {table : Table key} {items : List Item}
    (collects : table.Collects items) : table = ofList items :=
  have inserted : (ofList items : Table key).Collects items :=
    collects_ofList items
  ext_find? (collects.first.trans inserted.first.symm) fun name =>
    (collects.last name).trans (inserted.last name).symm

/-- Inserting the items of a table is inserting all that it came from. -/
theorem insertAll_ofList (table : Table key) (items : List Item) :
    table.insertAll (ofList items : Table key).items =
      table.insertAll items := by
  have collects : (ofList items : Table key).Collects items :=
    collects_ofList items
  refine ext_find? ?_ fun name => ?_
  · rw [keys_insertAll, keys_insertAll, ← keys, collects.first,
      eraseDups_append_eraseDups]
  · rw [find?_insertAll_eq, find?_insertAll_eq, ← collects.last,
      ← (collects_ofList _).last, ofList_items]

/-- Merging tables is appending what they came from. -/
theorem merge_ofList (first second : List Item) :
    (ofList first : Table key).merge (ofList second) =
      ofList (first ++ second) := by
  rw [merge, insertAll_ofList, ofList, ofList, insertAll_append]

/-- Merged tables come from what one of them and then the other came from. -/
theorem Collects.merge {earlier later : Table key} {first second : List Item}
    (left : earlier.Collects first) (right : later.Collects second) :
    (earlier.merge later).Collects (first ++ second) := by
  rw [left.eq_ofList, right.eq_ofList, merge_ofList]
  exact collects_ofList _

theorem merge_assoc (first second third : Table key) :
    (first.merge second).merge third = first.merge (second.merge third) := by
  rw [← ofList_items first, ← ofList_items second, ← ofList_items third,
    merge_ofList, merge_ofList, merge_ofList, merge_ofList, List.append_assoc]

end Table

end EntityCatalog
