/-!
# Ordered tables

A table holds items that are known by a key, in the order in which their keys
first arrived.  Inserting an item whose key is already present replaces the
old item in its place; any other item goes to the end.  Property maps,
property groups, records and the registered declarations are all tables.

The key is a function of the item, so an entity can be stored under its own
name without writing that name twice.  That no key occurs twice is part of the
type.  The statements below describe each operation on the list of keys and
on lookups.
-/

namespace EntityCatalog

/-- Items with pairwise different keys, in order of first arrival. -/
structure Table {Item Key : Type} (key : Item → Key) where
  /-- The items, oldest key first. -/
  items : List Item
  distinct : (items.map key).Nodup

namespace Table

variable {Item Key : Type} {key : Item → Key}

/-- Two tables with the same items are equal. -/
@[ext]
theorem ext {left right : Table key} (equal : left.items = right.items) :
    left = right := by
  cases left
  cases right
  simp_all

instance [DecidableEq Item] : DecidableEq (Table key) := fun left right =>
  decidable_of_iff (left.items = right.items)
    ⟨ext, fun equal => equal ▸ rfl⟩

instance [Repr Item] : Repr (Table key) where
  reprPrec table := reprPrec table.items

/-- The table without items. -/
def empty : Table key :=
  ⟨[], List.nodup_nil⟩

instance : Inhabited (Table key) := ⟨empty⟩

/-- The keys in table order. -/
def keys (table : Table key) : List Key :=
  table.items.map key

/-- The number of items. -/
def size (table : Table key) : Nat :=
  table.items.length

/-- Whether the table has no items. -/
def isEmpty (table : Table key) : Bool :=
  table.items.isEmpty

/-- Change every item by a function that leaves keys alone. -/
def map (table : Table key) (change : Item → Item)
    (keeps : ∀ item, key (change item) = key item) : Table key where
  items := table.items.map change
  distinct := by
    have same : key ∘ change = key := funext keeps
    simpa [List.map_map, same] using table.distinct

@[simp]
theorem items_map (table : Table key) (change : Item → Item)
    (keeps : ∀ item, key (change item) = key item) :
    (table.map change keeps).items = table.items.map change :=
  rfl

@[simp]
theorem keys_map (table : Table key) (change : Item → Item)
    (keeps : ∀ item, key (change item) = key item) :
    (table.map change keeps).keys = table.keys := by
  have same : key ∘ change = key := funext keeps
  simp [keys, List.map_map, same]

variable [DecidableEq Key]

/-- The item known by `name`. -/
def find? (table : Table key) (name : Key) : Option Item :=
  table.items.find? fun item => decide (key item = name)

/-- Whether some item is known by `name`. -/
def contains (table : Table key) (name : Key) : Bool :=
  table.items.any fun item => decide (key item = name)

/-- Replace the item with the key of `item`, or append `item`. -/
def put (key : Item → Key) (item : Item) : List Item → List Item
  | [] => [item]
  | head :: rest =>
    if key head = key item then item :: rest else head :: put key item rest

/-- The keys after putting an item: unchanged, or one more at the end. -/
theorem map_put (key : Item → Key) (item : Item) (items : List Item) :
    (put key item items).map key =
      if key item ∈ items.map key then items.map key
      else items.map key ++ [key item] := by
  induction items with
  | nil => simp [put]
  | cons head rest step =>
    by_cases same : key head = key item
    · simp [put, same]
    · have other : key item ≠ key head := fun equal => same equal.symm
      simp only [put, same, if_false, List.map_cons, step, List.mem_cons, other,
        false_or]
      split <;> simp

theorem nodup_put (key : Item → Key) (item : Item) (items : List Item)
    (distinct : (items.map key).Nodup) :
    ((put key item items).map key).Nodup := by
  rw [map_put]
  split
  · exact distinct
  · rename_i fresh
    refine List.nodup_append.mpr ⟨distinct, by simp, ?_⟩
    intro name member other last equal
    exact fresh (by simp_all)

/-- Insert an item: in place of the one with its key, else at the end. -/
def insert (table : Table key) (item : Item) : Table key where
  items := put key item table.items
  distinct := nodup_put key item table.items table.distinct

/-- Inserting keeps the key order and adds a new key at the end. -/
theorem keys_insert (table : Table key) (item : Item) :
    (table.insert item).keys =
      if key item ∈ table.keys then table.keys
      else table.keys ++ [key item] :=
  map_put key item table.items

theorem find?_put (key : Item → Key) (item : Item) (items : List Item)
    (name : Key) :
    (put key item items).find? (fun item => decide (key item = name)) =
      if key item = name then some item
      else items.find? fun item => decide (key item = name) := by
  induction items with
  | nil => by_cases same : key item = name <;> simp [put, same]
  | cons head rest step =>
    rw [put]
    by_cases place : key head = key item
    · rw [if_pos place]
      by_cases same : key item = name
      · simp [same]
      · simp [place, same]
    · rw [if_neg place, List.find?_cons, step]
      by_cases hit : key head = name
      · have other : key item ≠ name := fun equal => place (hit.trans equal.symm)
        simp [hit, other]
      · simp [hit]

/-- After inserting an item its key finds it, and no other key is affected. -/
@[simp]
theorem find?_insert (table : Table key) (item : Item) (name : Key) :
    (table.insert item).find? name =
      if key item = name then some item else table.find? name :=
  find?_put key item table.items name

/-- The items of a list, inserted one after another. -/
def insertAll (table : Table key) (items : List Item) : Table key :=
  items.foldl insert table

/-- The table that inserting the items of a list in turn gives. -/
def ofList (items : List Item) : Table key :=
  empty.insertAll items

/-- Both tables, the items of `later` winning. -/
def merge (earlier later : Table key) : Table key :=
  earlier.insertAll later.items

/-- The table without the item known by `name`. -/
def erase (table : Table key) (name : Key) : Table key where
  items := table.items.filter fun item => decide (key item ≠ name)
  distinct := table.distinct.sublist (List.Sublist.map key List.filter_sublist)

/-- Change the item known by `name`, by a function that leaves keys alone. -/
def adjust (table : Table key) (name : Key) (change : Item → Item)
    (keeps : ∀ item, key (change item) = key item) : Table key :=
  table.map (fun item => if key item = name then change item else item)
    (fun item => by split <;> simp [keeps])

theorem contains_eq (table : Table key) (name : Key) :
    table.contains name = (table.find? name).isSome := by
  rw [contains, find?, List.isSome_find?]

theorem contains_iff_mem_keys (table : Table key) (name : Key) :
    table.contains name = true ↔ name ∈ table.keys := by
  simp [contains, keys]

/-- What a lookup finds is an item of the table known by the given key. -/
theorem find?_eq_some {table : Table key} {name : Key} {item : Item}
    (found : table.find? name = some item) :
    item ∈ table.items ∧ key item = name := by
  constructor
  · exact List.mem_of_find?_eq_some found
  · simpa using List.find?_some found

end Table

end EntityCatalog
