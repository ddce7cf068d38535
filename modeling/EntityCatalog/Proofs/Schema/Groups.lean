import EntityCatalog.Proofs.Table.Merged
import EntityCatalog.Schema.Basic

/-!
# Groups of properties

Merging groups is associative, and a group without properties changes nothing,
so that groups form a monoid.  Defining a group from named options takes
appending to merging, and spreading groups over a schema takes merging to
spreading in turn, so that it comes to declaring the properties one by one
(`Schema.spreads`).  Names may overlap in any way and may be repeated: a name
keeps its first place and takes the options it is given last.
-/

namespace EntityCatalog

namespace Schema

/-- Declaring properties one by one inserts them in turn. -/
theorem foldl_withProperty (schema : Schema)
    (named : List (String × Options)) :
    named.foldl
        (fun schema (name, options) => schema.withProperty name options)
        schema =
      { schema with properties := schema.properties.insertAll named } := by
  induction named generalizing schema with
  | nil => rfl
  | cons entry rest induction => exact induction (schema.withProperty ..)

/-- What groups of properties come to, and what spreading them does to a
schema. -/
structure Spreads (schema : Schema) (first second third : Group)
    (named more : List (String × Options)) : Prop where
  assoc : (first.merge second).merge third = first.merge (second.merge third)
  empty_merge : Table.empty.merge first = first
  merge_empty : first.merge .empty = first
  define_append : (.ofList (named ++ more) : Group) =
    (Table.ofList named).merge (.ofList more)
  withGroup_withGroup : (schema.withGroup first).withGroup second =
    schema.withGroup (first.merge second)
  withGroup_define : schema.withGroup (.ofList named) =
    named.foldl (fun schema (name, options) => schema.withProperty name options)
      schema
  define : (Table.ofList named : Group).Collects named
  merge : (first.merge second).Collects (first.items ++ second.items)
  merge_merge : ((first.merge second).merge third).Collects
    (first.items ++ second.items ++ third.items)
  withGroup : (schema.withGroup first).properties.Collects
    (schema.properties.items ++ first.items)
  withProperty : ∀ name options,
    (schema.withProperty name options).properties.Collects
      (schema.properties.items ++ [(name, options)])

/-- Groups are merged as the options that they are defined from are appended,
and spread as these are declared one by one. -/
theorem spreads (schema : Schema) (first second third : Group)
    (named more : List (String × Options)) :
    schema.Spreads first second third named more := by
  constructor
  case assoc => exact Table.merge_assoc first second third
  case empty_merge => exact Table.ofList_items first
  case merge_empty => rfl
  case define_append => exact (Table.merge_ofList named more).symm
  case withGroup_withGroup =>
    rw [withGroup, withGroup, withGroup, Table.merge_assoc]
  case withGroup_define =>
    rw [foldl_withProperty, withGroup, Table.merge, Table.insertAll_ofList]
  case define => exact Table.collects_ofList named
  case merge => exact first.collects_items.merge second.collects_items
  case merge_merge =>
    exact (first.collects_items.merge second.collects_items).merge
      third.collects_items
  case withGroup =>
    exact schema.properties.collects_items.merge first.collects_items
  case withProperty =>
    intro name options
    exact schema.properties.collects_items.merge
      (Table.collects_ofList [(name, options)])

/-- The date keeps its place, before the key, and loses its hook. -/
example :
    ((Table.ofList [
        ("createdAt", { Options.typed "datetime" with onCreate := some ⟨0⟩ })] :
          Group).merge
      (.ofList [("id", Options.typed "integer"),
        ("createdAt", Options.typed "datetime")])).items.map
        (fun (name, options) => (name, options.onCreate)) =
      [("createdAt", none), ("id", none)] := by
  decide

end Schema

end EntityCatalog
