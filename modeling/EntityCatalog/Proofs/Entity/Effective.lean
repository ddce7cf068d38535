import EntityCatalog.Proofs.Entity.Ordered
import EntityCatalog.Proofs.Entity.Inheritance
import EntityCatalog.Proofs.Table.Merged

/-!
# The order and the origin of inherited properties

An entity starts from what its farthest base declares, and each later entity of
its ancestry adds its own properties or puts them in place of inherited ones.
So the names come in the order in which they first occur, farthest base first
(`Entities.propertyNames_ofSchemas_eq`), and under each name stands what the
nearest entity declares that declares the name at all
(`Entities.find?_declares`).
-/

namespace EntityCatalog

/-- Merging along an ancestry is inserting everything that is declared, farthest
base first. -/
theorem effectiveProperties_eq_ofList (own : String → List Property)
    (ancestry : List String) :
    effectiveProperties own ancestry =
      .ofList (ancestry.reverse.flatMap own) := by
  induction ancestry with
  | nil => rfl
  | cons ancestor rest induction =>
      rw [effectiveProperties, List.foldr_cons, ← effectiveProperties, induction,
        List.reverse_cons, List.flatMap_append, List.flatMap_singleton,
        Table.ofList, Table.ofList, Table.insertAll, Table.insertAll,
        Table.insertAll, List.foldl_append]

namespace Entities

/-! ## Names of merged properties -/

/-- The names that an entity declares, in order. -/
def declaredNames (schemas : Table Schema.name) (entity : String) :
    List String :=
  ((schemas.find? entity).map (·.properties.keys)).getD []

variable {schemas : Table Schema.name} {bases : Bases}

/-- Where all options fit together, an entity declares all its names. -/
theorem map_name_declared
    (fits : schemas.items.flatMap Schema.misuses = []) (entity : String) :
    (Entity.declared schemas entity).map Property.name =
      declaredNames schemas entity := by
  rw [Entity.declared, declaredNames]
  cases found : schemas.find? entity with
  | none => rfl
  | some schema =>
      exact Schema.keys_ownProperties
        (List.flatMap_eq_nil_iff.mp fits schema (Table.find?_eq_some found).1)

/-- The names that an entity holds are those of its ancestry, farthest base
first, each where it first occurs. -/
theorem propertyNames_ofSchemas_eq
    (fits : schemas.items.flatMap Schema.misuses = [])
    (forest : bases.Forest schemas) {entity : String}
    (registered : entity ∈ schemas.keys) :
    (ofSchemas schemas bases).propertyNames entity =
      (((ofSchemas schemas bases).ancestry entity).reverse.flatMap
        (declaredNames schemas)).eraseDups := by
  rcases Table.mem_keys_iff.mp registered with ⟨schema, found⟩
  have held : (ofSchemas schemas bases).find? entity =
      some (Entity.ofSchema schemas bases schema) := by
    rw [find?_ofSchemas, found]
    rfl
  rw [propertyNames_of_find? held, Entity.ofSchema,
    effectiveProperties_eq_ofList, Table.ofList, Table.keys_insertAll,
    List.map_flatMap, List.flatMap_congr fun ancestor _ =>
      map_name_declared fits ancestor,
    ancestry, forest.base?_ofSchemas, size_ofSchemas,
    (Table.find?_eq_some found).2]
  rfl

/-! ## Declarations of merged properties -/

/-- Where all options fit together, something is declared under every declared
name. -/
theorem exists_declaredAt_iff
    (fits : schemas.items.flatMap Schema.misuses = []) {place : Place} :
    (∃ property, declaredAt schemas place = some property) ↔
      place.property ∈ declaredNames schemas place.entity := by
  rw [← map_name_declared fits, List.mem_map]
  constructor
  · rintro ⟨property, declared⟩
    have placed := (lawful_of_declaredAt declared).1
    rw [← find?_declared] at declared
    exact ⟨property, List.mem_of_find?_eq_some declared,
      congrArg Place.property placed⟩
  · rintro ⟨property, member, named⟩
    cases found : declaredAt schemas place with
    | some other => exact ⟨other, rfl⟩
    | none =>
        rw [← find?_declared, List.find?_eq_none] at found
        exact absurd (decide_eq_true named) (found property member)

/-- What is held under a name is declared by the nearest entity of the ancestry
that declares the name. -/
theorem find?_declares (fits : schemas.items.flatMap Schema.misuses = [])
    {ancestry : List String} {name : String} {property : Property}
    (nearest : (ancestry.findSome? fun ancestor =>
      declaredAt schemas ⟨ancestor, name⟩) = some property) :
    (ancestry.find? fun ancestor =>
        decide (name ∈ declaredNames schemas ancestor)) =
      some property.declaredBy := by
  induction ancestry with
  | nil => cases nearest
  | cons ancestor rest induction =>
      rw [List.findSome?_cons] at nearest
      rw [List.find?_cons]
      cases declared : declaredAt schemas ⟨ancestor, name⟩ with
      | some own =>
          rw [declared] at nearest
          cases nearest
          have present := (exists_declaredAt_iff fits).mp ⟨property, declared⟩
          rw [decide_eq_true present]
          have placed := (lawful_of_declaredAt declared).1
          exact congrArg some (congrArg Place.entity placed).symm
      | none =>
          rw [declared] at nearest
          have absent : name ∉ declaredNames schemas ancestor := by
            intro present
            rcases (@exists_declaredAt_iff schemas fits ⟨ancestor, name⟩).mpr
              present with ⟨own, here⟩
            rw [declared] at here
            cases here
          rw [decide_eq_false absent]
          exact induction nearest

/-- What is declared at a place is read off the options given there. -/
theorem exists_options_of_declaredAt {place : Place} {property : Property}
    (declared : declaredAt schemas place = some property) :
    ∃ schema options, schemas.find? place.entity = some schema ∧
      schema.properties.find? place.property =
        some (place.property, options) ∧
      Property.ofOptions place.entity place.property options = .ok property := by
  rcases Option.bind_eq_some_iff.mp declared with ⟨schema, found, own⟩
  rcases Option.bind_eq_some_iff.mp own with ⟨⟨name, options⟩, given, read⟩
  cases (Table.find?_eq_some given).2
  refine ⟨schema, options, found, given, ?_⟩
  rw [← (Table.find?_eq_some found).2]
  cases outcome : Property.ofOptions schema.name place.property options with
  | ok other =>
      rw [outcome] at read
      cases read
      rfl
  | error misuse =>
      rw [outcome] at read
      cases read

end Entities

/-! ## Properties that come first -/

/-- If the keys of some items start with given ones, and a condition picks out the
items with these keys, then it picks out the first items, and all others come
after them. -/
theorem filter_of_prefix {Item : Type} {key : Item → String}
    {condition : Item → Bool} {first : List String} {items : List Item}
    (start : first <+: items.map key) (distinct : (items.map key).Nodup)
    (picks : ∀ item ∈ items, condition item = true ↔ key item ∈ first) :
    (items.filter condition).map key = first ∧
      items = items.filter condition ++
        items.filter fun item => !condition item := by
  induction first generalizing items with
  | nil =>
      have passed : ∀ item ∈ items, condition item = false := by
        intro item member
        simpa using picks item member
      have none : items.filter condition = [] :=
        List.filter_eq_nil_iff.mpr fun item member => by
          simp [passed item member]
      have all : items.filter (fun item => !condition item) = items :=
        List.filter_eq_self.mpr fun item member => by simp [passed item member]
      rw [none, all]
      exact ⟨rfl, rfl⟩
  | cons name rest induction =>
      cases items with
      | nil => exact absurd (List.prefix_nil.mp start) (List.cons_ne_nil _ _)
      | cons item later =>
          rw [List.map_cons, List.cons_prefix_cons] at start
          rcases start with ⟨rfl, start⟩
          rcases List.nodup_cons.mp distinct with ⟨fresh, distinct⟩
          have picked : condition item = true :=
            (picks item (List.mem_cons_self ..)).mpr (List.mem_cons_self ..)
          rcases induction start distinct fun other member => by
            have different : key other ≠ key item := fun same =>
              fresh (List.mem_map.mpr ⟨other, member, same⟩)
            rw [picks other (List.mem_cons_of_mem _ member), List.mem_cons,
              or_iff_right different] with ⟨keys, split⟩
          rw [List.filter_cons_of_pos picked,
            List.filter_cons_of_neg (by simp [picked]), List.map_cons, keys,
            List.cons_append, ← split]
          exact ⟨rfl, rfl⟩

end EntityCatalog
