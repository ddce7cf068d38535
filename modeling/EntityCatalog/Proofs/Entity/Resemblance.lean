import EntityCatalog.Entity.Completion
import EntityCatalog.Proofs.Entity.Embedding
import EntityCatalog.Proofs.Entity.Inheritance
import EntityCatalog.Proofs.Entity.Linked
import EntityCatalog.Proofs.Entity.Reordered

/-!
# Entities that resemble each other

Two resolutions of the same schemas may differ in the order of entities and of
properties, and in the items of enums (`Resembles`).  What is checked at the
end of a resolution, embedding and primary keys, does not tell such entities
apart.
-/

namespace EntityCatalog.Entities

/-- The same entities in some order, which hold the same properties but for the
items of enums. -/
structure Resembles (left right : Entities) : Prop where
  bare : (left.items.map Entity.bare).Perm (right.items.map Entity.bare)
  outline : ∀ place, (left.property? place).map Property.outline =
    (right.property? place).map Property.outline

namespace Resembles

variable {left right : Entities}

theorem symm (resembles : left.Resembles right) : right.Resembles left :=
  ⟨resembles.bare.symm, fun place => (resembles.outline place).symm⟩

theorem find? (resembles : left.Resembles right) (name : String) :
    (left.find? name).map Entity.bare = (right.find? name).map Entity.bare := by
  have plain : ∀ entity : Entity, entity.bare.name = entity.name :=
    fun _ => rfl
  have perm : (Table.map left Entity.bare plain).items.Perm
      (Table.map right Entity.bare plain).items := resembles.bare
  have found := Table.find?_perm perm name
  rw [Table.find?_map, Table.find?_map] at found
  exact found

theorem exists_find? (resembles : left.Resembles right) {name : String}
    {entity : Entity} (found : left.find? name = some entity) :
    ∃ other, right.find? name = some other ∧ other.bare = entity.bare := by
  have same := resembles.find? name
  rw [found, Option.map_some] at same
  exact Option.map_eq_some_iff.mp same.symm

theorem exists_property? (resembles : left.Resembles right) {place : Place}
    {property : Property} (held : left.property? place = some property) :
    ∃ other, right.property? place = some other ∧
      other.outline = property.outline := by
  have same := resembles.outline place
  rw [held, Option.map_some] at same
  exact Option.map_eq_some_iff.mp same.symm

/-! ## Embedding -/

theorem exists_targets (resembles : left.Resembles right)
    {property : Property} {target : Entity}
    (targets : left.Targets property target) :
    ∃ other found, right.Targets other found ∧
      other.outline = property.outline ∧ found.bare = target.bare := by
  rcases resembles.exists_property? targets.held with ⟨other, held, same⟩
  rcases Option.bind_eq_some_iff.mp targets.known with ⟨name, aims, known⟩
  rcases resembles.exists_find? known with ⟨found, registered, bare⟩
  have origin : other.origin = property.origin := by
    rw [← Property.origin_outline, same, Property.origin_outline]
  have aimed : other.targetName? = property.targetName? := by
    rw [Property.targetName?, ← Property.target?_outline, same,
      Property.target?_outline, Property.targetName?]
  refine ⟨other, found, ⟨?_, ?_⟩, same, bare⟩
  · rw [origin]
    exact held
  · rw [aimed, aims, Option.bind_some]
    exact registered

theorem isEmbedded_of_outline {property other : Property}
    (same : other.outline = property.outline) :
    other.isEmbedded = property.isEmbedded := by
  rw [Property.isEmbedded, ← Property.kind_outline, same,
    Property.kind_outline, Property.isEmbedded]

theorem embeds (resembles : left.Resembles right) {holder embedded : String}
    (embeds : left.Embeds holder embedded) : right.Embeds holder embedded := by
  rcases embeds with
    ⟨property, target, targets, isEmbedded, embeddable, rfl, rfl⟩
  rcases resembles.exists_targets targets with
    ⟨other, found, targetsOther, same, bare⟩
  have declaredBy := congrArg Property.declaredBy same
  rw [Property.declaredBy_outline, Property.declaredBy_outline] at declaredBy
  rcases Entity.marks_of_bare bare with ⟨named, marked, -, -⟩
  exact ⟨other, found, targetsOther,
    (isEmbedded_of_outline same).trans isEmbedded, marked.trans embeddable,
    declaredBy, named⟩

/-- Nothing is wrong with embedding in one order if nothing is in the other. -/
theorem embeddingDefects_eq_nil (resembles : left.Resembles right)
    (silent : left.embeddingDefects = []) : right.embeddingDefects = [] := by
  rw [embeddingDefects_eq_nil_iff] at silent ⊢
  intro other found targetsOther
  rcases resembles.symm.exists_targets targetsOther with
    ⟨property, target, targets, same, bare⟩
  rcases silent property target targets with ⟨fits, acyclic⟩
  have isEmbedded := isEmbedded_of_outline same
  rcases Entity.marks_of_bare bare with ⟨named, embeddable, -, -⟩
  have declaredBy := congrArg Property.declaredBy same
  rw [Property.declaredBy_outline, Property.declaredBy_outline] at declaredBy
  constructor
  · rw [targetMisuse, isEmbedded, embeddable, named] at fits
    rw [targetMisuse]
    exact fits
  · intro embedded leads
    rw [← isEmbedded] at embedded
    rw [← named, ← declaredBy] at leads
    exact acyclic embedded
      (Relation.ReflTransGen.mono (fun _ _ => resembles.symm.embeds) _ _ leads)

end Resembles

/-! ## Primary keys -/

/-- Every entity knows its primary key. -/
def Keyed (entities : Entities) : Prop :=
  ∀ entity ∈ entities.items, entity.withPrimaryKeys.primaryKeys =
    entity.primaryKeys

theorem keyed_index (entities : Entities) : entities.index.Keyed := by
  intro entity member
  rcases List.mem_map.mp member with ⟨before, -, rfl⟩
  rfl

/-- Where nothing was dropped no part of a key was. -/
theorem hasInvalidKey_nil (entities : Entities) (schemas : Table Schema.name)
    (entity : String) : entities.hasInvalidKey schemas [] entity = false := by
  have nowhere : ∀ place, entities.anyWithin [] place = false := by
    intro place
    simp [anyWithin]
  simp only [hasInvalidKey, nowhere, Bool.and_false, List.any_eq_false,
    Option.any_eq_true, not_exists, not_and]
  intro ancestor _ schema _ dropped
  simp at dropped

/-- No entity lacks a primary key exactly if every entity that has a table and
is not keyless has a property in it. -/
theorem keyDefects_eq_nil_iff {entities : Entities} (keyed : entities.Keyed)
    (schemas : Table Schema.name) :
    entities.keyDefects schemas [] = [] ↔
      ∀ name entity, entities.find? name = some entity →
        entity.isTable = true → entity.keyless = false →
          ∃ asked property, entities.property? ⟨name, asked⟩ = some property ∧
            property.primary = true := by
  have lacks : ∀ entity ∈ entities.items,
      (entity.isTable && !entity.keyless && entity.primaryKeys.isEmpty &&
          !entities.hasInvalidKey schemas [] entity.name) = true ↔
        entity.isTable = true ∧ entity.keyless = false ∧
          ∀ property ∈ entity.properties.items, ¬ property.primary = true := by
    intro entity member
    rw [entities.hasInvalidKey_nil, ← keyed entity member]
    simp [Entity.withPrimaryKeys, Entity.select, and_assoc]
  rw [keyDefects, List.map_eq_nil_iff, List.filter_eq_nil_iff]
  constructor
  · intro none name entity found table keyless
    rcases Table.find?_eq_some found with ⟨member, rfl⟩
    have some := none entity member
    rw [lacks entity member] at some
    simp only [table, keyless, true_and, not_forall, not_not] at some
    rcases some with ⟨property, holds, primary⟩
    exact ⟨property.name, property, property?_of_mem member holds, primary⟩
  · intro every entity member missing
    rcases (lacks entity member).mp missing with ⟨table, keyless, none⟩
    rcases every entity.name entity (Table.find?_key member) table keyless with
      ⟨asked, property, held, primary⟩
    rw [property?, Table.find?_key member, Option.bind_some] at held
    exact none property (Table.find?_eq_some held).1 primary

namespace Resembles

variable {left right : Entities}

theorem keyDefects_eq_nil (resembles : left.Resembles right)
    (keyed : left.Keyed) (keyedRight : right.Keyed)
    {schemas others : Table Schema.name}
    (silent : left.keyDefects schemas [] = []) :
    right.keyDefects others [] = [] := by
  rw [keyDefects_eq_nil_iff keyed] at silent
  rw [keyDefects_eq_nil_iff keyedRight]
  intro name other found table keyless
  rcases resembles.symm.exists_find? found with ⟨entity, registered, bare⟩
  rcases Entity.marks_of_bare bare with ⟨-, -, sameTable, sameKeyless⟩
  rcases silent name entity registered (sameTable.trans table)
    (sameKeyless.trans keyless) with ⟨asked, property, held, primary⟩
  rcases resembles.exists_property? held with ⟨copy, heldCopy, same⟩
  refine ⟨asked, copy, heldCopy, ?_⟩
  rw [← Property.primary_outline, same, Property.primary_outline]
  exact primary

end Resembles

end EntityCatalog.Entities
