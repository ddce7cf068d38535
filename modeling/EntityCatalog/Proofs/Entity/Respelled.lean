import EntityCatalog.Proofs.Entity.Retouched
import EntityCatalog.Proofs.Property.Respelled
import EntityCatalog.Relation.Settlement

/-!
# Entities with references spelled anew

Spelling references anew is a retouch of properties.  It can be done before or
after properties are merged along bases, relations are settled, inverses are
added, and targets and items are entered: all these look at names, sides and
known targets and at no reference.
-/

namespace EntityCatalog

variable (spell : EntityRef → EntityRef)

/-- Spelling references anew. -/
def Retouch.respelling : Retouch where
  apply := Property.respell spell
  name := Property.name_respell spell
  declaredBy := fun _ => rfl
  kind := Property.kind_respell spell
  primary := fun _ => rfl
  targetName := Property.targetName?_respell spell

/-- The entity with all references spelled anew. -/
def Entity.respell (entity : Entity) : Entity :=
  entity.retouch (.respelling spell)

@[simp]
theorem Entity.name_respell (entity : Entity) :
    (entity.respell spell).name = entity.name :=
  rfl

@[simp]
theorem Entity.place_respell (entity : Entity) (property : Property) :
    (entity.respell spell).place (property.respell spell) =
      entity.place property :=
  rfl

theorem Entity.property?_respell (entity : Entity) (name : String) :
    (entity.respell spell).property? name =
      (entity.property? name).map (·.respell spell) :=
  entity.property?_retouch (.respelling spell) name

/-- The entities with all references spelled anew. -/
def Entities.respell (entities : Entities) : Entities :=
  entities.retouch (.respelling spell)

namespace Entities

variable (entities : Entities)

theorem alike_respell : (entities.respell spell).Alike entities :=
  entities.alike_retouch (.respelling spell)

theorem find?_respell (name : String) :
    (entities.respell spell).find? name =
      (entities.find? name).map (·.respell spell) :=
  entities.find?_retouch (.respelling spell) name

theorem property?_respell (place : Place) :
    (entities.respell spell).property? place =
      (entities.property? place).map (·.respell spell) :=
  entities.property?_retouch (.respelling spell) place

theorem respell_id : entities.respell id = entities := by
  refine Table.map_eq_self _ (Entity.name_retouch · _) fun entity => ?_
  have same : entity.properties.map (Property.respell id)
      (Property.name_respell id) = entity.properties :=
    Table.map_eq_self _ _ Property.respell_id
  rw [Entity.retouch, Entity.mapProperties]
  exact congrArg (fun properties => { entity with properties := properties })
    same

/-! ## Merged properties -/

/-- Entities of schemas that are spelled anew are spelled anew. -/
theorem ofSchemas_respell (schemas : Table Schema.name) (bases : Bases) :
    ofSchemas (Schema.respellAll spell schemas) bases =
      (ofSchemas schemas bases).respell spell := by
  have declared : ∀ entity,
      Entity.declared (Schema.respellAll spell schemas) entity =
        (Entity.declared schemas entity).map (Property.respell spell) := by
    intro entity
    rw [Entity.declared, Entity.declared, Schema.respellAll, Table.find?_map]
    cases schemas.find? entity with
    | none => rfl
    | some schema => exact schema.ownProperties_respell spell
  have merged : ∀ ancestry : List String,
      effectiveProperties (Entity.declared (Schema.respellAll spell schemas))
          ancestry =
        (effectiveProperties (Entity.declared schemas) ancestry).map
          (Property.respell spell) (Property.name_respell spell) := by
    intro ancestry
    induction ancestry with
    | nil => rfl
    | cons ancestor rest induction =>
        simp only [effectiveProperties, List.foldr_cons] at induction ⊢
        rw [induction, declared, Table.map_insertAll]
  have size : (Schema.respellAll spell schemas).size = schemas.size := by
    rw [Table.size, Schema.respellAll, Table.items_map, List.length_map,
      Table.size]
  refine Table.ext ?_
  change (schemas.items.map _).map _ = (schemas.items.map _).map _
  rw [List.map_map, List.map_map]
  refine List.map_congr_left fun schema _ => ?_
  simp only [Function.comp_apply, Entity.ofSchema, merged, size]
  rfl

/-- Whether a part of a key was dropped does not depend on how references are
spelled. -/
theorem hasInvalidKey_respellAll (schemas : Table Schema.name)
    (invalid : List Place) :
    entities.hasInvalidKey (Schema.respellAll spell schemas) invalid =
      entities.hasInvalidKey schemas invalid := by
  funext name
  unfold hasInvalidKey
  congr 1
  funext ancestor
  rw [Schema.respellAll, Table.find?_map]
  cases schemas.find? ancestor with
  | none => rfl
  | some schema =>
      change (schema.properties.items.map _).any _ = _
      rw [List.any_map]
      rfl

/-- The same entities lack a primary key. -/
theorem keyDefects_respell (schemas : Table Schema.name)
    (invalid : List Place) :
    (entities.respell spell).keyDefects (Schema.respellAll spell schemas)
        invalid = entities.keyDefects schemas invalid := by
  have same := entities.keyDefects_retouch (.respelling spell) schemas invalid
  unfold keyDefects at same ⊢
  rw [hasInvalidKey_respellAll]
  exact same

/-! ## Settled relations -/

theorem copies_respell (place : Place) :
    (entities.respell spell).copies place = entities.copies place := by
  unfold copies
  rw [property?_respell]
  cases entities.property? place with
  | none => rfl
  | some property =>
      dsimp only [Option.map_some]
      change ((entities.items.map fun entity =>
        entity.respell spell).filter _).map _ = _
      rw [List.filter_map, List.map_map]
      congr 1
      refine List.filter_congr fun other _ => ?_
      have found : (other.respell spell).property? place.property =
          (other.property? place.property).map (·.respell spell) :=
        other.property?_respell spell place.property
      simp only [Function.comp_apply, found,
        (entities.alike_respell spell).isWithin]
      cases other.property? place.property <;> rfl

theorem respell_withSides (place : Place) (sides : Sides) :
    (entities.withSides place sides).respell spell =
      (entities.respell spell).withSides place sides := by
  have entity : ∀ entity : Entity,
      (entity.withSides place.property sides).respell spell =
        (entity.respell spell).withSides place.property sides := by
    intro entity
    have properties := Table.map_adjust (Property.respell spell)
      (Property.name_respell spell) entity.properties place.property
      (·.withSides sides) (Property.name_withSides · sides)
      fun property => property.respell_withSides spell sides
    exact congrArg
      (fun properties => { entity with properties := properties }) properties
  exact Table.map_adjust (·.respell spell) (Entity.name_retouch · _) entities
    place.entity (·.withSides place.property sides) (fun _ => rfl) entity

/-! ## Added inverses -/

section

variable (names : ∀ name, spell (.name name) = .name name)

include names

theorem respell_property (synthesis : Synthesis) :
    synthesis.property.respell spell = synthesis.property := by
  simp only [Property.respell, Synthesis.property, Nature.respell,
    Relation.respell, Target.respell, names]

theorem respell_addWithin (synthesis : Synthesis) :
    (entities.addWithin synthesis.holder synthesis.property).respell spell =
      (entities.respell spell).addWithin synthesis.holder
        synthesis.property := by
  have offered : ∀ entity : Entity,
      (entity.offer synthesis.property).respell spell =
        (entity.respell spell).offer synthesis.property := by
    intro entity
    have contained : (entity.respell spell).properties.contains
        synthesis.property.name =
          entity.properties.contains synthesis.property.name := by
      rw [Table.contains_eq, Table.contains_eq]
      have found := entity.property?_respell spell synthesis.property.name
      exact (congrArg Option.isSome found).trans Option.isSome_map
    unfold Entity.offer
    rw [contained]
    split
    · rfl
    · have inserted := Table.map_insert (Property.respell spell)
        (Property.name_respell spell) entity.properties synthesis.property
      rw [respell_property spell names] at inserted
      exact congrArg
        (fun properties => { entity with properties := properties }) inserted
  refine Table.ext ?_
  change (entities.items.map _).map _ = (entities.items.map _).map _
  rw [List.map_map, List.map_map]
  refine List.map_congr_left fun entity _ => ?_
  simp only [Function.comp_apply, (entities.alike_respell spell).isWithin]
  by_cases within : entities.isWithin entity.name synthesis.holder = true
  · rw [if_pos within]
    exact (offered entity).trans (if_pos within).symm
  · rw [if_neg within]
    exact (if_neg within).symm

end

end Entities

/-! ## Decisions that are carried out -/

namespace Settlement

/-- Decisions carried out so far, with all references spelled anew. -/
def Progress.respell (progress : Progress) : Progress :=
  { progress with entities := progress.entities.respell spell }

variable (progress : Progress)

theorem respell_settleCopy (sides : Sides) (source place : Place) :
    (progress.settleCopy sides source place).respell spell =
      (progress.respell spell).settleCopy sides source place := by
  have related : ((progress.respell spell).entities.property? place).bind
      Property.relation? =
        ((progress.entities.property? place).bind Property.relation?).map
          (·.respell spell) := by
    rw [Progress.respell, Entities.property?_respell]
    cases progress.entities.property? place with
    | none => rfl
    | some property => exact property.relation?_respell spell
  unfold Progress.settleCopy
  rw [related]
  cases (progress.entities.property? place).bind Property.relation? with
  | none => rfl
  | some relation =>
      dsimp only [Option.map_some, Progress.respell]
      rw [Relation.sides_respell]
      rcases relation.sides.settle
        ((progress.decided.find? place).map Prod.snd) sides with
        ⟨result, ambiguity⟩
      cases ambiguity with
      | none | some => simp only [Progress.note, Entities.respell_withSides]

theorem respell_settle (settlement : Settlement) :
    (progress.settle settlement).respell spell =
      (progress.respell spell).settle settlement := by
  unfold Progress.settle
  rw [show (progress.respell spell).entities.copies settlement.place =
    progress.entities.copies settlement.place from
      progress.entities.copies_respell spell settlement.place]
  generalize (progress.entities.copies settlement.place).map _ = places
  induction places generalizing progress with
  | nil => rfl
  | cons place rest induction =>
      rw [List.foldl_cons, List.foldl_cons, ← respell_settleCopy]
      exact induction _

section

variable (names : ∀ name, spell (.name name) = .name name)

include names

theorem respell_synthesize (synthesis : Synthesis) :
    (progress.synthesize synthesis).respell spell =
      (progress.respell spell).synthesize synthesis := by
  have used : ((progress.respell spell).entities.property?
      ⟨synthesis.holder, synthesis.name⟩).isSome =
        (progress.entities.property?
          ⟨synthesis.holder, synthesis.name⟩).isSome := by
    rw [Progress.respell, Entities.property?_respell, Option.isSome_map]
  unfold Progress.synthesize
  rw [used]
  split
  · rfl
  · simp only [Progress.respell, Entities.respell_addWithin spell _ names]

/-- Decisions are carried out alike, however references are spelled. -/
theorem carryOut_respell (entities : Entities) (decisions : List Decision) :
    carryOut (entities.respell spell) decisions =
      (carryOut entities decisions).respell spell := by
  change decisions.foldl Progress.carryOut
    (Progress.respell spell { entities := entities }) = _
  unfold carryOut
  generalize ({ entities := entities } : Progress) = progress
  induction decisions generalizing progress with
  | nil => rfl
  | cons decision rest induction =>
      have step : (progress.carryOut decision).respell spell =
          (progress.respell spell).carryOut decision := by
        cases decision with
        | settle settlement => exact respell_settle spell progress settlement
        | synthesize synthesis =>
            exact respell_synthesize spell progress names synthesis
      rw [List.foldl_cons, List.foldl_cons, ← step]
      exact induction _

end

end Settlement

end EntityCatalog
