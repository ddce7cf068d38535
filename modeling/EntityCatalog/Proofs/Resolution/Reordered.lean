import EntityCatalog.Proofs.Entity.Defaults
import EntityCatalog.Proofs.Entity.Resemblance
import EntityCatalog.Proofs.Relation.Reordered
import EntityCatalog.Proofs.Resolution.Sound

/-!
# Resolving schemas in another order

Schemas in another order have the same merged entities in another order, and
every relation is ruled on alike.  So what one resolution needs to find nothing
wrong, the other needs too, but for the order in which inverses are added
(`Reordered.sound_iff_timely`).  Where neither finds anything wrong, both come
to entities that resemble each other (`Reordered.resembles_result`), so that
only the defaults of enums are left to be looked at
(`Reordered.silent_run_iff_timely`).
-/

namespace EntityCatalog.Resolution.Setting

open Pairing

/-- The same schemas in some order each, with the same surroundings. -/
structure Reordered (left right : Setting) : Prop where
  config : left.config = right.config
  sources : left.sources = right.sources
  schemas : left.schemas.items.Perm right.schemas.items

namespace Reordered

variable {left right : Setting}

/-! ## Merged entities -/

theorem find? (reordered : left.Reordered right) :
    left.schemas.find? = right.schemas.find? := by
  funext name
  exact Table.find?_perm reordered.schemas name

theorem meaning (reordered : left.Reordered right) :
    left.directory.meaning = right.directory.meaning := by
  have judged : left.directory.judge = right.directory.judge := by
    funext settled
    cases settled with
    | none => simp only [Directory.judge, directory, reordered.config]
    | some name =>
        have member : name ∈ left.schemas.keys ↔ name ∈ right.schemas.keys :=
          (Table.keys_perm reordered.schemas).mem_iff
        exact if_congr member rfl rfl
  funext reference
  rw [Directory.meaning, Directory.meaning, judged]
  simp only [directory, reordered.config, reordered.sources]

theorem link (reordered : left.Reordered right) :
    left.directory.link = right.directory.link := by
  funext property
  rw [Directory.link, Directory.link, reordered.meaning]

theorem own (reordered : left.Reordered right) : left.own = right.own := by
  funext place
  rw [Setting.own, Setting.own, Entities.declaredAt, Entities.declaredAt,
    reordered.find?]

theorem base? (reordered : left.Reordered right) :
    (Bases.ofSchemas left.directory left.schemas.items).base? =
      (Bases.ofSchemas right.directory right.schemas.items).base? := by
  funext entity
  apply Option.ext
  intro next
  rw [Bases.base?_ofSchemas_eq_some_iff, Bases.base?_ofSchemas_eq_some_iff,
    reordered.find?, reordered.meaning]

/-- The merged entities are the same in another order. -/
theorem merged (reordered : left.Reordered right) :
    left.merged.Reordered right.merged := by
  have declared : Entity.declared left.schemas =
      Entity.declared right.schemas := by
    funext entity
    rw [Entity.declared, Entity.declared, reordered.find?]
  have entities : Entity.ofSchema left.schemas
        (Bases.ofSchemas left.directory left.schemas.items) =
      Entity.ofSchema right.schemas
        (Bases.ofSchemas right.directory right.schemas.items) := by
    funext schema
    rw [Entity.ofSchema, Entity.ofSchema, reordered.base?, declared,
      Table.size_perm reordered.schemas]
  change (left.schemas.items.map _).Perm (right.schemas.items.map _)
  rw [entities]
  exact reordered.schemas.map _

theorem scope (reordered : left.Reordered right) :
    left.scope.Reordered right.scope where
  config := reordered.config
  invalid := rfl
  meaning := reordered.meaning
  entities := reordered.merged

/-! ## Soundness -/

theorem linkable (reordered : left.Reordered right)
    (linkable : Bases.Linkable left.directory left.schemas.items) :
    Bases.Linkable right.directory right.schemas.items where
  found := by
    intro schema member reference base
    rw [← reordered.meaning]
    exact linkable.found schema (reordered.schemas.mem_iff.mpr member)
      reference base
  acyclic := by
    intro schema member
    rw [Bases.cycle?_eq_none_iff, ← reordered.base?, ← Bases.cycle?_eq_none_iff]
    exact linkable.acyclic schema (reordered.schemas.mem_iff.mpr member)

theorem cleared (reordered : left.Reordered right) (related : left.Related) :
    right.scope.Cleared right.own := by
  have steady : right.sources.Steady :=
    reordered.sources ▸ related.cleared.steady
  refine ⟨Setting.coherent steady (reordered.linkable related.linkable), rfl,
    fun side held => ?_⟩
  exact reordered.scope.clears_iff.mp
    (related.cleared.clears side (reordered.scope.symm.held held))

/-- What is in order in one order is so in another, provided inverses are added
in time. -/
theorem sound_iff_timely (reordered : left.Reordered right)
    (sound : left.Sound) :
    right.Sound ↔ left.scope.Timely right.schemas.keys := by
  have cleared := reordered.cleared sound.toRelated
  have accepts := reordered.scope.accepts_iff_timely sound.cleared
    (reordered.own ▸ cleared) sound.accepts
  rw [show right.scope.entities.keys = right.schemas.keys from
    Entities.keys_ofSchemas _ _] at accepts
  rw [← accepts]
  constructor
  · intro soundRight
    exact soundRight.accepts
  · intro together
    refine ⟨⟨?_, reordered.linkable sound.linkable, cleared, together⟩, ?_⟩
    · rw [List.flatMap_eq_nil_iff]
      intro schema member
      exact List.flatMap_eq_nil_iff.mp sound.fits schema
        (reordered.schemas.mem_iff.mpr member)
    · intro place property declared target pointed unknown
      rw [← reordered.own] at declared
      rw [← reordered.meaning]
      exact sound.finds place property declared target pointed unknown

/-! ## Results -/

/-- Both come to the same properties once decisions are carried out. -/
theorem settled (reordered : left.Reordered right) (related : left.Related)
    (relatedRight : right.Related) (place : Place) :
    left.settled.property? place = right.settled.property? place := by
  have carried := related.carried
  have carriedRight := relatedRight.carried
  by_cases registered : place.entity ∈ left.merged.keys
  case neg =>
    have absent : left.settled.property? place = none := by
      refine Option.eq_none_iff_forall_ne_some.mpr fun property held => ?_
      have known := Entities.mem_keys_of_property? held
      exact registered (carried.alike.keys ▸ known)
    have absentRight : right.settled.property? place = none := by
      refine Option.eq_none_iff_forall_ne_some.mpr fun property held => ?_
      have known := Entities.mem_keys_of_property? held
      exact registered (reordered.merged.mem_keys_iff.mpr
        (carriedRight.alike.keys ▸ known))
    rw [absent, absentRight]
  cases held : left.merged.property? place with
  | none =>
      have heldRight := held
      rw [reordered.merged.property?] at heldRight
      have first := reordered.scope.find?_covers related.merges carried.apart
        carriedRight.apart registered
      rw [Setting.settled, Setting.settled,
        carried.fresh place registered held,
        carriedRight.fresh place
          (reordered.merged.mem_keys_iff.mp registered) heldRight]
      exact congrArg (Option.map Synthesis.property) first
  | some property =>
      have heldRight := held
      rw [reordered.merged.property?] at heldRight
      rcases carried.held place property held with ⟨sides, kept, agrees⟩
      rcases carriedRight.held place property heldRight with
        ⟨others, keptRight, agreesRight⟩
      rw [Setting.settled, Setting.settled, kept, keptRight]
      cases relation : property.relation? with
      | none =>
          rw [Property.withSides_of_relation?_eq_none relation,
            Property.withSides_of_relation?_eq_none relation]
      | some relation =>
          have agreed := agrees _ relation
          have agreedRight := agreesRight _ relation
          rw [← reordered.scope.proposed] at agreedRight
          rw [agreed.unique agreedRight]

theorem resembles_result (reordered : left.Reordered right)
    (sound : left.Sound) (soundRight : right.Sound)
    {findings others : Findings} {start other : Tally}
    (faithful : findings.Faithful left.directory (references left.own) start)
    (faithfulRight : others.Faithful right.directory (references right.own)
      other) :
    (left.result findings).Resembles (right.result others) := by
  constructor
  · rw [show _ = _ from sound.alike_result findings,
      show _ = _ from soundRight.alike_result others]
    exact List.Perm.map Entity.bare reordered.merged
  · intro place
    rw [sound.outline_result faithful, soundRight.outline_result faithfulRight,
      reordered.settled sound.toRelated soundRight.toRelated, reordered.link]

/-- Where nothing is wrong in one order, nothing is in the other exactly if
inverses are added in time and the defaults of enums hold. -/
theorem silent_run_iff_timely (reordered : left.Reordered right)
    (steady : left.sources.Steady) {tally : Tally}
    (silent : (left.run tally).defects = []) (later : Tally) :
    (right.run later).defects = [] ↔
      left.scope.Timely right.schemas.keys ∧
        DefaultsHold right.sources
          (right.settled.items.flatMap Entity.ownProperties) later := by
  have steadyRight : right.sources.Steady := reordered.sources ▸ steady
  rcases (silent_run_iff steady tally).mp silent with
    ⟨sound, -, embedding, keys⟩
  rw [silent_run_iff steadyRight later]
  constructor
  · rintro ⟨soundRight, hold, -, -⟩
    exact ⟨(reordered.sound_iff_timely sound).mp soundRight, hold⟩
  · rintro ⟨timely, hold⟩
    have soundRight := (reordered.sound_iff_timely sound).mpr timely
    have resembles := reordered.resembles_result sound soundRight
      (sound.faithful_findings tally) (soundRight.faithful_findings later)
    refine ⟨soundRight, hold, resembles.embeddingDefects_eq_nil embedding, ?_⟩
    unfold keyDefects at keys ⊢
    rw [← reordered.config]
    split
    · rename_i demanded
      rw [if_pos demanded] at keys
      exact resembles.keyDefects_eq_nil (Entities.keyed_index _)
        (Entities.keyed_index _) keys
    · rfl

end Reordered

end EntityCatalog.Resolution.Setting
