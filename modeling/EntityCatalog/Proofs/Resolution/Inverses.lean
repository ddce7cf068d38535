import EntityCatalog.Proofs.Resolution.Family

/-!
# Inverses for a family

In a family whose target does not answer a many-to-many relation, every schema
that leads gets an inverse, and nothing else is added to the target.  Whether the
inverses go together is read off the schemas (`Family.parts_iff`).  Directly below
an abstract top all concrete schemas lead, so that only the names of the inverses
matter; below a concrete top nobody else may lead.
-/

namespace EntityCatalog.Resolution.Setting.Family

open Pairing

variable {setting : Setting} {top target member : Schema}
  {heirs : List Schema} {property : Property} {relation : Relation}
  (family : setting.Family top target heirs property relation [])
  (steady : setting.sources.Steady)
  (adding : setting.config.synthesizeInverse = true)
  (kind : relation.kind = .manyToMany)

include family

theorem property?_target (name : String) :
    (setting.entity target).property? name = target.property? name := by
  have held := family.merges.held ⟨target.name, name⟩
  rw [family.base?_merged, family.base?_target, Option.bind_none,
    Option.or_none, family.own_eq mem_of_target, Entities.property?,
    family.find?_merged mem_of_target] at held
  exact held

include steady adding kind in
theorem lone :
    setting.scope.Lone setting.own property relation
      (setting.entity target) where
  toCoherent := family.coherent steady
  dropped := rfl
  adding := adding
  only := by
    intro side held
    rcases family.held_cases held with
      ⟨member, inside, rfl⟩ | ⟨answer, absent, -⟩
    · exact ⟨rfl, rfl, family.name_ne_target inside⟩
    · cases absent
  kind := kind
  unhinted := family.unhinted
  unclaimed := family.unclaimed
  means := family.means
  registered := family.find?_merged mem_of_target

/-! ## Schemas that lead -/

/-- Who leads in the scope leads among the schemas. -/
theorem exists_of_leads {side : Side} (held : side.Held setting.merged)
    (leads : setting.scope.leads side = true) :
    ∃ member ∈ top :: heirs, setting.Leads (top :: heirs) member ∧
      side = ⟨setting.entity member, property, relation⟩ := by
  rcases family.held_cases held with
    ⟨member, inside, rfl⟩ | ⟨answer, absent, -⟩
  · exact ⟨member, inside, family.leads_iff.mp leads, rfl⟩
  · cases absent

/-- Whether inverses can be added side by side shows in the schemas that lead. -/
theorem parts_iff :
    setting.scope.Parts (setting.entity target) ↔
      (∀ member ∈ top :: heirs, setting.Leads (top :: heirs) member →
        target.property? (setting.config.inverseNaming.inverseName member.name
          property.name) = none) ∧
      (∀ left ∈ top :: heirs, ∀ right ∈ top :: heirs,
        setting.Leads (top :: heirs) left → setting.Leads (top :: heirs) right →
          setting.config.inverseNaming.inverseName left.name property.name =
              setting.config.inverseNaming.inverseName right.name
                property.name →
            left = right) ∧
      ∀ lower ∈ top :: heirs, ∀ upper ∈ top :: heirs,
        setting.Leads (top :: heirs) lower →
          setting.Leads (top :: heirs) upper →
            Descends setting.base? lower.name upper.name → lower = upper := by
  have equal : ∀ left ∈ top :: heirs, ∀ right ∈ top :: heirs,
      (⟨setting.entity left, property, relation⟩ : Side) =
          ⟨setting.entity right, property, relation⟩ →
        left = right := by
    intro left inLeft right inRight same
    exact family.eq_of_name_eq (mem_of_member inLeft) (mem_of_member inRight)
      (congrArg (fun side => side.entity.name) same)
  constructor
  · intro parts
    refine ⟨?_, ?_, ?_⟩
    · intro member inside leads
      have fresh := parts.fresh _ (family.side_held inside)
        (family.leads_iff.mpr leads)
      exact (family.property?_target _).symm.trans fresh
    · intro left inLeft right inRight leadsLeft leadsRight same
      have heldLeft := family.side_held inLeft
      have heldRight := family.side_held inRight
      have sides := parts.distinct _ _ heldLeft heldRight
        (family.leads_iff.mpr leadsLeft) (family.leads_iff.mpr leadsRight) same
      exact equal left inLeft right inRight sides
    · intro lower inLower upper inUpper leadsLower leadsUpper below
      have heldLower := family.side_held inLower
      have heldUpper := family.side_held inUpper
      rw [← family.base?_merged] at below
      have sides := parts.apart _ _ heldLower heldUpper
        (family.leads_iff.mpr leadsLower) (family.leads_iff.mpr leadsUpper) below
      exact equal lower inLower upper inUpper sides
  · rintro ⟨fresh, distinct, apart⟩
    refine ⟨?_, ?_, ?_⟩
    · intro side held leads
      rcases family.exists_of_leads held leads with
        ⟨member, inside, leading, rfl⟩
      rw [family.property?_target]
      exact fresh member inside leading
    · intro left right heldLeft heldRight leadsLeft leadsRight same
      rcases family.exists_of_leads heldLeft leadsLeft with
        ⟨first, inFirst, leadsFirst, rfl⟩
      rcases family.exists_of_leads heldRight leadsRight with
        ⟨second, inSecond, leadsSecond, rfl⟩
      rw [distinct first inFirst second inSecond leadsFirst leadsSecond same]
    · intro lower upper heldLower heldUpper leadsLower leadsUpper below
      rcases family.exists_of_leads heldLower leadsLower with
        ⟨first, inFirst, leadsFirst, rfl⟩
      rcases family.exists_of_leads heldUpper leadsUpper with
        ⟨second, inSecond, leadsSecond, rfl⟩
      rw [show setting.scope.entities.base? = _ from family.base?_merged]
        at below
      rw [apart first inFirst second inSecond leadsFirst leadsSecond below]

/-! ## Directly below an abstract top -/

section

variable (abstractTop : top.isAbstract = true)
  (direct : ∀ heir ∈ heirs,
    setting.base? heir.name = some top.name ∧ heir.isAbstract = false)

include direct

include abstractTop in
theorem leads_iff_mem (inside : member ∈ top :: heirs) :
    setting.Leads (top :: heirs) member ↔ member ∈ heirs := by
  constructor
  · rintro ⟨concrete, -⟩
    rcases List.mem_cons.mp inside with rfl | below
    · rw [abstractTop] at concrete
      cases concrete
    · exact below
  · intro below
    rcases direct member below with ⟨link, concrete⟩
    refine ⟨concrete, fun base inFamily above => ?_⟩
    rw [link] at above
    have same := family.eq_of_name_eq (mem_of_member inFamily)
      (List.mem_cons_self ..) (Option.some.inj above).symm
    rw [same]
    exact abstractTop

include abstractTop in
/-- Where the inverses have new names, these must be different. -/
theorem parts_iff_of_direct
    (fresh : ∀ heir ∈ heirs, target.property?
      (setting.config.inverseNaming.inverseName heir.name property.name) = none) :
    setting.scope.Parts (setting.entity target) ↔
      (heirs.map fun heir => setting.config.inverseNaming.inverseName heir.name
        property.name).Nodup := by
  have leads := fun member (inside : member ∈ top :: heirs) =>
    family.leads_iff_mem abstractTop direct inside
  have heir : ∀ {member}, member ∈ heirs → member ∈ top :: heirs :=
    fun inside => List.mem_cons_of_mem _ inside
  have distinct : heirs.Nodup :=
    ((List.nodup_cons.mp (List.nodup_cons.mp
      family.nodup_names.of_map).2).2)
  rw [family.parts_iff, List.nodup_map_iff_inj_on distinct]
  constructor
  · rintro ⟨-, different, -⟩ left inLeft right inRight same
    exact different left (heir inLeft) right (heir inRight)
      ((leads left (heir inLeft)).mpr inLeft)
      ((leads right (heir inRight)).mpr inRight) same
  · intro different
    refine ⟨?_, ?_, ?_⟩
    · intro member inside leading
      exact fresh member ((leads member inside).mp leading)
    · intro left inLeft right inRight leadsLeft leadsRight same
      exact different left ((leads left inLeft).mp leadsLeft) right
        ((leads right inRight).mp leadsRight) same
    · intro lower inLower upper inUpper leadsLower leadsUpper below
      exact family.eq_of_descends_of_direct
        (fun heir inside => (direct heir inside).1)
        ((leads lower inLower).mp leadsLower)
        ((leads upper inUpper).mp leadsUpper) below

end

/-! ## Below a concrete top -/

section

variable (concrete : top.isAbstract = false)

include concrete

theorem leads_top : setting.Leads (top :: heirs) top := by
  refine ⟨concrete, fun base _ above => ?_⟩
  rw [family.base?_top] at above
  cases above

/-- Where the inverse of the top has a new name, nobody else may lead. -/
theorem parts_iff_of_concrete
    (fresh : target.property? (setting.config.inverseNaming.inverseName top.name
      property.name) = none) :
    setting.scope.Parts (setting.entity target) ↔
      ∀ heir ∈ heirs, ¬ setting.Leads (top :: heirs) heir := by
  have leadsTop := family.leads_top concrete
  have inTop : top ∈ top :: heirs := List.mem_cons_self ..
  rw [family.parts_iff]
  constructor
  · rintro ⟨-, -, apart⟩ heir inside leads
    have inFamily : heir ∈ top :: heirs := List.mem_cons_of_mem _ inside
    exact family.ne_top inside (apart heir inFamily top inTop leads leadsTop
      (family.below heir inside))
  · intro follows
    have only : ∀ member ∈ top :: heirs,
        setting.Leads (top :: heirs) member → member = top := by
      intro member inside leads
      rcases List.mem_cons.mp inside with same | below
      · exact same
      · exact absurd leads (follows member below)
    refine ⟨?_, ?_, ?_⟩
    · intro member inside leads
      rw [only member inside leads]
      exact fresh
    · intro left inLeft right inRight leadsLeft leadsRight _
      rw [only left inLeft leadsLeft, only right inRight leadsRight]
    · intro lower inLower upper inUpper leadsLower leadsUpper _
      rw [only lower inLower leadsLower, only upper inUpper leadsUpper]

end

/-- Who is below the top does not lead exactly if it is abstract or its base is
concrete. -/
theorem not_leads_iff (inside : member ∈ heirs) :
    ¬ setting.Leads (top :: heirs) member ↔
      (member.isAbstract = false → ∀ base ∈ top :: heirs,
        setting.base? member.name = some base.name → base.isAbstract = false) := by
  rcases family.exists_link inside with ⟨base, inFamily, link⟩
  have only : ∀ other ∈ top :: heirs,
      setting.base? member.name = some other.name → other = base := by
    intro other otherInside above
    rw [link] at above
    exact (family.eq_of_name_eq (mem_of_member inFamily)
      (mem_of_member otherInside) (Option.some.inj above)).symm
  constructor
  · intro follows concrete other otherInside above
    rw [only other otherInside above, ← Bool.not_eq_true]
    intro isAbstract
    refine follows ⟨concrete, fun next nextInside higher => ?_⟩
    rw [only next nextInside higher]
    exact isAbstract
  · rintro bases ⟨concrete, isAbstract⟩
    have below := bases concrete base inFamily link
    rw [isAbstract base inFamily link] at below
    cases below

/-! ## When nothing is wrong -/

include steady adding kind

theorem mem_syntheses_iff (parts : setting.scope.Parts (setting.entity target))
    {added : Synthesis} :
    added ∈ syntheses setting.scope.decisions ↔
      ∃ member ∈ top :: heirs, setting.Leads (top :: heirs) member ∧
        added = ⟨target.name,
          setting.config.inverseNaming.inverseName member.name property.name,
          ⟨member.name, property.name⟩⟩ := by
  rw [(family.lone steady adding kind).mem_syntheses_iff parts]
  constructor
  · rintro ⟨side, held, leads, rfl⟩
    rcases family.exists_of_leads held leads with
      ⟨member, inside, leading, rfl⟩
    exact ⟨member, inside, leading, rfl⟩
  · rintro ⟨member, inside, leads, rfl⟩
    exact ⟨_, family.side_held inside, family.leads_iff.mpr leads, rfl⟩

/-- The relation points at the target, and the inverses at the schemas that lead. -/
theorem targeted_iff_of_parts
    (parts : setting.scope.Parts (setting.entity target)) :
    setting.Targeted ↔
      target.embeddable = false ∧
        ∀ member ∈ top :: heirs, setting.Leads (top :: heirs) member →
          member.embeddable = false := by
  rw [family.targeted_iff]
  constructor
  · intro fitting
    refine ⟨?_, fun member inside leads => ?_⟩
    · exact fitting target mem_of_target (family.pointsAt_iff.mpr (Or.inl rfl))
    · refine fitting member (mem_of_member inside)
        (family.pointsAt_iff.mpr (Or.inr (Or.inr ?_)))
      exact ⟨_, (family.mem_syntheses_iff steady adding kind parts).mpr
        ⟨member, inside, leads, rfl⟩, rfl⟩
  · rintro ⟨stored, leading⟩ schema known points
    rcases family.pointsAt_iff.mp points with
      same | ⟨_, absent, -⟩ | ⟨synthesis, inside, source⟩
    · rw [family.eq_of_name_eq known mem_of_target same]
      exact stored
    · cases absent
    · rcases (family.mem_syntheses_iff steady adding kind parts).mp inside with
        ⟨member, inFamily, leads, rfl⟩
      rw [← family.eq_of_name_eq (mem_of_member inFamily) known source]
      exact leading member inFamily leads

theorem silent_run_iff_parts (tally : Tally) :
    (setting.run tally).defects = [] ↔
      setting.scope.Parts (setting.entity target) ∧
        (target.embeddable = false ∧
          ∀ member ∈ top :: heirs, setting.Leads (top :: heirs) member →
            member.embeddable = false) ∧
        setting.Keyed := by
  rw [family.silent_run_iff steady tally]
  have together := (family.lone steady adding kind).parts_iff
  rw [show setting.merged = setting.scope.entities from rfl, together]
  refine and_congr_right fun parts => ?_
  rw [family.targeted_iff_of_parts steady adding kind parts]

end EntityCatalog.Resolution.Setting.Family
