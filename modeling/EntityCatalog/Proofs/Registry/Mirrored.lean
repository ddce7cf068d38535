import EntityCatalog.Proofs.Registry.Located
import EntityCatalog.Proofs.Relation.Mirrors
import EntityCatalog.Proofs.Resolution.Reported

/-!
# Ambiguities of a relation with itself

The two sides that are reported as ambiguous are two relations, unless the
relation is opposed to itself (`Scope.SelfOpposed`): by a hint that is its own
name, by a copy that its target holds, or by another relation that denies that
it owns.  A copy that a target holds does get in the way: with steady sources a
registry does not freeze where a target mirrors a relation that has nothing else
in sight.  A relation that an entity declares to itself is mirrored wherever an
abstract base hands it down (`Registry.finalize_of_mirrors`).
-/

namespace EntityCatalog

open Pairing

/-! ## Steady bases -/

/-- With steady sources the bases do not depend on what was looked up before. -/
theorem Bases.bases_link {directory : Directory}
    (steady : directory.sources.Steady) (schemas : List Schema)
    (tally : Tally) :
    (link directory schemas tally).bases =
      ((ofSchemas directory schemas).breakCycles
        (schemas.map Schema.name)).1 := by
  rw [link]
  dsimp only
  rw [(answers_reads steady schemas tally).1, ofSchemas]

namespace Resolution.Setting

/-- A relation is opposed to itself when the entities of a setting are paired. -/
abbrev SelfOpposed (setting : Setting) (tally : Tally) (place : Place) : Prop :=
  (setting.scopeAt tally).SelfOpposed (setting.pairedAt tally) place

/-- A defect is what comes of the relation that an entity holds at a place. -/
def Spoils (setting : Setting) (tally : Tally) (place : Place)
    (defect : Defect) : Prop :=
  ∃ side : Side, side.Held (setting.scopeAt tally).entities ∧
    side.place = place ∧
      ((setting.scopeAt tally).ruling side).defect = some defect

variable {setting : Setting} {tally : Tally} {side : Side} {target : Entity}

theorem scopeAt_eq (steady : setting.sources.Steady) (tally later : Tally) :
    setting.scopeAt tally = setting.scopeAt later := by
  have bases :=
    @Bases.bases_link setting.directory steady setting.schemas.items
  rw [scopeAt, scopeAt, linkedAt, linkedAt, bases tally, bases later]

/-! ## What is reported -/

/-- A relation that is found ambiguous along with itself is opposed to itself. -/
theorem selfOpposed_of_mem_collected {place : Place} {ambiguity : Ambiguity}
    (member : .ambiguousOwnership place place ambiguity ∈
      setting.collected tally) :
    setting.SelfOpposed tally place := by
  rcases mem_collected_cases member with paired | settled | single
  · exact (explained_pairedAt.contests _ _ _ paired).selfOpposed merges_scopeAt
  · exact selfOpposed_of_disputed explained_pairedAt.settles
      (recalls_settledAt.disputes _ _ _ settled)
  · generalize same : Defect.ambiguousOwnership place place ambiguity = defect
      at single
    cases single with
    | target place miss | base entity miss => cases miss <;> cases same
    | configuration | cycle | key => cases same

/-- With steady sources a relation that its target mirrors is found ambiguous at
any time, if nothing else is in sight of it and nothing is wrong with it where it
is declared. -/
theorem mem_collected_of_mirrors (steady : setting.sources.Steady)
    (mirrors : (setting.scopeAt tally).Mirrors side target)
    (means : setting.directory.meaning side.relation.target.declared =
      .ok target.name)
    (unrivalled : side.Unrivalled target) {ambiguity : Ambiguity}
    (claim : owns side.relation.ownerHint side.relation.ownerHint =
      .error ambiguity)
    (later : Tally) :
    ∃ defect ∈ setting.collected later,
      defect = .ambiguousOwnership side.property.origin side.property.origin
          ambiguity ∨
        setting.Spoils tally side.property.origin defect := by
  -- It does not matter what was looked up before.
  unfold Spoils
  rw [scopeAt_eq steady tally later] at mirrors ⊢
  have coherent : (setting.scopeAt later).Coherent setting.own :=
    coherent_scopeAt steady
  have held := mirrors.held
  have kept :=
    not_mem_dropped (merges_scopeAt.declared_of_held held.property).1
  have wrong := mirrors.defect_ruling kept means unrivalled claim
  have concerned : (setting.scopeAt later).concerns side = true := by
    rw [Scope.concerns, mirrors.leads, Bool.not_false, Bool.and_true,
      Bool.not_eq_true', decide_eq_false_iff_not]
    exact kept
  have now := coherent.reports_run (setting.linkedAt later).tally
  have inside : ∀ defect ∈ (setting.pairedAt later).defects,
      defect ∈ setting.collected later :=
    fun defect member => mem_collected_iff.mpr (Or.inr (Or.inr (Or.inl member)))
  rcases now.attended side (Scope.mem_sides_iff.mpr held) concerned with
    rejected | reported
  · rcases now.rejected _ rejected with
      ⟨first, member, origin, rejects, defect, here, ruled⟩
    have heldFirst := now.held first member
    rcases coherent.same_of_origin heldFirst held origin with
      ⟨property, relation⟩
    refine ⟨defect, inside defect here, Or.inr ⟨first, heldFirst, ?_, ruled⟩⟩
    rcases rejects.all with here | ⟨miss, missed⟩
    · rw [← origin, Property.origin, here]
      rfl
    · rw [relation] at missed
      cases means.symm.trans missed
  · exact ⟨_, inside _ (reported _ wrong), Or.inl rfl⟩

end Resolution.Setting

namespace Registry

/-- What is reported as ambiguous are two relations, or one that is opposed to
itself.  With steady sources a registry in which a target mirrors a relation that
has nothing else in sight does not freeze: the relation is reported along with
itself, unless something is wrong with it where it is declared.  An entity that
declares a relation to itself mirrors the copies of it that abstract bases hand
down, and only these. -/
theorem finalize_of_mirrors {sources : Sources} {registry : Registry}
    (reachable : Reachable sources registry) (tally : Tally) :
    (∀ defects, (registry.finalize sources tally).outcome =
        .error (.invalid defects) →
      ∀ place other ambiguity,
        .ambiguousOwnership place other ambiguity ∈ defects →
          place ≠ other ∨ (registry.setting sources).SelfOpposed tally place) ∧
      (sources.Steady → ∀ side target,
        ((registry.setting sources).scopeAt tally).Mirrors side target →
        (registry.setting sources).directory.meaning
          side.relation.target.declared = .ok target.name →
        side.Unrivalled target →
        ∃ ambiguity defects defect,
          owns side.relation.ownerHint side.relation.ownerHint =
            .error ambiguity ∧
          (registry.finalize sources tally).outcome =
            .error (.invalid defects) ∧
          (∃ reported ∈ defects, reported.message = defect.message) ∧
          (defect = .ambiguousOwnership side.property.origin
              side.property.origin ambiguity ∨
            (registry.setting sources).Spoils tally side.property.origin
              defect)) ∧
      ∀ side target,
        side.Held ((registry.setting sources).scopeAt tally).entities →
        side.Seeks → side.relation.sides.isUnhinted = true →
        ((registry.setting sources).scopeAt tally).entities.find? target.name =
          some target →
        side.property.declaredBy = target.name →
        target.name ≠ side.entity.name →
        (((registry.setting sources).scopeAt tally).Mirrors side target ↔
          ∃ base : Entity, side.entity.base = some base.name ∧
            ((registry.setting sources).scopeAt tally).entities.find?
              base.name = some base ∧
            base.isAbstract = true) := by
  refine ⟨?_, ?_, ?_⟩
  · intro defects refused place other ambiguity member
    by_cases same : place = other
    · subst same
      exact Or.inr (Resolution.Setting.selfOpposed_of_mem_collected
        (mem_collected_of_invalid refused member))
    · exact Or.inl same
  · intro steady side target mirrors means unrivalled
    rcases exists_ambiguity_of_owns side.relation.ownerHint with
      ⟨ambiguity, claim⟩
    have found := Resolution.Setting.mem_collected_of_mirrors steady mirrors
      means unrivalled claim
    have wrong : ∀ earlier,
        (registry.setting sources).collected earlier ≠ [] := by
      intro earlier none
      rcases found earlier with ⟨defect, member, -⟩
      rw [none] at member
      cases member
    rcases reachable.exists_invalid wrong tally with
      ⟨defects, refused, -, complete⟩
    rcases found tally with ⟨defect, member, reason⟩
    exact ⟨ambiguity, defects, defect, claim, refused, complete defect member,
      reason⟩
  · intro side target held seeks unhinted registered declared apart
    exact Scope.mirrors_iff_of_declaredBy Resolution.Setting.merges_scopeAt held
      seeks unhinted registered declared apart

end Registry

-- The holder of a badge is an employee, and no employee as such has a badge, so
-- the holder owns for want of another side.  Managers, who are employees, have
-- badges and name their holder as the inverse.  It is overruled.
example :
    ((Registry.ofSchemas {} [
      { name := "Manager"
        base := some (.name "Employee")
        properties := .ofList [
          ("badge", { Options.oneToOne (.name "Badge") with
            inversedBy := some "holder" })] },
      { name := "Employee"
        properties := .ofList [
          ("id", { Options.typed "integer" with primary := true })] },
      { name := "Card"
        properties := .ofList [
          ("id", { Options.typed "integer" with primary := true })] },
      { name := "Badge"
        base := some (.name "Card")
        properties := .ofList [
          ("holder", .oneToOne (.name "Employee"))] }]).finalize
            ledgerSources .empty).outcome =
      .error (.invalid [.ambiguousOwnership ⟨"Badge", "holder"⟩
        ⟨"Badge", "holder"⟩ .decisionsDisagree]) :=
  rfl

/-! ## Peers of nodes -/

/-- A node has another node as its peer.  Leaves are nodes. -/
def nodes : Registry :=
  .ofSchemas {} [
    { name := "Node"
      isAbstract := true
      properties := .ofList [
        ("id", { Options.typed "integer" with primary := true }),
        ("peer", .oneToOne (.name "Node"))] },
    { name := "Leaf"
      base := some (.name "Node") }]

/-- Nothing is wrong with the peer of a node, but the peer of a leaf, which is a
copy of it, is reported as ambiguous along with it. -/
theorem finalize_of_mirrors_nodes :
    Registry.Reachable ledgerSources nodes ∧ ledgerSources.Steady ∧
      (nodes.finalize ledgerSources .empty).outcome =
        .error (.invalid [
          .ambiguousOwnership ⟨"Node", "peer"⟩ ⟨"Node", "peer"⟩ .unhinted]) ∧
      (nodes.setting ledgerSources).SelfOpposed .empty ⟨"Node", "peer"⟩ ∧
      ∃ side target, side.place = ⟨"Leaf", "peer"⟩ ∧ target.name = "Node" ∧
        ((nodes.setting ledgerSources).scopeAt .empty).Mirrors side target ∧
        (nodes.setting ledgerSources).directory.meaning
          side.relation.target.declared = .ok target.name ∧
        side.Unrivalled target ∧
        ∃ ambiguity defect,
          defect.message = Defect.message
            (.ambiguousOwnership ⟨"Node", "peer"⟩ ⟨"Node", "peer"⟩
              .unhinted) ∧
          (defect = .ambiguousOwnership side.property.origin
              side.property.origin ambiguity ∨
            (nodes.setting ledgerSources).Spoils .empty side.property.origin
              defect) := by
  have reachable : Registry.Reachable ledgerSources nodes :=
    Registry.reachable_ofSchemas _ _ _
  have steady : ledgerSources.Steady := fun _ _ => rfl
  have outcome : (nodes.finalize ledgerSources .empty).outcome =
      .error (.invalid [
        .ambiguousOwnership ⟨"Node", "peer"⟩ ⟨"Node", "peer"⟩ .unhinted]) :=
    rfl
  rcases Registry.finalize_of_mirrors reachable .empty with
    ⟨sound, complete, handsDown⟩
  have pair : ∃ leaf node peer relation,
      ((nodes.setting ledgerSources).scopeAt .empty).entities.find? "Leaf" =
        some leaf ∧
      ((nodes.setting ledgerSources).scopeAt .empty).entities.find? "Node" =
        some node ∧
      leaf.base = some "Node" ∧ node.isAbstract = true ∧
      leaf.property? "peer" = some peer ∧ peer.relation? = some relation ∧
      peer.origin = ⟨"Node", "peer"⟩ ∧ relation.kind = .oneToOne ∧
      relation.sides.isUnhinted = true ∧
      (nodes.setting ledgerSources).directory.meaning
        relation.target.declared = .ok "Node" ∧
      node.properties.items.all (fun other =>
        other.relation?.isNone || other.name = "peer") = true :=
    ⟨_, _, _, _, rfl, rfl, rfl, rfl, rfl, rfl, rfl, rfl, rfl, rfl, rfl⟩
  rcases pair with ⟨leaf, node, peer, relation, foundLeaf, foundNode, above,
    isAbstract, holds, related, origin, kind, unhinted, means, only⟩
  have leafName : leaf.name = "Leaf" := (Table.find?_eq_some foundLeaf).2
  have nodeName : node.name = "Node" := (Table.find?_eq_some foundNode).2
  have peerName : peer.name = "peer" := congrArg Place.property origin
  rw [← leafName] at foundLeaf
  rw [← nodeName] at foundNode above means
  rcases @held_of_property? _ leaf ⟨leaf, peer, relation⟩ "peer" foundLeaf rfl
    holds related with ⟨held, place⟩
  have declared : peer.declaredBy = node.name :=
    nodeName ▸ congrArg Place.entity origin
  have apart : node.name ≠ leaf.name := by
    rw [nodeName, leafName]
    decide
  have mirrors := (handsDown ⟨leaf, peer, relation⟩ node held (Or.inl kind)
    unhinted foundNode declared apart).mpr ⟨node, above, foundNode, isAbstract⟩
  have unrivalled : Side.Unrivalled ⟨leaf, peer, relation⟩ node := by
    intro other member part relates _ differs
    have alone := List.all_eq_true.mp only other member
    rw [relates] at alone
    exact absurd ((of_decide_eq_true alone).trans peerName.symm) differs
  rcases complete steady _ _ mirrors means unrivalled with
    ⟨ambiguity, defects, defect, -, refused, ⟨reported, inside, same⟩, reason⟩
  rw [outcome] at refused
  cases refused
  rw [List.mem_singleton.mp inside] at same
  exact ⟨reachable, steady, outcome,
    (sound _ outcome _ _ _ (List.mem_singleton_self _)).resolve_left
      fun differs => differs rfl,
    _, node, leafName ▸ place, nodeName, mirrors, means, unrivalled, ambiguity,
    defect, same.symm, reason⟩

end EntityCatalog
