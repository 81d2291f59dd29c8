import StateWeaver.Twin.Rearranging

/-!
# The evidence of a twin

The index of a twin has the evidence of all its parts: of its entities and relations too, not only of its
facts, transitions and conflicts. A record is contributed only after its evidence was found in the registry,
and a conflict only has the evidence of two facts.
-/

namespace StateWeaver.Twin

open Contracts

/-! ## Specification -/

/-- What a twin refers to as evidence. -/
inductive Refers (twin : SecuritySemanticTwin) (id : ContractId) : Prop where
  | entity (e : Entity) (he : e ∈ twin.entities) (p : Provenance) (hp : e.provenance = some p)
      (hid : id ∈ p.evidenceIds)
  | relation (r : Relation) (hr : r ∈ twin.relations) (hid : id ∈ r.provenance.evidenceIds)
  | fact (f : Fact) (hf : f ∈ twin.facts) (hid : id ∈ f.provenance.evidenceIds)
  | transition (t : TransitionFragment) (ht : t ∈ twin.transitions) (hid : id ∈ t.evidenceIds)
  | conflict (c : TwinConflict) (hc : c ∈ twin.conflicts) (hid : id ∈ c.evidenceIds)

/-- What the facts, transitions and conflicts of a twin refer to. -/
def RefersByClaims (twin : SecuritySemanticTwin) (id : ContractId) : Prop :=
  (∃ f ∈ twin.facts, id ∈ f.provenance.evidenceIds) ∨ (∃ t ∈ twin.transitions, id ∈ t.evidenceIds) ∨
    ∃ c ∈ twin.conflicts, id ∈ c.evidenceIds

/-- The index has exactly what the twin refers to, all of it of the registry. -/
structure EvidenceClosed (input : TwinBuildInput) (twin : SecuritySemanticTwin) : Prop where
  exact : ∀ id, id ∈ twin.evidenceIds ↔ Refers twin id
  registered : ∀ id ∈ twin.evidenceIds, ∃ r ∈ input.evidenceRecords, r.evidenceId = id

/-! ## Contributions -/

/-- The evidence of a record. -/
def Item.evidence : Item → List ContractId
  | .entity e => entityEvidence e
  | .relation r => r.provenance.evidenceIds
  | .fact f => f.provenance.evidenceIds
  | .transition t => t.evidenceIds

variable [Sha256] {input : TwinBuildInput} {twin : SecuritySemanticTwin} {items : List Item} {item : Item}
  {c : Collections} {conflicts : List TwinConflict} {evidence : Registry}

omit [Sha256] in
theorem registered_of_sourceItems {provenance : Provenance} {serviceId : ContractId}
    {semantics : Except Exc (List Semantics)}
    (hsaid : ∀ said, semantics = .ok said → ∀ s ∈ said, SaidWith provenance s)
    (h : sourceItems evidence provenance serviceId semantics = .ok items) (hitem : item ∈ items) :
    Registered evidence item.evidence := by
  have hregistered := (validateProvenance_eq_ok.mp (Imp.check_bind_eq_ok.mp h).1).registered
  rcases mem_sourceItems h hitem with rfl | ⟨said, hsemantics, s, hs, rfl | rfl | rfl⟩
  · exact fun _ => nofun
  · rw [Item.evidence, entityEvidence, (hsaid said hsemantics s hs).entity]
    exact hregistered
  · rw [Item.evidence, (hsaid said hsemantics s hs).relation]
    exact hregistered
  · rw [Item.evidence, (hsaid said hsemantics s hs).fact]
    exact hregistered

theorem registered_of_flowItems {flow : TelemetryFlow} (h : flowItems evidence flow = .ok items)
    (hitem : item ∈ items) : Registered evidence item.evidence := by
  obtain ⟨⟨transition, facts⟩, htransition, -⟩ := Imp.except_bind_eq_ok.mp h
  have hsupported := (transitionFromFlow_iff.mp htransition).1
  rcases (mem_flowItems h).mp hitem with rfl | ⟨f, rfl, delta, hdelta, hfact⟩
  · exact fun id hid => (hsupported.all id hid).imp fun _ h => h.1
  · obtain ⟨-, -, -, -, -, -, hprovenance⟩ := Fact.create_eq_ok (mapError_eq_ok.mp hfact)
    rw [Item.evidence, hprovenance]
    exact (hsupported.deltas delta hdelta).registered

/-- All evidence of what an input contributes is in its registry. -/
theorem registered_of_mem_inputItems (h : inputItems input = .ok items) (hitem : item ∈ items) :
    Registered (registry input.evidenceRecords) item.evidence := by
  rcases (mem_inputItems h).mp hitem with hsource | hsource | hsource | hfact | hrelation | hflow
  · obtain ⟨_, -, items, hitems, hitem⟩ := hsource
    exact registered_of_sourceItems (fun _ => saidWith_of_openapiSemantics) hitems hitem
  · obtain ⟨_, -, items, hitems, hitem⟩ := hsource
    exact registered_of_sourceItems (fun _ => saidWith_of_routeSemantics) hitems hitem
  · obtain ⟨_, -, items, hitems, hitem⟩ := hsource
    exact registered_of_sourceItems (fun _ => saidWith_of_resourceSemantics) hitems hitem
  · obtain ⟨f, -, hvalid, rfl⟩ := contributedBy_facts.mp hfact
    exact (validateProvenance_eq_ok.mp hvalid).registered
  · obtain ⟨r, -, hvalid, rfl⟩ := contributedBy_relations.mp hrelation
    exact (validateProvenance_eq_ok.mp hvalid).registered
  · obtain ⟨_, -, items, hitems, hitem⟩ := hflow
    exact registered_of_flowItems hitems hitem

/-! ## Twins -/

theorem evidenceIds_of_conflictOf {f g : Fact} {conflict : TwinConflict} (h : conflictOf (f, g) = .ok conflict) :
    conflict.evidenceIds = sortedSet (f.provenance.evidenceIds ++ g.provenance.evidenceIds) := by
  rw [conflictOf, TwinConflict.create] at h
  split_ifs at h
  cases h
  rfl

omit [Sha256] in
theorem refers_iff {id : ContractId} : Refers twin id ↔
    id ∈ references twin.entities twin.relations twin.facts twin.transitions twin.conflicts := by
  simp only [references, List.mem_append, List.mem_flatMap]
  constructor
  · intro h
    cases h with
    | entity e he p hp hid =>
        refine .inl (.inl (.inl (.inl ⟨e, he, ?_⟩)))
        rw [entityEvidence, hp]
        exact hid
    | relation r hr hid => exact .inl (.inl (.inl (.inr ⟨r, hr, hid⟩)))
    | fact f hf hid => exact .inl (.inl (.inr ⟨f, hf, hid⟩))
    | transition t ht hid => exact .inl (.inr ⟨t, ht, hid⟩)
    | conflict c hc hid => exact .inr ⟨c, hc, hid⟩
  · rintro ((((⟨e, he, hid⟩ | ⟨r, hr, hid⟩) | ⟨f, hf, hid⟩) | ⟨t, ht, hid⟩) | ⟨c, hc, hid⟩)
    · rw [entityEvidence] at hid
      cases hp : e.provenance with
      | none =>
          rw [hp] at hid
          cases hid
      | some p =>
          rw [hp] at hid
          exact .entity e he p hp hid
    · exact .relation r hr hid
    · exact .fact f hf hid
    · exact .transition t ht hid
    · exact .conflict c hc hid

/-- Whatever a twin refers to is in the registry. -/
theorem Built.registered (h : Built input twin items c conflicts) {id : ContractId} (hid : Refers twin id) :
    ∃ r, (registry input.evidenceRecords).get? id = some r := by
  have hitem : ∀ {item : Item}, item ∈ items → id ∈ item.evidence →
      ∃ r, (registry input.evidenceRecords).get? id = some r :=
    fun hmem hid => registered_of_mem_inputItems h.contributed hmem id hid
  cases hid with
  | entity e he p hp hid =>
      rw [h.entities, mem_ordered, mem_entities_values h.collects] at he
      refine hitem he ?_
      rw [Item.evidence, entityEvidence, hp]
      exact hid
  | relation r hr hid =>
      rw [h.relations, mem_ordered, mem_relations_values h.collects] at hr
      exact hitem hr hid
  | fact f hf hid => exact hitem (h.mem_facts.mp hf) hid
  | transition t ht hid =>
      rw [h.transitions, mem_ordered] at ht
      exact hitem (h.collects.mem_of_values ht) hid
  | conflict conflict hconflict hid =>
      rw [h.conflicts, mem_ordered] at hconflict
      obtain ⟨f, hf, g, hg, -, -, -, -, hconflict⟩ :=
        (mem_findConflicts (nodup_facts_values h.collects) h.found).mp hconflict
      rw [evidenceIds_of_conflictOf hconflict, mem_sortedSet, List.mem_append] at hid
      rcases hid with hid | hid
      · exact hitem ((mem_facts_values h.collects).mp hf) hid
      · exact hitem ((mem_facts_values h.collects).mp hg) hid

theorem evidenceClosed_of_build (h : build input = .ok twin) : EvidenceClosed input twin := by
  obtain ⟨items, c, conflicts, hbuilt⟩ := built_of_build h
  have hexact : ∀ id, id ∈ twin.evidenceIds ↔ Refers twin id := fun id => by
    rw [refers_iff, twin.evidenceExact]
  refine ⟨hexact, fun id hid => ?_⟩
  obtain ⟨r, hr⟩ := hbuilt.registered ((hexact id).mp hid)
  exact ⟨r, get?_registry.mp hr⟩

/-- Rearranged inputs have the same outcome, and a twin refers to what its index has. -/
theorem rearranged_and_closed {input' : TwinBuildInput} (h : Rearranged input input') :
    SameOutcome (build input) (build input') ∧ ∀ twin, build input = .ok twin → EvidenceClosed input twin :=
  ⟨h.sameOutcome, fun _ => evidenceClosed_of_build⟩

/-- The observed cart, with its evidence the other way around. -/
def shopAround : TwinBuildInput :=
  { shop with evidenceRecords := [diffRecord, traceRecord], evidenceUnique := by decide }

omit [Sha256] in
theorem rearranged_and_closed_shop :
    SameOutcome (@build Sha2.sha256 shop) (@build Sha2.sha256 shopAround) ∧
      ∀ twin, @build Sha2.sha256 shop = .ok twin → EvidenceClosed shop twin :=
  @rearranged_and_closed Sha2.sha256 shop shopAround ⟨rfl, .swap _ _ _, .rfl, .rfl, .rfl, .rfl, .rfl, .rfl⟩

/-! ## A relation without facts -/

/-- Somebody was seen to own a cart. -/
def owning : Relation :=
  ⟨⟨"relation.owning", by decide⟩, ⟨"principal.alice", by decide⟩, .owns, ⟨"resource.cart", isContractId_cart⟩,
    (shownBy traceRecord).provenance, .one, .trustedRuntime, by decide, rfl⟩

omit [Sha256] in
theorem nothing_unique {α : Type} {f : α → ContractId} : (([] : List α).map f).Nodup := List.nodup_nil

def ownership : TwinBuildInput where
  twinId := ⟨"twin.ownership", by decide⟩
  evidenceRecords := [traceRecord]
  suppliedRelations := [owning]
  evidenceUnique := by decide
  documentsUnique := nothing_unique
  routesUnique := nothing_unique
  resourcesUnique := nothing_unique
  flowsUnique := nothing_unique
  factsUnique := nothing_unique
  relationsUnique := by decide

/-- Whether a twin has evidence but no facts, transitions or conflicts. -/
def hasOnlyEvidence : Except Exc SecuritySemanticTwin → Bool
  | .ok twin => twin.evidenceIds.contains traceRecord.evidenceId && twin.facts.isEmpty &&
      twin.transitions.isEmpty && twin.conflicts.isEmpty
  | .error _ => false

omit [Sha256] in
/-- The evidence of a relation is in the index. -/
theorem not_refersByClaims_ownership : ∃ twin, @build Sha2.sha256 ownership = .ok twin ∧
    ¬∀ id, id ∈ twin.evidenceIds ↔ RefersByClaims twin id := by
  have h : hasOnlyEvidence (@build Sha2.sha256 ownership) = true := by decide +kernel
  cases hbuild : @build Sha2.sha256 ownership with
  | error e =>
      rw [hbuild] at h
      cases h
  | ok twin =>
      rw [hbuild, hasOnlyEvidence, Bool.and_eq_true, Bool.and_eq_true, Bool.and_eq_true,
        List.isEmpty_iff, List.isEmpty_iff, List.isEmpty_iff, List.contains_iff_mem] at h
      obtain ⟨⟨⟨hevidence, hfacts⟩, htransitions⟩, hconflicts⟩ := h
      refine ⟨twin, rfl, fun hexact => ?_⟩
      rcases (hexact _).mp hevidence with ⟨f, hf, -⟩ | ⟨t, ht, -⟩ | ⟨c, hc, -⟩
      · rw [hfacts] at hf
        cases hf
      · rw [htransitions] at ht
        cases ht
      · rw [hconflicts] at hc
        cases hc

end StateWeaver.Twin
