import StateWeaver.Twin.Observed

/-!
# Rearranged inputs

Two inputs with the same records in different orders contribute the same records, in different orders. Records
of one kind are listed by their identifiers, the groups of facts by subject and predicate, and the evidence by
its identifiers, so the twins are the same.
-/

namespace StateWeaver.Twin

open Contracts

/-! ## Specification -/

/-- Inputs whose parts are rearranged. -/
structure Rearranged (input input' : TwinBuildInput) : Prop where
  twinId : input.twinId = input'.twinId
  evidenceRecords : input.evidenceRecords.Perm input'.evidenceRecords
  openapiDocuments : input.openapiDocuments.Perm input'.openapiDocuments
  sourceRoutes : input.sourceRoutes.Perm input'.sourceRoutes
  ormResources : input.ormResources.Perm input'.ormResources
  telemetryFlows : input.telemetryFlows.Perm input'.telemetryFlows
  suppliedFacts : input.suppliedFacts.Perm input'.suppliedFacts
  suppliedRelations : input.suppliedRelations.Perm input'.suppliedRelations

/-- Two builds with one twin, or two that fail. -/
def SameOutcome (a b : Except Exc SecuritySemanticTwin) : Prop :=
  (∃ twin, a = .ok twin ∧ b = .ok twin) ∨ ∃ e e', a = .error e ∧ b = .error e'

theorem Rearranged.symm {input input' : TwinBuildInput} (h : Rearranged input input') :
    Rearranged input' input :=
  ⟨h.twinId.symm, h.evidenceRecords.symm, h.openapiDocuments.symm, h.sourceRoutes.symm, h.ormResources.symm,
    h.telemetryFlows.symm, h.suppliedFacts.symm, h.suppliedRelations.symm⟩

theorem sameOutcome_of_imp {a b : Except Exc SecuritySemanticTwin} (h : ∀ twin, a = .ok twin → b = .ok twin)
    (h' : ∀ twin, b = .ok twin → a = .ok twin) : SameOutcome a b := by
  cases a with
  | ok twin => exact .inl ⟨twin, rfl, h twin rfl⟩
  | error e =>
      cases b with
      | ok twin => cases h' twin rfl
      | error e' => exact .inr ⟨e, e', rfl, rfl⟩

/-! ## Registries -/

/-- Registries with the same records. -/
def SameRecords (evidence evidence' : Registry) : Prop := ∀ id, evidence.get? id = evidence'.get? id

section

variable {evidence evidence' : Registry}

theorem Rearranged.sameRecords {input input' : TwinBuildInput} (h : Rearranged input input') :
    SameRecords (registry input.evidenceRecords) (registry input'.evidenceRecords) := by
  refine fun id => Option.ext fun r => ?_
  rw [get?_registry, get?_registry, h.evidenceRecords.mem_iff]

theorem recordsOf_congr (h : SameRecords evidence evidence') (ids : List ContractId) :
    recordsOf evidence ids = recordsOf evidence' ids := by
  simp only [recordsOf, h _]

theorem validateProvenance_congr (h : SameRecords evidence evidence') (p : Provenance) (source : Bool) :
    validateProvenance p evidence source = validateProvenance p evidence' source := by
  have hcontains : evidence.contains = evidence'.contains := funext fun id => by
    rw [Dict.contains, Dict.contains, h id]
  rw [validateProvenance, validateProvenance, hcontains, recordsOf_congr h]

theorem evidenceTime_congr (h : SameRecords evidence evidence') (p : Provenance) :
    evidenceTime p evidence = evidenceTime p evidence' := by
  simp only [evidenceTime, recordsOf_congr h]

variable [Sha256]

theorem documentItems_congr (h : SameRecords evidence evidence') :
    documentItems evidence = documentItems evidence' := by
  funext document
  simp only [documentItems, sourceItems, openapiSemantics, validateProvenance_congr h, evidenceTime_congr h]

theorem routeItems_congr (h : SameRecords evidence evidence') : routeItems evidence = routeItems evidence' := by
  funext route
  simp only [routeItems, sourceItems, routeSemantics, validateProvenance_congr h, evidenceTime_congr h]

theorem resourceItems_congr (h : SameRecords evidence evidence') :
    resourceItems evidence = resourceItems evidence' := by
  funext resource
  simp only [resourceItems, sourceItems, resourceSemantics, validateProvenance_congr h, evidenceTime_congr h]

omit [Sha256] in
theorem factItems_congr (h : SameRecords evidence evidence') : factItems evidence = factItems evidence' := by
  funext fact
  simp only [factItems, validateProvenance_congr h]

omit [Sha256] in
theorem relationItems_congr (h : SameRecords evidence evidence') :
    relationItems evidence = relationItems evidence' := by
  funext relation
  simp only [relationItems, validateProvenance_congr h]

omit [Sha256] in
theorem validateDelta_congr (h : SameRecords evidence evidence') :
    validateDelta evidence = validateDelta evidence' := by
  funext delta
  simp only [validateDelta, validateProvenance_congr h, recordsOf_congr h]

theorem flowItems_congr (h : SameRecords evidence evidence') : flowItems evidence = flowItems evidence' := by
  funext flow
  simp only [flowItems, transitionFromFlow, validateProvenance_congr h, recordsOf_congr h,
    validateDelta_congr h]

end

/-! ## Contributions -/

variable [Sha256] {input input' : TwinBuildInput} {items items' : List Item}

omit [Sha256] in
/-- A loop over a rearranged list contributes the same. -/
theorem mapM_of_rearranged {α : Type} {l l' : List α} {contributes contributes' : α → Except Exc (List Item)}
    {parts : List (List Item)} (hcontributes : contributes = contributes') (hperm : l.Perm l')
    (h : l.mapM contributes = .ok parts) :
    ∃ parts', l'.mapM contributes' = .ok parts' ∧ parts.flatten.Perm parts'.flatten := by
  subst hcontributes
  obtain ⟨parts', hparts', hperm'⟩ := Imp.mapM_of_perm hperm h
  exact ⟨parts', hparts', hperm'.flatten⟩

theorem inputItems_of_rearranged (h : Rearranged input input') (hitems : inputItems input = .ok items) :
    ∃ items', inputItems input' = .ok items' ∧ items.Perm items' := by
  obtain ⟨p⟩ := inputItems_eq_ok.mp hitems
  have hsame := h.sameRecords
  obtain ⟨documents, hdocuments, hperm₁⟩ :=
    mapM_of_rearranged (documentItems_congr hsame) h.openapiDocuments p.ofDocuments
  obtain ⟨routes, hroutes, hperm₂⟩ := mapM_of_rearranged (routeItems_congr hsame) h.sourceRoutes p.ofRoutes
  obtain ⟨resources, hresources, hperm₃⟩ :=
    mapM_of_rearranged (resourceItems_congr hsame) h.ormResources p.ofResources
  obtain ⟨facts, hfacts, hperm₄⟩ := mapM_of_rearranged (factItems_congr hsame) h.suppliedFacts p.ofFacts
  obtain ⟨relations, hrelations, hperm₅⟩ :=
    mapM_of_rearranged (relationItems_congr hsame) h.suppliedRelations p.ofRelations
  obtain ⟨flows, hflows, hperm₆⟩ := mapM_of_rearranged (flowItems_congr hsame) h.telemetryFlows p.ofFlows
  refine ⟨_, inputItems_eq_ok.mpr ⟨⟨documents, routes, resources, facts, relations, flows, hdocuments, hroutes,
    hresources, hfacts, hrelations, hflows, rfl⟩⟩, ?_⟩
  rw [p.all]
  exact ((((hperm₁.append hperm₂).append hperm₃).append hperm₄).append hperm₅).append hperm₆

/-! ## Lists in order -/

section

variable {α : Type} [Identified α] {l l' : List α}

omit [Sha256] in
/-- Records with distinct identifiers are listed in the same way. -/
theorem ordered_congr (h : (l.map Identified.identifier).Nodup) (h' : (l'.map Identified.identifier).Nodup)
    (hmem : ∀ a, a ∈ l ↔ a ∈ l') : ordered l = ordered l' := by
  have hirrefl : Std.Irrefl fun a b : α => Identified.identifier a < Identified.identifier b :=
    ⟨fun _ => lt_irrefl _⟩
  have hantisymm : Std.Antisymm fun a b : α => Identified.identifier a < Identified.identifier b :=
    ⟨fun _ _ hab hba => absurd hab (lt_asymm hba)⟩
  refine (pairwise_ordered h).eq_of_mem_iff (pairwise_ordered h') fun a => ?_
  rw [mem_ordered, mem_ordered, hmem]

omit [Sha256] in
theorem sortedSet_congr {ids ids' : List ContractId} (hmem : ∀ id, id ∈ ids ↔ id ∈ ids') :
    sortedSet ids = sortedSet ids' := by
  have hsorted : ∀ ids, (sortedSet ids).Pairwise (· ≤ ·) := fun ids => List.pairwise_insertionSort _ _
  refine List.Perm.eq_of_pairwise (fun _ _ _ _ => le_antisymm) (hsorted ids) (hsorted ids') ?_
  refine (List.perm_ext_iff_of_nodup (nodup_sortedSet ids) (nodup_sortedSet ids')).mpr fun id => ?_
  rw [mem_sortedSet, mem_sortedSet, hmem]

end

/-! ## Groups -/

variable {facts facts' : List Fact}

omit [Sha256] in
theorem searched_congr (h : (facts.map Fact.factId).Nodup) (h' : (facts'.map Fact.factId).Nodup)
    (hmem : ∀ f, f ∈ facts ↔ f ∈ facts') : searched facts = searched facts' := by
  have hirrefl : Std.Irrefl fun a b : (ContractId × Predicate) × List Fact => toLex a.1 < toLex b.1 :=
    ⟨fun _ => lt_irrefl _⟩
  have hantisymm : Std.Antisymm fun a b : (ContractId × Predicate) × List Fact => toLex a.1 < toLex b.1 :=
    ⟨fun _ _ hab hba => absurd hab (lt_asymm hba)⟩
  refine (pairwise_searched facts).eq_of_mem_iff (pairwise_searched facts') fun ⟨key, group⟩ => ?_
  have hnodup : ∀ {facts : List Fact}, (facts.map Fact.factId).Nodup → ((facts.filter fun f =>
      decide ((f.subject, f.predicate) = key)).map Fact.factId).Nodup :=
    fun h => h.sublist (List.filter_sublist.map _)
  rw [mem_searched, mem_searched, ordered_congr (hnodup h) (hnodup h') fun f => ?_]
  · simp only [hmem]
  · rw [List.mem_filter, List.mem_filter, hmem]

theorem findConflicts_congr (h : (facts.map Fact.factId).Nodup) (h' : (facts'.map Fact.factId).Nodup)
    (hmem : ∀ f, f ∈ facts ↔ f ∈ facts') {conflicts : List TwinConflict} :
    findConflicts facts = .ok conflicts ↔ findConflicts facts' = .ok conflicts := by
  rw [findConflicts_eq_ok, findConflicts_eq_ok, disagreements, disagreements, searched_congr h h' hmem]

/-! ## Twins -/

variable {twin : SecuritySemanticTwin} {c c' : Collections}

/-- The transitions that are collected are those of flows. -/
theorem mem_transitions_values (h : c.Collects items) (hitems : inputItems input = .ok items)
    {t : TransitionFragment} : t ∈ c.transitions.values ↔ .transition t ∈ items := by
  refine h.mem_values fun ht t' ht' hid _ => ?_
  obtain ⟨flow, hflow, -, rfl⟩ := transition_of_mem_inputItems hitems ht
  obtain ⟨flow', hflow', -, rfl⟩ := transition_of_mem_inputItems hitems ht'
  rw [List.inj_on_of_nodup_map input.flowsUnique hflow' hflow hid]

/-- What is made of collections does not depend on their order. -/
theorem build_of_rearranged (h : Rearranged input input') (hbuild : build input = .ok twin) :
    build input' = .ok twin := by
  obtain ⟨c, hcollect, hbuild⟩ := Imp.except_bind_eq_ok.mp hbuild
  obtain ⟨items, hitems, hc⟩ := collects_of_collect hcollect
  obtain ⟨items', hitems', hperm⟩ := inputItems_of_rearranged h hitems
  obtain ⟨c', hinsert⟩ := Collections.exists_insertAll (hc.compatible.perm hperm Item.Compatible.symm)
  have hcollect' : collect input' = .ok c' := collect_eq_ok.mpr ⟨items', hitems', hinsert⟩
  have hc' := Collections.collects_of_insertAll hinsert Collections.collects_empty
  rw [List.nil_append] at hc'
  have hentities : ∀ e, e ∈ c.entities.values ↔ e ∈ c'.entities.values := fun e => by
    rw [mem_entities_values hc, mem_entities_values hc', hperm.mem_iff]
  have hrelations : ∀ r, r ∈ c.relations.values ↔ r ∈ c'.relations.values := fun r => by
    rw [mem_relations_values hc, mem_relations_values hc', hperm.mem_iff]
  have hfacts : ∀ f, f ∈ c.facts.values ↔ f ∈ c'.facts.values := fun f => by
    rw [mem_facts_values hc, mem_facts_values hc', hperm.mem_iff]
  have htransitions : ∀ t, t ∈ c.transitions.values ↔ t ∈ c'.transitions.values := fun t => by
    rw [mem_transitions_values hc hitems, mem_transitions_values hc' hitems', hperm.mem_iff]
  obtain ⟨conflicts, hfound, hcreate⟩ := Imp.except_bind_eq_ok.mp hbuild
  rw [findConflicts_congr (nodup_facts_values hc) (nodup_facts_values hc') hfacts] at hfound
  refine Imp.except_bind_eq_ok.mpr ⟨c', hcollect', Imp.except_bind_eq_ok.mpr ⟨conflicts, hfound, ?_⟩⟩
  have hreferences : ∀ id, id ∈ references c.entities.values c.relations.values c.facts.values
      c.transitions.values conflicts ↔ id ∈ references c'.entities.values c'.relations.values
      c'.facts.values c'.transitions.values conflicts := fun id => by
    simp only [references, List.mem_append, List.mem_flatMap, hentities, hrelations, hfacts, htransitions]
  rw [← hcreate, h.twinId, ordered_congr (nodup_entities_values hc) (nodup_entities_values hc') hentities,
    ordered_congr (nodup_relations_values hc) (nodup_relations_values hc') hrelations,
    ordered_congr (nodup_facts_values hc) (nodup_facts_values hc') hfacts,
    ordered_congr (nodup_transitions_values hc) (nodup_transitions_values hc') htransitions, sortedSet_congr hreferences]

/-- Rearranged inputs have one twin, or none of them has one. -/
theorem Rearranged.sameOutcome (h : Rearranged input input') : SameOutcome (build input) (build input') :=
  sameOutcome_of_imp (fun _ => build_of_rearranged h) fun _ => build_of_rearranged h.symm

end StateWeaver.Twin
