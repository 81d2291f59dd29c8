import StateWeaver.Twin.Evidence

/-!
# When a twin can be built

A build succeeds if all its sources, facts, relations and flows are supported, no two records clash, and what
it derives is of the stricter types that it needs: the last part of the path of each delta is a predicate, and
two facts that disagree have evidence between them.
-/

namespace StateWeaver.Twin

open Contracts

variable [Sha256]

/-! ## Specification -/

/-- An operation of a document that the builder knows. -/
structure SupportedOperation (operation : String × PlainJson) : Prop where
  method : operation.1.toLower ∈ openapiMethods
  fields : ∃ fields, operation.2 = .obj fields ∧ fields.map Prod.fst ⊆ openapiOperationFields ∧
    ∃ operationId, operationIdOf fields = .ok operationId

/-- A relative path with operations. -/
structure SupportedPath (operations : String × PlainJson) : Prop where
  relative : operations.1.toList.head? = some '/'
  operations : ∃ methods, operations.2 = .obj methods ∧ ∀ operation ∈ methods, SupportedOperation operation

structure SupportedDocument (document : OpenApiIngestion) : Prop where
  fields : document.document.map Prod.fst ⊆ openapiTopLevelFields
  version : isText (document.document.lookup "openapi") = true
  paths : ∃ paths, document.document.lookup "paths" = some (.obj paths) ∧ paths ≠ [] ∧
    ∀ operations ∈ paths, SupportedPath operations

/-- Every part of an input has the evidence and the shape that the builder asks for. -/
structure Supported (input : TwinBuildInput) : Prop where
  documents : ∀ d ∈ input.openapiDocuments,
    ValidProvenance (registry input.evidenceRecords) true d.declared.provenance ∧ SupportedDocument d
  routes : ∀ r ∈ input.sourceRoutes,
    ValidProvenance (registry input.evidenceRecords) true r.declared.provenance
  resources : ∀ r ∈ input.ormResources,
    ValidProvenance (registry input.evidenceRecords) true r.declared.provenance
  facts : ∀ f ∈ input.suppliedFacts, ValidProvenance (registry input.evidenceRecords) false f.provenance
  relations : ∀ r ∈ input.suppliedRelations,
    ValidProvenance (registry input.evidenceRecords) false r.provenance
  flows : ∀ flow ∈ input.telemetryFlows, SupportedFlow (registry input.evidenceRecords) flow

/-- A document has a method of a path. -/
def HasOperation (document : OpenApiIngestion) (path method : String) : Prop :=
  ∃ paths methods fields, document.document.lookup "paths" = some (.obj paths) ∧
    (path, .obj methods) ∈ paths ∧ (method, fields) ∈ methods

/-- No two records have one identifier, other than records that are written alike, and no two pairs of facts
have one for their conflicts. -/
structure Unclashing (input : TwinBuildInput) : Prop where
  documents : ∀ d ∈ input.openapiDocuments, ∀ path method, HasOperation d path method →
    endpointId [d.documentId.val, path, method.toLower] ≠ d.serviceId
  routes : ∀ r ∈ input.sourceRoutes, ∀ method ∈ r.methods, endpointId [r.routeId.val, method.value] ≠ r.serviceId
  resources : ∀ r ∈ input.ormResources, r.resourceId ≠ r.serviceId
  records : ∀ items, inputItems input = .ok items → items.Pairwise Item.Compatible
  conflicts : ∀ items, inputItems input = .ok items → ∀ f g f' g' : Fact, .fact f ∈ items → .fact g ∈ items →
    .fact f' ∈ items → .fact g' ∈ items →
    conflictId [f.factId.val, g.factId.val] = conflictId [f'.factId.val, g'.factId.val] →
    f.factId = f'.factId ∧ g.factId = g'.factId

/-- What is derived from an input is of the stricter types that it needs. -/
structure Derivable (input : TwinBuildInput) : Prop where
  predicates : ∀ flow ∈ input.telemetryFlows, ∀ delta ∈ flow.deltas,
    isPredicate (lastSegment delta.effect.path) = true
  evidenced : ∀ f ∈ input.suppliedFacts, ∀ g ∈ input.suppliedFacts, (Claim.ofFact f).Meet (.ofFact g) →
    f.object.val.eq g.object.val = false → f.provenance.evidenceIds ≠ [] ∨ g.provenance.evidenceIds ≠ []

/-- Every disagreement of two facts is a conflict. -/
def RecordsDisagreements (twin : SecuritySemanticTwin) : Prop :=
  ∀ f ∈ twin.facts, ∀ g ∈ twin.facts, (Claim.ofFact f).Meet (.ofFact g) →
    f.object.val.eq g.object.val = false → Records twin f g

/-! ## Sources -/

section

variable {evidence : Registry} {provenance : Provenance} {serviceId : ContractId}

omit [Sha256] in
theorem exists_evidenceTime (h : Registered evidence provenance.evidenceIds)
    (hne : provenance.evidenceIds ≠ []) : ∃ at_, evidenceTime provenance evidence = .ok at_ := by
  obtain ⟨records, hrecords⟩ := exists_recordsOf.mpr h
  have hlength := Imp.length_mapM hrecords
  cases hmin : (records.map fun record => record.createdAt.microseconds).min? with
  | some earliest =>
      refine ⟨⟨earliest⟩, Imp.except_bind_eq_ok.mpr ⟨records, hrecords, ?_⟩⟩
      rw [hmin]
      rfl
  | none =>
      rw [List.min?_eq_none_iff, List.map_eq_nil_iff] at hmin
      rw [hmin, List.length_nil] at hlength
      exact absurd (List.length_eq_zero_iff.mp hlength.symm) hne

omit [Sha256] in
theorem validateProvenanceTaint_declared (h : provenance.kind = .declared) :
    validateProvenanceTaint provenance .trustedSource = .ok () := by
  rw [validateProvenanceTaint, h]
  rfl

omit [Sha256] in
theorem exists_sourceRelation {id subject : ContractId} (hdistinct : subject ≠ serviceId)
    (hkind : provenance.kind = .declared) : ∃ r, sourceRelation id subject serviceId provenance = .ok r := by
  exact (Relation.exists_create hdistinct (validateProvenanceTaint_declared hkind)).imp
    fun r hr => mapError_eq_ok.mpr hr

omit [Sha256] in
theorem exists_sourceFact {id subject : ContractId} (predicate : String) {object : String} {at_ : Instant}
    (hpredicate : isPredicate (Constrained.strip predicate) = true) (hkind : provenance.kind = .declared) :
    ∃ f, sourceFact id subject predicate object at_ provenance = .ok f := by
  exact (Fact.exists_create hpredicate (validateProvenanceTaint_declared hkind)).imp
    fun f hf => mapError_eq_ok.mpr hf

theorem exists_endpointSemantics {parts : List String} {label : String} (predicate : String) {object : String}
    {at_ : Instant} (hdistinct : endpointId parts ≠ serviceId)
    (hpredicate : isPredicate (Constrained.strip predicate) = true)
    (hkind : provenance.kind = .declared) :
    ∃ s, endpointSemantics parts label serviceId predicate object at_ provenance = .ok s := by
  obtain ⟨r, hr⟩ := exists_sourceRelation hdistinct hkind
  obtain ⟨f, hf⟩ := exists_sourceFact predicate hpredicate hkind
  exact ⟨_, Imp.except_bind_eq_ok.mpr ⟨r, hr, Imp.except_bind_eq_ok.mpr ⟨f, hf, rfl⟩⟩⟩

theorem exists_operationSemantics {document : OpenApiIngestion} {at_ : Instant} {path : String}
    {operation : String × PlainJson} (h : SupportedOperation operation)
    (hdistinct : endpointId [document.documentId.val, path, operation.1.toLower] ≠ document.serviceId) :
    ∃ s, operationSemantics document at_ path operation = .ok s := by
  obtain ⟨fields, hfields, hsubset, operationId, hoperationId⟩ := h.fields
  obtain ⟨method, value⟩ := operation
  obtain rfl : value = .obj fields := hfields
  obtain ⟨s, hs⟩ := exists_endpointSemantics "route_method" hdistinct (by decide +kernel) document.declared.kind
  exact ⟨s, Imp.check_bind_eq_ok.mpr ⟨Imp.require_eq_ok.mpr h.method, Imp.check_bind_eq_ok.mpr
    ⟨Imp.require_eq_ok.mpr hsubset, Imp.except_bind_eq_ok.mpr ⟨operationId, hoperationId, hs⟩⟩⟩⟩

theorem exists_openapiSemantics {document : OpenApiIngestion} (h : SupportedDocument document)
    (hregistered : Registered evidence document.declared.provenance.evidenceIds)
    (hdistinct : ∀ path method, HasOperation document path method →
      endpointId [document.documentId.val, path, method.toLower] ≠ document.serviceId) :
    ∃ said, openapiSemantics document evidence = .ok said := by
  obtain ⟨paths, hpaths, hne, hsupported⟩ := h.paths
  obtain ⟨at_, hat⟩ := exists_evidenceTime hregistered document.declared.evidenced
  have hsemantics : ∀ operations ∈ sortedItems paths, ∃ said, pathSemantics document at_ operations = .ok said := by
    intro operations hoperations
    rw [sortedItems, List.mem_insertionSort] at hoperations
    obtain ⟨hrelative, methods, hmethods, hoperation⟩ := hsupported operations hoperations
    obtain ⟨path, value⟩ := operations
    obtain rfl : value = .obj methods := hmethods
    dsimp only [pathSemantics]
    rw [if_pos hrelative]
    refine Imp.exists_mapM.mpr fun operation hmem => ?_
    rw [sortedItems, List.mem_insertionSort] at hmem
    exact exists_operationSemantics (hoperation operation hmem)
      (hdistinct _ _ ⟨paths, methods, operation.2, hpaths, hoperations, hmem⟩)
  obtain ⟨results, hresults⟩ := Imp.exists_mapM.mpr hsemantics
  refine ⟨results.flatten, Imp.check_bind_eq_ok.mpr ⟨Imp.require_eq_ok.mpr ⟨h.fields, h.version⟩, ?_⟩⟩
  cases paths with
  | nil => exact absurd rfl hne
  | cons first rest =>
      rw [hpaths]
      exact Imp.except_bind_eq_ok.mpr ⟨at_, hat, Imp.except_bind_eq_ok.mpr ⟨results, hresults, rfl⟩⟩

theorem exists_routeSemantics {route : SourceRoute}
    (hregistered : Registered evidence route.declared.provenance.evidenceIds)
    (hdistinct : ∀ method ∈ route.methods, endpointId [route.routeId.val, method.value] ≠ route.serviceId) :
    ∃ said, routeSemantics route evidence = .ok said := by
  obtain ⟨at_, hat⟩ := exists_evidenceTime hregistered route.declared.evidenced
  obtain ⟨said, hsaid⟩ := Imp.exists_mapM.mpr fun method hmethod => exists_endpointSemantics "route_path"
    (hdistinct method ((List.mem_insertionSort fun a b : HttpMethod => a.value ≤ b.value).mp hmethod))
    (by decide +kernel) route.declared.kind
  exact ⟨said, Imp.except_bind_eq_ok.mpr ⟨at_, hat, hsaid⟩⟩

theorem exists_resourceSemantics {resource : OrmResource}
    (hregistered : Registered evidence resource.declared.provenance.evidenceIds)
    (hdistinct : resource.resourceId ≠ resource.serviceId) :
    ∃ said, resourceSemantics resource evidence = .ok said := by
  have hkind := resource.declared.kind
  obtain ⟨at_, hat⟩ := exists_evidenceTime hregistered resource.declared.evidenced
  obtain ⟨relation, hrelation⟩ := exists_sourceRelation hdistinct hkind
  obtain ⟨table, htable⟩ := exists_sourceFact "table_name" (by decide +kernel) hkind
  obtain ⟨tenant, htenant⟩ := exists_sourceFact "tenant_field" (by decide +kernel) hkind
  obtain ⟨owner, howner⟩ := Imp.exists_mapM.mpr fun field (_ : field ∈ resource.ownerField.toList) =>
    exists_sourceFact "owner_field" (by decide +kernel) hkind
  exact ⟨_, Imp.except_bind_eq_ok.mpr ⟨at_, hat, Imp.except_bind_eq_ok.mpr ⟨relation, hrelation,
    Imp.except_bind_eq_ok.mpr ⟨table, htable, Imp.except_bind_eq_ok.mpr ⟨tenant, htenant,
      Imp.except_bind_eq_ok.mpr ⟨owner, howner, rfl⟩⟩⟩⟩⟩⟩

omit [Sha256] in
theorem exists_sourceItems {semantics : Except Exc (List Semantics)}
    (hvalid : ValidProvenance evidence true provenance) (hsaid : ∃ said, semantics = .ok said) :
    ∃ items, sourceItems evidence provenance serviceId semantics = .ok items := by
  obtain ⟨said, hsaid⟩ := hsaid
  exact ⟨_, Imp.check_bind_eq_ok.mpr ⟨validateProvenance_eq_ok.mpr hvalid,
    Imp.except_bind_eq_ok.mpr ⟨said, hsaid, rfl⟩⟩⟩

/-! ## Flows -/

theorem exists_deltaFact {delta : StateDelta} (h : isPredicate (lastSegment delta.effect.path) = true) :
    ∃ f, deltaFact delta = .ok f := by
  refine (Fact.exists_create ?_ ?_).imp fun f hf => mapError_eq_ok.mpr hf
  · rw [strip_lastSegment]
    exact h
  · rw [validateProvenanceTaint, delta.observed.kind]
    rfl

theorem exists_flowItems {flow : TelemetryFlow} (h : SupportedFlow evidence flow)
    (hpredicates : ∀ delta ∈ flow.deltas, isPredicate (lastSegment delta.effect.path) = true) :
    ∃ items, flowItems evidence flow = .ok items := by
  obtain ⟨facts, hfacts⟩ := Imp.exists_mapM.mpr fun delta hdelta => exists_deltaFact (hpredicates delta hdelta)
  exact ⟨_, Imp.except_bind_eq_ok.mpr ⟨_, transitionFromFlow_iff.mpr ⟨h, rfl, hfacts⟩, rfl⟩⟩

end

/-! ## Contributions -/

variable {input : TwinBuildInput} {items : List Item} {c : Collections} {facts : List Fact}

theorem exists_inputItems (hsupported : Supported input) (hunclashing : Unclashing input)
    (hderivable : Derivable input) : ∃ items, inputItems input = .ok items := by
  obtain ⟨documents, hdocuments⟩ := Imp.exists_mapM.mpr fun d hd =>
    exists_sourceItems (hsupported.documents d hd).1 (exists_openapiSemantics (hsupported.documents d hd).2
      (hsupported.documents d hd).1.registered (hunclashing.documents d hd))
  obtain ⟨routes, hroutes⟩ := Imp.exists_mapM.mpr fun r hr => exists_sourceItems (hsupported.routes r hr)
    (exists_routeSemantics (hsupported.routes r hr).registered (hunclashing.routes r hr))
  obtain ⟨resources, hresources⟩ := Imp.exists_mapM.mpr fun r hr => exists_sourceItems (hsupported.resources r hr)
    (exists_resourceSemantics (hsupported.resources r hr).registered (hunclashing.resources r hr))
  obtain ⟨facts, hfacts⟩ := Imp.exists_mapM.mpr fun f hf => (⟨_, Imp.check_bind_eq_ok.mpr
    ⟨validateProvenance_eq_ok.mpr (hsupported.facts f hf), rfl⟩⟩ : ∃ items, factItems _ f = .ok items)
  obtain ⟨relations, hrelations⟩ := Imp.exists_mapM.mpr fun r hr => (⟨_, Imp.check_bind_eq_ok.mpr
    ⟨validateProvenance_eq_ok.mpr (hsupported.relations r hr), rfl⟩⟩ : ∃ items, relationItems _ r = .ok items)
  obtain ⟨flows, hflows⟩ := Imp.exists_mapM.mpr fun flow hflow =>
    exists_flowItems (hsupported.flows flow hflow) (hderivable.predicates flow hflow)
  exact ⟨_, inputItems_eq_ok.mpr ⟨⟨documents, routes, resources, facts, relations, flows, hdocuments, hroutes,
    hresources, hfacts, hrelations, hflows, rfl⟩⟩⟩

/-- A fact without evidence is supplied. -/
theorem supplied_of_evidence_nil (h : inputItems input = .ok items) {f : Fact} (hf : .fact f ∈ items)
    (hnil : f.provenance.evidenceIds = []) : f ∈ input.suppliedFacts := by
  rcases fact_of_mem_inputItems h hf with hf | ⟨flow, hflow, delta, hdelta, hfact⟩ | ⟨-, hne⟩
  · exact hf
  · obtain ⟨-, -, -, -, -, -, hprovenance⟩ := Fact.create_eq_ok (mapError_eq_ok.mp hfact)
    rw [hprovenance] at hnil
    exact absurd hnil (delta.observed.provenance.supported (.inl delta.observed.kind))
  · exact absurd hnil hne

/-! ## Conflicts -/

omit [Sha256] in
theorem nodup_pairs {α : Type} {l : List α} (h : l.Nodup) : (pairs l).Nodup ∧ ∀ e ∈ pairs l, e.1 ∈ l := by
  induction l with
  | nil => exact ⟨.nil, nofun⟩
  | cons a l ih =>
      obtain ⟨ha, hl⟩ := List.nodup_cons.mp h
      obtain ⟨hnodup, hmem⟩ := ih hl
      refine ⟨List.nodup_append.mpr ⟨hl.map fun b b' heq => (Prod.mk.inj heq).2, hnodup, ?_⟩, fun e he => ?_⟩
      · rintro e he e' he' rfl
        obtain ⟨b, -, rfl⟩ := List.mem_map.mp he
        exact ha (hmem _ he')
      · rcases List.mem_append.mp he with he | he
        · obtain ⟨b, -, rfl⟩ := List.mem_map.mp he
          exact List.mem_cons_self
        · exact List.mem_cons_of_mem _ (hmem e he)

omit [Sha256] in
/-- No two facts disagree twice. -/
theorem nodup_disagreements (hids : (facts.map Fact.factId).Nodup) : (disagreements facts).Nodup := by
  refine List.nodup_flatMap.mpr ⟨fun ⟨key, group⟩ hgroup => ?_, (pairwise_searched facts).imp_of_mem ?_⟩
  · obtain ⟨-, rfl⟩ := mem_searched.mp hgroup
    have hfacts : facts.Nodup := List.Nodup.of_map _ hids
    exact (nodup_pairs ((List.perm_insertionSort _ _).nodup_iff.mpr (hfacts.filter _))).1.filter _
  · rintro ⟨key, group⟩ ⟨key', group'⟩ hgroup hgroup' hlt ⟨f, g⟩ hfg hfg'
    obtain ⟨⟨-, hkey⟩, -⟩ := (mem_pairs_searched hids hgroup).mp (List.mem_filter.mp hfg).1
    obtain ⟨⟨-, hkey'⟩, -⟩ := (mem_pairs_searched hids hgroup').mp (List.mem_filter.mp hfg').1
    rw [← hkey, ← hkey'] at hlt
    exact lt_irrefl _ hlt

/-- Two facts that disagree have a conflict if they have evidence. -/
theorem exists_conflict {f g : Fact} (hlt : f.factId < g.factId) (hdisagree : disagree (f, g) = true)
    (hevidence : f.provenance.evidenceIds ≠ [] ∨ g.provenance.evidenceIds ≠ []) :
    ∃ conflict, conflictOf (f, g) = .ok conflict := by
  have hdifferent := (disagree_eq_true.mp hdisagree).1
  have hne : sortedSet (f.provenance.evidenceIds ++ g.provenance.evidenceIds) ≠ [] := by
    rcases hevidence with hne | hne
    · obtain ⟨id, hid⟩ := List.exists_mem_of_ne_nil _ hne
      exact List.ne_nil_of_mem (mem_sortedSet.mpr (List.mem_append_left _ hid))
    · obtain ⟨id, hid⟩ := List.exists_mem_of_ne_nil _ hne
      exact List.ne_nil_of_mem (mem_sortedSet.mpr (List.mem_append_right _ hid))
  rw [conflictOf, TwinConflict.create, dif_neg, dif_neg]
  · exact ⟨_, rfl⟩
  · rintro (hnil | hnodup)
    · exact hne hnil
    · exact hnodup (nodup_sortedSet _)
  · rintro (hid | hequal)
    · exact ne_of_lt hlt hid
    · rw [hequal] at hdifferent
      cases hdifferent

theorem conflictId_of_conflictOf {facts : Fact × Fact} {conflict : TwinConflict}
    (h : conflictOf facts = .ok conflict) :
    conflict.conflictId = conflictId [facts.1.factId.val, facts.2.factId.val] := by
  rw [conflictOf, TwinConflict.create] at h
  split_ifs at h
  cases h
  rfl

/-- The facts that are collected have conflicts, with distinct identifiers. -/
theorem exists_findConflicts (hunclashing : Unclashing input) (hderivable : Derivable input)
    (hitems : inputItems input = .ok items) (hc : c.Collects items) : ∃ conflicts,
      findConflicts c.facts.values = .ok conflicts ∧ (conflicts.map TwinConflict.conflictId).Nodup := by
  have hids := nodup_facts_values hc
  have hitem : ∀ {f : Fact}, f ∈ c.facts.values → .fact f ∈ items := fun hf => (mem_facts_values hc).mp hf
  have hall : ∀ e ∈ disagreements c.facts.values, ∃ conflict, conflictOf e = .ok conflict := by
    rintro ⟨f, g⟩ he
    obtain ⟨hf, hg, hlt, hsubject, hpredicate, hdisagree⟩ := (mem_disagreements hids).mp he
    obtain ⟨hdifferent, hoverlap⟩ := disagree_eq_true.mp hdisagree
    refine exists_conflict hlt hdisagree (or_iff_not_imp_left.mpr fun hf' hg' => ?_)
    -- facts without evidence are supplied
    have hmeet : (Claim.ofFact f).Meet (.ofFact g) :=
      ⟨hsubject, congrArg Constrained.val hpredicate, intervalsOverlap_iff.mp hoverlap⟩
    have hf' := not_not.mp hf'
    rcases hderivable.evidenced f (supplied_of_evidence_nil hitems (hitem hf) hf') g
      (supplied_of_evidence_nil hitems (hitem hg) hg') hmeet hdifferent with hne | hne
    · exact hne hf'
    · exact hne hg'
  obtain ⟨conflicts, hconflicts⟩ := Imp.exists_mapM.mpr hall
  refine ⟨conflicts, findConflicts_eq_ok.mpr hconflicts, ?_⟩
  rw [Imp.map_of_mapM hconflicts fun _ _ => conflictId_of_conflictOf]
  have hone : ∀ {f g : Fact}, f ∈ c.facts.values → g ∈ c.facts.values → f.factId = g.factId → f = g :=
    fun hf hg => List.inj_on_of_nodup_map hids hf hg
  refine List.Nodup.map_on ?_ (nodup_disagreements hids)
  intro e he e' he' heq
  obtain ⟨hf, hg, -⟩ := (mem_disagreements hids).mp he
  obtain ⟨hf', hg', -⟩ := (mem_disagreements hids).mp he'
  obtain ⟨hid, hid'⟩ := hunclashing.conflicts items hitems _ _ _ _ (hitem hf) (hitem hg) (hitem hf') (hitem hg') heq
  exact Prod.ext (hone hf hf' hid) (hone hg hg' hid')

/-! ## Twins -/

omit [Sha256] in
theorem nodup_ordered {α : Type} [Identified α] {l : List α} (h : (l.map Identified.identifier).Nodup) :
    ((ordered l).map Identified.identifier).Nodup :=
  ((List.perm_insertionSort _ l).map _).nodup_iff.mpr h

theorem exists_build (hsupported : Supported input) (hunclashing : Unclashing input)
    (hderivable : Derivable input) : ∃ twin, build input = .ok twin := by
  obtain ⟨items, hitems⟩ := exists_inputItems hsupported hunclashing hderivable
  obtain ⟨c, hinsert⟩ := Collections.exists_insertAll (hunclashing.records items hitems)
  have hc := Collections.collects_of_insertAll hinsert Collections.collects_empty
  rw [List.nil_append] at hc
  obtain ⟨conflicts, hconflicts, hids⟩ := exists_findConflicts hunclashing hderivable hitems hc
  have hexact : ∀ id, id ∈ references (ordered c.entities.values) (ordered c.relations.values)
      (ordered c.facts.values) (ordered c.transitions.values) (ordered conflicts) ↔
      id ∈ sortedSet (references c.entities.values c.relations.values c.facts.values c.transitions.values
        conflicts) := fun id => by
    simp only [mem_sortedSet, references, List.mem_append, List.mem_flatMap, mem_ordered]
  have hcreate : ∃ twin, SecuritySemanticTwin.create input.twinId (ordered c.entities.values)
      (ordered c.relations.values) (ordered c.facts.values) (ordered c.transitions.values) (ordered conflicts)
      (sortedSet (references c.entities.values c.relations.values c.facts.values c.transitions.values
        conflicts)) = .ok twin := by
    rw [SecuritySemanticTwin.create, dif_pos, dif_pos, dif_pos, dif_pos, dif_pos, dif_pos, dif_pos]
    · exact ⟨_, rfl⟩
    · exact ⟨fun id => (hexact id).mp, fun id => (hexact id).mpr⟩
    · exact nodup_sortedSet _
    · exact nodup_ordered hids
    · exact nodup_ordered (nodup_transitions_values hc)
    · exact nodup_ordered (nodup_facts_values hc)
    · exact nodup_ordered (nodup_relations_values hc)
    · exact nodup_ordered (nodup_entities_values hc)
  obtain ⟨twin, hcreate⟩ := hcreate
  exact ⟨twin, Imp.except_bind_eq_ok.mpr ⟨c, collect_eq_ok.mpr ⟨items, hitems, hinsert⟩,
    Imp.except_bind_eq_ok.mpr ⟨conflicts, hconflicts, hcreate⟩⟩⟩

/-- A supported input without clashes has a twin, which records every disagreement. -/
theorem build_total (hsupported : Supported input) (hunclashing : Unclashing input)
    (hderivable : Derivable input) : ∃ twin, build input = .ok twin ∧ RecordsDisagreements twin := by
  obtain ⟨twin, htwin⟩ := exists_build hsupported hunclashing hderivable
  obtain ⟨items, c, conflicts, hbuilt⟩ := built_of_build htwin
  exact ⟨twin, htwin, fun f hf g hg hmeet hdifferent => (hbuilt.records_iff hf hg).mpr ⟨hmeet, hdifferent⟩⟩

omit [Sha256] in
theorem isContractId_search : isContractId "feature.search" = true := by decide

omit [Sha256] in
theorem isPredicate_enabled : isPredicate "enabled" = true := by decide

omit [Sha256] in
theorem unbounded_forward : ∀ t ∈ (none : Option Instant), (⟨0⟩ : Instant).microseconds < t.microseconds :=
  fun _ h => by cases h

omit [Sha256] in
theorem shown_tainted :
    validateProvenanceTaint (shownBy traceRecord).provenance .trustedRuntime = .ok () := rfl

/-- A feature that was seen with a value. -/
def seen (id : String) (hid : isContractId id = true) (object : JsonScalar) : Fact :=
  ⟨⟨id, hid⟩, ⟨"feature.search", isContractId_search⟩, ⟨"enabled", isPredicate_enabled⟩, object, ⟨0⟩, none,
    (shownBy traceRecord).provenance, .one, .trustedRuntime, unbounded_forward, shown_tainted⟩

def two : JsonScalar := ⟨.int 2, rfl⟩

def seenOne : Fact := seen "fact.one" (by decide) one

def seenTwo : Fact := seen "fact.two" (by decide) two

omit [Sha256] in
theorem twoRecords_unique : ([traceRecord, diffRecord].map EvidenceRecord.evidenceId).Nodup := by decide

/-- An input with evidence and facts. -/
def TwinBuildInput.ofEvidence (facts : List Fact) (h : (facts.map Fact.factId).Nodup) : TwinBuildInput :=
  { TwinBuildInput.ofFacts facts h with
    evidenceRecords := [traceRecord, diffRecord]
    evidenceUnique := twoRecords_unique }

def sightings : TwinBuildInput := .ofEvidence [seenOne, seenTwo] (by decide)

omit [Sha256] in
theorem factItems_eq_ok {evidence : Registry} {f : Fact} {items : List Item}
    (h : factItems evidence f = .ok items) : items = [.fact f] := by
  obtain ⟨-, h⟩ := Imp.check_bind_eq_ok.mp h
  exact (Except.ok.inj h).symm

/-- What an input of two facts contributes. -/
theorem inputItems_ofEvidence {f g : Fact} (h : ([f, g].map Fact.factId).Nodup)
    (hitems : inputItems (.ofEvidence [f, g] h) = .ok items) : items = [.fact f, .fact g] := by
  obtain ⟨p⟩ := inputItems_eq_ok.mp hitems
  obtain ⟨first, hfirst, rest, hrest, hfacts⟩ := Imp.mapM_cons_eq_ok.mp p.ofFacts
  obtain ⟨second, hsecond, none, hnone, rfl⟩ := Imp.mapM_cons_eq_ok.mp hrest
  rw [p.all, ← Except.ok.inj p.ofDocuments, ← Except.ok.inj p.ofRoutes, ← Except.ok.inj p.ofResources,
    ← Except.ok.inj p.ofRelations, ← Except.ok.inj p.ofFlows, hfacts, ← Except.ok.inj hnone,
    factItems_eq_ok hfirst, factItems_eq_ok hsecond]
  rfl

omit [Sha256] in
/-- An input of two facts does not clash. -/
theorem unclashing_ofEvidence {f g : Fact} (h : ([f, g].map Fact.factId).Nodup)
    (hids : ∀ a ∈ [f.factId, g.factId], ∀ b ∈ [f.factId, g.factId], ∀ a' ∈ [f.factId, g.factId],
      ∀ b' ∈ [f.factId, g.factId], @conflictId Sha2.sha256 [a.val, b.val] =
        @conflictId Sha2.sha256 [a'.val, b'.val] → a = a' ∧ b = b') :
    @Unclashing Sha2.sha256 (.ofEvidence [f, g] h) := by
  let _ := Sha2.sha256
  refine ⟨List.forall_mem_nil _, List.forall_mem_nil _, List.forall_mem_nil _, fun items hitems => ?_, fun items hitems a b a' b' ha hb ha' hb' heq => ?_⟩
  · rw [inputItems_ofEvidence h hitems]
    refine List.pairwise_pair.mpr fun hkey => ?_
    exact absurd (Prod.mk.inj hkey).2 (List.pairwise_pair.mp h)
  · rw [inputItems_ofEvidence h hitems] at ha hb ha' hb'
    have hmem : ∀ {a : Fact}, Item.fact a ∈ [Item.fact f, .fact g] → a.factId ∈ [f.factId, g.factId] := by
      intro a ha
      rcases List.mem_pair.mp ha with heq | heq
      · rw [Item.fact.inj heq]
        exact List.mem_cons_self
      · rw [Item.fact.inj heq]
        exact List.mem_cons_of_mem _ List.mem_cons_self
    exact hids _ (hmem ha) _ (hmem hb) _ (hmem ha') _ (hmem hb') heq

omit [Sha256] in
theorem conflictId_sightings : ∀ a ∈ [seenOne.factId, seenTwo.factId], ∀ b ∈ [seenOne.factId, seenTwo.factId],
    ∀ a' ∈ [seenOne.factId, seenTwo.factId], ∀ b' ∈ [seenOne.factId, seenTwo.factId],
      @conflictId Sha2.sha256 [a.val, b.val] = @conflictId Sha2.sha256 [a'.val, b'.val] → a = a' ∧ b = b' := by
  decide +kernel

omit [Sha256] in
theorem validateProvenance_sightings : ∀ f ∈ [seenOne, seenTwo],
    validateProvenance f.provenance (registry [traceRecord, diffRecord]) false = .ok () := by
  decide +kernel

omit [Sha256] in
theorem build_total_sightings :
    ∃ twin, @build Sha2.sha256 sightings = .ok twin ∧ RecordsDisagreements twin := by
  have hsupported : Supported sightings := ⟨List.forall_mem_nil _, List.forall_mem_nil _,
    List.forall_mem_nil _, fun f hf => validateProvenance_eq_ok.mp (validateProvenance_sightings f hf),
    List.forall_mem_nil _, List.forall_mem_nil _⟩
  have hevidenced : ∀ f ∈ [seenOne, seenTwo], f.provenance.evidenceIds ≠ [] := by decide
  have hderivable : Derivable sightings :=
    ⟨List.forall_mem_nil _, fun f hf _ _ _ _ => .inl (hevidenced f hf)⟩
  have hunclashing := unclashing_ofEvidence (f := seenOne) (g := seenTwo) (by decide) conflictId_sightings
  exact @build_total Sha2.sha256 sightings hsupported hunclashing hderivable

/-! ## Inputs without a twin -/

/-- What an input refers to as evidence. -/
def TwinBuildInput.evidenceReferences (input : TwinBuildInput) : List ContractId :=
  input.openapiDocuments.flatMap (fun d => d.declared.provenance.evidenceIds) ++
    input.sourceRoutes.flatMap (fun r => r.declared.provenance.evidenceIds) ++
    input.ormResources.flatMap (fun r => r.declared.provenance.evidenceIds) ++
    input.suppliedFacts.flatMap (fun f => f.provenance.evidenceIds) ++
    input.suppliedRelations.flatMap (fun r => r.provenance.evidenceIds) ++
    input.telemetryFlows.flatMap fun flow => flow.observed.provenance.evidenceIds ++
      flow.deltas.flatMap fun delta => delta.observed.provenance.evidenceIds

/-- All references resolve, and no identifiers clash. -/
def Sound (input : TwinBuildInput) : Prop :=
  input.evidenceReferences ⊆ input.evidenceRecords.map EvidenceRecord.evidenceId ∧ Unclashing input

/-- Evidence that was read off the source. -/
def sourceRecord : EvidenceRecord := ⟨⟨"evidence.source", by decide⟩, .stateSnapshot, .trustedSource, ⟨0⟩⟩

omit [Sha256] in
theorem isContractId_misattributed : isContractId "fact.flag" = true := by decide

/-- Something that is said to be observed, with evidence of the source only. -/
def misattributed : Fact :=
  ⟨⟨"fact.flag", isContractId_misattributed⟩, ⟨"feature.search", isContractId_search⟩,
    ⟨"enabled", isPredicate_enabled⟩, one, ⟨0⟩, none, (shownBy sourceRecord).provenance, .one,
    .trustedRuntime, unbounded_forward, rfl⟩

def misattribution : TwinBuildInput :=
  { TwinBuildInput.ofFacts [misattributed] (by decide) with
    evidenceRecords := [sourceRecord]
    evidenceUnique := by decide }

def guessTwo : Fact := guess "fact.two" (by decide) two

/-- Two guesses that contradict each other, without evidence. -/
def contradiction : TwinBuildInput := .ofEvidence [guessOne, guessTwo] (by decide)

omit [Sha256] in
theorem unclashing_misattribution : @Unclashing Sha2.sha256 misattribution := by
  let _ := Sha2.sha256
  have hnone : ∀ items, inputItems misattribution ≠ .ok items := by
    intro items hitems
    obtain ⟨p⟩ := inputItems_eq_ok.mp hitems
    obtain ⟨first, hfirst, -⟩ := Imp.mapM_cons_eq_ok.mp p.ofFacts
    exact absurd (Imp.check_bind_eq_ok.mp hfirst).1 (by decide +kernel)
  exact ⟨List.forall_mem_nil _, List.forall_mem_nil _, List.forall_mem_nil _,
    fun items hitems => absurd hitems (hnone items), fun items hitems => absurd hitems (hnone items)⟩

omit [Sha256] in
theorem conflictId_contradiction : ∀ a ∈ [guessOne.factId, guessTwo.factId],
    ∀ b ∈ [guessOne.factId, guessTwo.factId], ∀ a' ∈ [guessOne.factId, guessTwo.factId],
      ∀ b' ∈ [guessOne.factId, guessTwo.factId],
        @conflictId Sha2.sha256 [a.val, b.val] = @conflictId Sha2.sha256 [a'.val, b'.val] → a = a' ∧ b = b' := by
  decide +kernel

omit [Sha256] in
theorem not_isOk_of_ok {α : Type} {x : Except Exc α} (h : x.isOk = false) : ¬∃ a, x = .ok a := by
  rintro ⟨a, rfl⟩
  cases h

omit [Sha256] in
/-- References that resolve are not enough: the trust of the evidence is checked, and a conflict needs
evidence. -/
theorem not_total :
    (@Sound Sha2.sha256 misattribution ∧ ¬∃ twin, @build Sha2.sha256 misattribution = .ok twin) ∧
      @Sound Sha2.sha256 contradiction ∧ ¬∃ twin, @build Sha2.sha256 contradiction = .ok twin := by
  have hunclashing := unclashing_ofEvidence (f := guessOne) (g := guessTwo) (by decide) conflictId_contradiction
  exact ⟨⟨⟨by decide, unclashing_misattribution⟩, not_isOk_of_ok (by decide +kernel)⟩,
    ⟨List.nil_subset _, hunclashing⟩, not_isOk_of_ok (by decide +kernel)⟩

end StateWeaver.Twin
