import StateWeaver.Contracts.Alike
import StateWeaver.Lib.Collecting
import StateWeaver.Twin.Contributions

/-!
# What is in a twin

The facts of a twin are those that its input contributes: the supplied ones, those of deltas, and those that
sources declare, whose objects are texts. Each fact that is contributed is in the twin as it is, because
facts that are written alike are equal.
-/

namespace StateWeaver.Twin

open Contracts

variable [Sha256] {input : TwinBuildInput} {items : List Item} {evidence : Registry}

omit [Sha256] in
/-- The registry has the records of the input. -/
theorem get?_registry {id : ContractId} {r : EvidenceRecord} :
    (registry input.evidenceRecords).get? id = some r ↔ r ∈ input.evidenceRecords ∧ r.evidenceId = id :=
  Dict.get?_index input.evidenceUnique

/-! ## Contributed records -/

/-- The parts that the loops contribute. -/
structure Parts (input : TwinBuildInput) (items : List Item) where
  documents : List (List Item)
  routes : List (List Item)
  resources : List (List Item)
  facts : List (List Item)
  relations : List (List Item)
  flows : List (List Item)
  ofDocuments : input.openapiDocuments.mapM (documentItems (registry input.evidenceRecords)) = .ok documents
  ofRoutes : input.sourceRoutes.mapM (routeItems (registry input.evidenceRecords)) = .ok routes
  ofResources : input.ormResources.mapM (resourceItems (registry input.evidenceRecords)) = .ok resources
  ofFacts : input.suppliedFacts.mapM (factItems (registry input.evidenceRecords)) = .ok facts
  ofRelations : input.suppliedRelations.mapM (relationItems (registry input.evidenceRecords)) = .ok relations
  ofFlows : input.telemetryFlows.mapM (flowItems (registry input.evidenceRecords)) = .ok flows
  all : items = documents.flatten ++ routes.flatten ++ resources.flatten ++ facts.flatten ++
    relations.flatten ++ flows.flatten

theorem inputItems_eq_ok : inputItems input = .ok items ↔ Nonempty (Parts input items) := by
  simp only [inputItems, Imp.except_bind_eq_ok]
  constructor
  · rintro ⟨documents, hdocuments, routes, hroutes, resources, hresources, facts, hfacts, relations, hrelations,
      flows, hflows, hitems⟩
    exact ⟨⟨documents, routes, resources, facts, relations, flows, hdocuments, hroutes, hresources, hfacts,
      hrelations, hflows, (Except.ok.inj hitems).symm⟩⟩
  · rintro ⟨⟨documents, routes, resources, facts, relations, flows, hdocuments, hroutes, hresources, hfacts,
      hrelations, hflows, hitems⟩⟩
    exact ⟨documents, hdocuments, routes, hroutes, resources, hresources, facts, hfacts, relations, hrelations,
      flows, hflows, congrArg Except.ok hitems.symm⟩

omit [Sha256] in
/-- What a loop contributes is what its elements contribute. -/
theorem mem_flatten_of_mapM {α : Type} {contributes : α → Except Exc (List Item)} {l : List α}
    {parts : List (List Item)} (h : l.mapM contributes = .ok parts) {item : Item} :
    item ∈ parts.flatten ↔ ∃ a ∈ l, ∃ items, contributes a = .ok items ∧ item ∈ items := by
  rw [List.mem_flatten]
  constructor
  · rintro ⟨part, hpart, hitem⟩
    obtain ⟨a, ha, hcontributes⟩ := (Imp.mem_of_mapM h).mp hpart
    exact ⟨a, ha, part, hcontributes, hitem⟩
  · rintro ⟨a, ha, part, hcontributes, hitem⟩
    exact ⟨part, (Imp.mem_of_mapM h).mpr ⟨a, ha, hcontributes⟩, hitem⟩

/-- The record is one of a loop over elements. -/
def ContributedBy {α : Type} (l : List α) (contributes : α → Except Exc (List Item)) (item : Item) : Prop :=
  ∃ a ∈ l, ∃ items, contributes a = .ok items ∧ item ∈ items

/-- Where records come from. -/
theorem mem_inputItems (h : inputItems input = .ok items) {item : Item} : item ∈ items ↔
    ContributedBy input.openapiDocuments (documentItems (registry input.evidenceRecords)) item ∨
      ContributedBy input.sourceRoutes (routeItems (registry input.evidenceRecords)) item ∨
      ContributedBy input.ormResources (resourceItems (registry input.evidenceRecords)) item ∨
      ContributedBy input.suppliedFacts (factItems (registry input.evidenceRecords)) item ∨
      ContributedBy input.suppliedRelations (relationItems (registry input.evidenceRecords)) item ∨
      ContributedBy input.telemetryFlows (flowItems (registry input.evidenceRecords)) item := by
  obtain ⟨p⟩ := inputItems_eq_ok.mp h
  rw [p.all]
  simp only [List.mem_append, mem_flatten_of_mapM p.ofDocuments, mem_flatten_of_mapM p.ofRoutes,
    mem_flatten_of_mapM p.ofResources, mem_flatten_of_mapM p.ofFacts, mem_flatten_of_mapM p.ofRelations,
    mem_flatten_of_mapM p.ofFlows, or_assoc]
  rfl

/-! ## Facts of sources -/

omit [Sha256] in
theorem mapError_eq_ok {α ε ε' : Type} {f : ε → ε'} {x : Except ε α} {a : α} :
    x.mapError f = .ok a ↔ x = .ok a := by
  cases x with
  | error e => exact iff_of_false nofun nofun
  | ok b => exact ⟨fun h => congrArg _ (Except.ok.inj h), fun h => congrArg _ (Except.ok.inj h)⟩

omit [Sha256] in
theorem sourceFact_eq_ok {id subject : ContractId} {predicate object : String} {at_ : Instant}
    {provenance : Provenance} {f : Fact} (h : sourceFact id subject predicate object at_ provenance = .ok f) :
    f.object = textScalar object ∧ f.provenance = provenance := by
  obtain ⟨-, -, -, hobject, -, -, hprovenance⟩ := Fact.create_eq_ok (mapError_eq_ok.mp h)
  exact ⟨hobject, hprovenance⟩

omit [Sha256] in
theorem sourceRelation_eq_ok {id subject serviceId : ContractId} {provenance : Provenance} {r : Relation}
    (h : sourceRelation id subject serviceId provenance = .ok r) : r.provenance = provenance :=
  Relation.provenance_of_create (mapError_eq_ok.mp h)

/-- The object of a fact is a text. -/
def IsTextual (f : Fact) : Prop := ∃ s, f.object = textScalar s

/-- What a source says has its provenance, and texts as objects. -/
structure SaidWith (provenance : Provenance) (s : Semantics) : Prop where
  entity : s.entity.provenance = some provenance
  relation : s.relation.provenance = provenance
  fact : s.fact.provenance = provenance
  textual : IsTextual s.fact

theorem saidWith_of_endpointSemantics {parts : List String} {label predicate object : String}
    {serviceId : ContractId} {at_ : Instant} {provenance : Provenance} {s : Semantics}
    (h : endpointSemantics parts label serviceId predicate object at_ provenance = .ok s) :
    SaidWith provenance s := by
  obtain ⟨relation, hrelation, h⟩ := Imp.except_bind_eq_ok.mp h
  obtain ⟨fact, hfact, h⟩ := Imp.except_bind_eq_ok.mp h
  cases h
  obtain ⟨hobject, hprovenance⟩ := sourceFact_eq_ok hfact
  exact ⟨rfl, sourceRelation_eq_ok hrelation, hprovenance, _, hobject⟩

theorem saidWith_of_operationSemantics {document : OpenApiIngestion} {at_ : Instant} {path : String}
    {operation : String × PlainJson} {s : Semantics}
    (h : operationSemantics document at_ path operation = .ok s) : SaidWith document.declared.provenance s := by
  obtain ⟨method, fields⟩ := operation
  obtain ⟨-, h⟩ := Imp.check_bind_eq_ok.mp h
  split at h
  · obtain ⟨-, h⟩ := Imp.check_bind_eq_ok.mp h
    obtain ⟨operationId, -, h⟩ := Imp.except_bind_eq_ok.mp h
    exact saidWith_of_endpointSemantics h
  · cases h

theorem saidWith_of_openapiSemantics {document : OpenApiIngestion} {said : List Semantics}
    (h : openapiSemantics document evidence = .ok said) : ∀ s ∈ said, SaidWith document.declared.provenance s := by
  rw [openapiSemantics, Imp.check_bind_eq_ok] at h
  obtain ⟨-, h⟩ := h
  split at h
  · obtain ⟨at_, -, h⟩ := Imp.except_bind_eq_ok.mp h
    obtain ⟨results, hresults, h⟩ := Imp.except_bind_eq_ok.mp h
    cases h
    intro s hs
    obtain ⟨result, hresult, hs⟩ := List.mem_flatten.mp hs
    obtain ⟨operations, -, hpath⟩ := Imp.exists_of_mem_mapM hresults hresult
    rw [pathSemantics] at hpath
    split at hpath
    · split_ifs at hpath
      obtain ⟨operation, -, hoperation⟩ := Imp.exists_of_mem_mapM hpath hs
      exact saidWith_of_operationSemantics hoperation
    · cases hpath
  · cases h

theorem saidWith_of_routeSemantics {route : SourceRoute} {said : List Semantics}
    (h : routeSemantics route evidence = .ok said) : ∀ s ∈ said, SaidWith route.declared.provenance s := by
  obtain ⟨at_, -, h⟩ := Imp.except_bind_eq_ok.mp h
  intro s hs
  obtain ⟨method, -, hmethod⟩ := Imp.exists_of_mem_mapM h hs
  exact saidWith_of_endpointSemantics hmethod

theorem saidWith_of_resourceSemantics {resource : OrmResource} {said : List Semantics}
    (h : resourceSemantics resource evidence = .ok said) : ∀ s ∈ said, SaidWith resource.declared.provenance s := by
  obtain ⟨at_, -, h⟩ := Imp.except_bind_eq_ok.mp h
  obtain ⟨relation, hrelation, h⟩ := Imp.except_bind_eq_ok.mp h
  obtain ⟨table, htable, h⟩ := Imp.except_bind_eq_ok.mp h
  obtain ⟨tenant, htenant, h⟩ := Imp.except_bind_eq_ok.mp h
  obtain ⟨owner, howner, h⟩ := Imp.except_bind_eq_ok.mp h
  cases h
  intro s hs
  obtain ⟨fact, hfact, rfl⟩ := List.mem_map.mp hs
  have hsaid : IsTextual fact ∧ fact.provenance = resource.declared.provenance := by
    rcases List.mem_append.mp hfact with hfact | hfact
    · rcases List.mem_pair.mp hfact with rfl | rfl
      · exact (sourceFact_eq_ok htable).imp_left fun h => ⟨_, h⟩
      · exact (sourceFact_eq_ok htenant).imp_left fun h => ⟨_, h⟩
    · obtain ⟨field, -, hfield⟩ := Imp.exists_of_mem_mapM howner hfact
      exact (sourceFact_eq_ok hfield).imp_left fun h => ⟨_, h⟩
  exact ⟨rfl, sourceRelation_eq_ok hrelation, hsaid.2, hsaid.1⟩

omit [Sha256] in
/-- The records of a source: its service, and what it says. -/
theorem mem_sourceItems {provenance : Provenance} {serviceId : ContractId}
    {semantics : Except Exc (List Semantics)} (h : sourceItems evidence provenance serviceId semantics = .ok items)
    {item : Item} (hitem : item ∈ items) : item = .entity (serviceEntity serviceId) ∨
      ∃ said, semantics = .ok said ∧ ∃ s ∈ said,
        item = .entity s.entity ∨ item = .relation s.relation ∨ item = .fact s.fact := by
  obtain ⟨-, h⟩ := Imp.check_bind_eq_ok.mp h
  obtain ⟨said, hsemantics, h⟩ := Imp.except_bind_eq_ok.mp h
  cases h
  rcases List.mem_cons.mp hitem with heq | hitem
  · exact .inl heq
  · obtain ⟨s, hs, hitem⟩ := List.mem_flatMap.mp hitem
    rw [Semantics.items, List.mem_cons, List.mem_pair] at hitem
    exact .inr ⟨said, hsemantics, s, hs, hitem⟩

omit [Sha256] in
theorem fact_of_sourceItems {provenance : Provenance} {serviceId : ContractId}
    {semantics : Except Exc (List Semantics)}
    (hsaid : ∀ said, semantics = .ok said → ∀ s ∈ said, SaidWith provenance s)
    (h : sourceItems evidence provenance serviceId semantics = .ok items) {f : Fact} (hf : .fact f ∈ items) :
    IsTextual f ∧ f.provenance = provenance := by
  rcases mem_sourceItems h hf with heq | ⟨said, hsemantics, s, hs, heq | heq | heq⟩
  · cases heq
  · cases heq
  · cases heq
  · cases heq
    exact ⟨(hsaid said hsemantics s hs).textual, (hsaid said hsemantics s hs).fact⟩

/-! ## Facts that are contributed -/

theorem fact_of_source {f : Fact}
    (h : ContributedBy input.openapiDocuments (documentItems evidence) (.fact f) ∨
      ContributedBy input.sourceRoutes (routeItems evidence) (.fact f) ∨
      ContributedBy input.ormResources (resourceItems evidence) (.fact f)) :
    IsTextual f ∧ f.provenance.evidenceIds ≠ [] := by
  rcases h with ⟨document, -, items, hitems, hf⟩ | ⟨route, -, items, hitems, hf⟩ |
    ⟨resource, -, items, hitems, hf⟩
  · obtain ⟨htextual, hprovenance⟩ := fact_of_sourceItems (fun _ => saidWith_of_openapiSemantics) hitems hf
    exact ⟨htextual, hprovenance ▸ document.declared.evidenced⟩
  · obtain ⟨htextual, hprovenance⟩ := fact_of_sourceItems (fun _ => saidWith_of_routeSemantics) hitems hf
    exact ⟨htextual, hprovenance ▸ route.declared.evidenced⟩
  · obtain ⟨htextual, hprovenance⟩ := fact_of_sourceItems (fun _ => saidWith_of_resourceSemantics) hitems hf
    exact ⟨htextual, hprovenance ▸ resource.declared.evidenced⟩

omit [Sha256] in
theorem contributedBy_facts {item : Item} : ContributedBy input.suppliedFacts (factItems evidence) item ↔
    ∃ f ∈ input.suppliedFacts, validateProvenance f.provenance evidence false = .ok () ∧ item = .fact f := by
  refine exists_congr fun f => and_congr_right fun _ => ?_
  simp only [factItems, Imp.check_bind_eq_ok]
  constructor
  · rintro ⟨items, ⟨hvalid, hitems⟩, hitem⟩
    cases hitems
    exact ⟨hvalid, List.mem_singleton.mp hitem⟩
  · rintro ⟨hvalid, rfl⟩
    exact ⟨_, ⟨hvalid, rfl⟩, List.mem_singleton.mpr rfl⟩

omit [Sha256] in
theorem contributedBy_relations {item : Item} :
    ContributedBy input.suppliedRelations (relationItems evidence) item ↔
      ∃ r ∈ input.suppliedRelations, validateProvenance r.provenance evidence false = .ok () ∧
        item = .relation r := by
  refine exists_congr fun r => and_congr_right fun _ => ?_
  simp only [relationItems, Imp.check_bind_eq_ok]
  constructor
  · rintro ⟨items, ⟨hvalid, hitems⟩, hitem⟩
    cases hitems
    exact ⟨hvalid, List.mem_singleton.mp hitem⟩
  · rintro ⟨hvalid, rfl⟩
    exact ⟨_, ⟨hvalid, rfl⟩, List.mem_singleton.mpr rfl⟩

/-- The checks of a flow succeed and its deltas have facts. -/
theorem transitionFromFlow_eq_ok {flow : TelemetryFlow} {transition : TransitionFragment} {facts : List Fact}
    (h : transitionFromFlow flow evidence = .ok (transition, facts)) :
    transition = flowTransition flow ∧ flow.deltas.mapM deltaFact = .ok facts := by
  rw [transitionFromFlow, Imp.check_bind_eq_ok] at h
  obtain ⟨-, h⟩ := h
  obtain ⟨traceRecords, -, h⟩ := Imp.except_bind_eq_ok.mp h
  obtain ⟨-, h⟩ := Imp.check_bind_eq_ok.mp h
  obtain ⟨-, h⟩ := Imp.check_bind_eq_ok.mp h
  obtain ⟨-, h⟩ := Imp.check_bind_eq_ok.mp h
  obtain ⟨records, -, h⟩ := Imp.except_bind_eq_ok.mp h
  obtain ⟨-, h⟩ := Imp.check_bind_eq_ok.mp h
  obtain ⟨facts', hfacts, h⟩ := Imp.except_bind_eq_ok.mp h
  cases h
  exact ⟨rfl, hfacts⟩

theorem mem_flowItems {flow : TelemetryFlow} (h : flowItems evidence flow = .ok items) {item : Item} :
    item ∈ items ↔ item = .transition (flowTransition flow) ∨
      ∃ f, item = .fact f ∧ ∃ delta ∈ flow.deltas, deltaFact delta = .ok f := by
  obtain ⟨⟨transition, facts⟩, hflow, h⟩ := Imp.except_bind_eq_ok.mp h
  cases h
  obtain ⟨rfl, hfacts⟩ := transitionFromFlow_eq_ok hflow
  rw [List.mem_cons, List.mem_map]
  refine or_congr_right (exists_congr fun f => ?_)
  rw [Imp.mem_of_mapM hfacts, and_comm, eq_comm]

/-- Where facts come from: they are supplied, of deltas, or have texts as objects, and evidence. -/
theorem fact_of_mem_inputItems (h : inputItems input = .ok items) {f : Fact} (hf : .fact f ∈ items) :
    f ∈ input.suppliedFacts ∨
      (∃ flow ∈ input.telemetryFlows, ∃ delta ∈ flow.deltas, deltaFact delta = .ok f) ∨
        IsTextual f ∧ f.provenance.evidenceIds ≠ [] := by
  rcases (mem_inputItems h).mp hf with hsource | hsource | hsource | hfact | hrelation | hflow
  · exact .inr (.inr (fact_of_source (.inl hsource)))
  · exact .inr (.inr (fact_of_source (.inr (.inl hsource))))
  · exact .inr (.inr (fact_of_source (.inr (.inr hsource))))
  · obtain ⟨f', hf', -, heq⟩ := contributedBy_facts.mp hfact
    cases heq
    exact .inl hf'
  · obtain ⟨r, -, -, heq⟩ := contributedBy_relations.mp hrelation
    cases heq
  · obtain ⟨flow, hflow, items, hitems, hf⟩ := hflow
    rcases (mem_flowItems hitems).mp hf with heq | ⟨f', heq, delta, hdelta, hfact⟩
    · cases heq
    · cases heq
      exact .inr (.inl ⟨flow, hflow, delta, hdelta, hfact⟩)

theorem mem_inputItems_of_supplied (h : inputItems input = .ok items) {f : Fact}
    (hf : f ∈ input.suppliedFacts) : .fact f ∈ items := by
  obtain ⟨p⟩ := inputItems_eq_ok.mp h
  obtain ⟨part, hpart⟩ := Imp.exists_mapM.mp ⟨_, p.ofFacts⟩ f hf
  obtain ⟨hvalid, -⟩ := Imp.check_bind_eq_ok.mp hpart
  exact (mem_inputItems h).mpr (.inr (.inr (.inr (.inl (contributedBy_facts.mpr ⟨f, hf, hvalid, rfl⟩)))))

theorem mem_inputItems_of_delta (h : inputItems input = .ok items) {flow : TelemetryFlow}
    (hflow : flow ∈ input.telemetryFlows) {delta : StateDelta} (hdelta : delta ∈ flow.deltas) :
    ∃ f, deltaFact delta = .ok f ∧ .fact f ∈ items := by
  obtain ⟨p⟩ := inputItems_eq_ok.mp h
  obtain ⟨part, hpart⟩ := Imp.exists_mapM.mp ⟨_, p.ofFlows⟩ flow hflow
  obtain ⟨⟨transition, facts⟩, htransition, -⟩ := Imp.except_bind_eq_ok.mp hpart
  obtain ⟨f, hf⟩ := Imp.exists_mapM.mp ⟨_, (transitionFromFlow_eq_ok htransition).2⟩ delta hdelta
  refine ⟨f, hf, (mem_inputItems h).mpr (.inr (.inr (.inr (.inr (.inr ⟨flow, hflow, part, hpart, ?_⟩)))))⟩
  exact (mem_flowItems hpart).mpr (.inr ⟨f, rfl, delta, hdelta, hf⟩)

/-! ## Twins -/

variable {twin : SecuritySemanticTwin} {c : Collections} {conflicts : List TwinConflict}

/-- How a twin is built. -/
structure Built (input : TwinBuildInput) (twin : SecuritySemanticTwin) (items : List Item) (c : Collections)
    (conflicts : List TwinConflict) : Prop where
  contributed : inputItems input = .ok items
  collects : c.Collects items
  found : findConflicts c.facts.values = .ok conflicts
  entities : twin.entities = ordered c.entities.values
  relations : twin.relations = ordered c.relations.values
  facts : twin.facts = ordered c.facts.values
  transitions : twin.transitions = ordered c.transitions.values
  evidenceIds : twin.evidenceIds = sortedSet (references c.entities.values c.relations.values c.facts.values
    c.transitions.values conflicts)
  conflicts : twin.conflicts = ordered conflicts
  twinId : twin.twinId = input.twinId

omit [Sha256] in
theorem SecuritySemanticTwin.create_eq_ok {twinId : ContractId} {entities : List Entity}
    {relations : List Relation} {facts : List Fact} {transitions : List TransitionFragment}
    {evidenceIds : List ContractId}
    (h : SecuritySemanticTwin.create twinId entities relations facts transitions conflicts evidenceIds = .ok twin) :
    twin.twinId = twinId ∧ twin.entities = entities ∧ twin.relations = relations ∧ twin.facts = facts ∧
      twin.transitions = transitions ∧ twin.conflicts = conflicts ∧ twin.evidenceIds = evidenceIds := by
  unfold SecuritySemanticTwin.create at h
  repeat' split at h
  all_goals cases h
  exact ⟨rfl, rfl, rfl, rfl, rfl, rfl, rfl⟩

theorem built_of_build (h : build input = .ok twin) : ∃ items c conflicts, Built input twin items c conflicts := by
  obtain ⟨c, hcollect, h⟩ := Imp.except_bind_eq_ok.mp h
  obtain ⟨conflicts, hfound, h⟩ := Imp.except_bind_eq_ok.mp h
  obtain ⟨items, hitems, hcollects⟩ := collects_of_collect hcollect
  obtain ⟨htwin, hentities, hrelations, hfacts, htransitions, hconflicts, hevidence⟩ :=
    SecuritySemanticTwin.create_eq_ok h
  exact ⟨items, c, conflicts, hitems, hcollects, hfound, hentities, hrelations, hfacts, htransitions,
    hevidence, hconflicts, htwin⟩

omit [Sha256] in
theorem mem_ordered {α : Type} [Identified α] {l : List α} {a : α} : a ∈ ordered l ↔ a ∈ l :=
  List.mem_insertionSort _

/-! ### Collected records -/

omit [Sha256] in
/-- The entities that are collected are those that are contributed. -/
theorem mem_entities_values (h : c.Collects items) {e : Entity} : e ∈ c.entities.values ↔ .entity e ∈ items := by
  refine h.mem_values fun _ b _ _ halike => ?_
  rcases halike with heq | ⟨bytes, hbytes, hbytes'⟩
  · exact Item.entity.inj heq
  · exact Entity.eq_of_alike (alike_of_bytes hbytes hbytes')

omit [Sha256] in
/-- The relations that are collected are those that are contributed. -/
theorem mem_relations_values (h : c.Collects items) {r : Relation} :
    r ∈ c.relations.values ↔ .relation r ∈ items := by
  refine h.mem_values fun _ b _ _ halike => ?_
  rcases halike with heq | ⟨bytes, hbytes, hbytes'⟩
  · exact Item.relation.inj heq
  · exact Relation.eq_of_alike (alike_of_bytes hbytes hbytes')

omit [Sha256] in
/-- The facts that are collected are those that are contributed. -/
theorem mem_facts_values (h : c.Collects items) {f : Fact} : f ∈ c.facts.values ↔ .fact f ∈ items := by
  refine h.mem_values fun _ b _ _ halike => ?_
  rcases halike with heq | ⟨bytes, hbytes, hbytes'⟩
  · exact Item.fact.inj heq
  · exact Fact.eq_of_alike (alike_of_bytes hbytes hbytes')

omit [Sha256] in
theorem nodup_entities_values (h : c.Collects items) : (c.entities.values.map Entity.entityId).Nodup :=
  h.nodup_values

omit [Sha256] in
theorem nodup_relations_values (h : c.Collects items) : (c.relations.values.map Relation.relationId).Nodup :=
  h.nodup_values

omit [Sha256] in
theorem nodup_facts_values (h : c.Collects items) : (c.facts.values.map Fact.factId).Nodup :=
  h.nodup_values

omit [Sha256] in
theorem nodup_transitions_values (h : c.Collects items) :
    (c.transitions.values.map TransitionFragment.transitionId).Nodup :=
  h.nodup_values

/-- The facts of a twin are those that are contributed. -/
theorem Built.mem_facts (h : Built input twin items c conflicts) {f : Fact} :
    f ∈ twin.facts ↔ .fact f ∈ items := by
  rw [h.facts, mem_ordered, mem_facts_values h.collects]

end StateWeaver.Twin
