import StateWeaver.Twin.Collections

/-!
# What an input contributes

The records that each source, supplied fact or relation and flow contributes, and what a build collects of
them.
-/

namespace StateWeaver.Twin

open Contracts

variable [Sha256]

/-! ## Contributions -/

/-- The records of a source. -/
def sourceItems (evidence : Registry) (provenance : Provenance) (serviceId : ContractId)
    (semantics : Except Exc (List Semantics)) : Except Exc (List Item) := do
  validateProvenance provenance evidence true
  let said ← semantics
  return .entity (serviceEntity serviceId) :: said.flatMap Semantics.items

def documentItems (evidence : Registry) (document : OpenApiIngestion) : Except Exc (List Item) :=
  sourceItems evidence document.declared.provenance document.serviceId (openapiSemantics document evidence)

def routeItems (evidence : Registry) (route : SourceRoute) : Except Exc (List Item) :=
  sourceItems evidence route.declared.provenance route.serviceId (routeSemantics route evidence)

def resourceItems (evidence : Registry) (resource : OrmResource) : Except Exc (List Item) :=
  sourceItems evidence resource.declared.provenance resource.serviceId (resourceSemantics resource evidence)

def factItems (evidence : Registry) (fact : Fact) : Except Exc (List Item) := do
  validateProvenance fact.provenance evidence false
  return [.fact fact]

def relationItems (evidence : Registry) (relation : Relation) : Except Exc (List Item) := do
  validateProvenance relation.provenance evidence false
  return [.relation relation]

def flowItems (evidence : Registry) (flow : TelemetryFlow) : Except Exc (List Item) := do
  let (transition, deltaFacts) ← transitionFromFlow flow evidence
  return .transition transition :: deltaFacts.map .fact

/-- All records, in the order of the loops. -/
def inputItems (input : TwinBuildInput) : Except Exc (List Item) := do
  let evidence := registry input.evidenceRecords
  let documents ← input.openapiDocuments.mapM (documentItems evidence)
  let routes ← input.sourceRoutes.mapM (routeItems evidence)
  let resources ← input.ormResources.mapM (resourceItems evidence)
  let facts ← input.suppliedFacts.mapM (factItems evidence)
  let relations ← input.suppliedRelations.mapM (relationItems evidence)
  let flows ← input.telemetryFlows.mapM (flowItems evidence)
  return documents.flatten ++ routes.flatten ++ resources.flatten ++ facts.flatten ++ relations.flatten ++
    flows.flatten

/-! ## Loops -/

section

variable {α : Type} {evidence : Registry} {c c' : Collections}

/-- A turn of a loop inserts what an element contributes. -/
def Adds (add : Collections → α → Except Exc Collections) (contributes : α → Except Exc (List Item)) : Prop :=
  ∀ c a c', add c a = .ok c' ↔ ∃ items, contributes a = .ok items ∧ c.insertAll items = .ok c'

omit [Sha256] in
theorem Adds.foldlM {add : Collections → α → Except Exc Collections}
    {contributes : α → Except Exc (List Item)} (h : Adds add contributes) {l : List α} :
    l.foldlM add c = .ok c' ↔
      ∃ parts, l.mapM contributes = .ok parts ∧ c.insertAll parts.flatten = .ok c' := by
  induction l generalizing c with
  | nil =>
      rw [List.foldlM_nil, List.mapM_nil]
      constructor
      · intro heq
        exact ⟨[], rfl, heq⟩
      · rintro ⟨parts, hparts, hinsert⟩
        cases hparts
        exact hinsert
  | cons a l ih =>
      rw [List.foldlM_cons, List.mapM_cons, Imp.except_bind_eq_ok]
      constructor
      · rintro ⟨c₁, hadd, hrest⟩
        obtain ⟨items, hitems, hinsert⟩ := (h c a c₁).mp hadd
        obtain ⟨parts, hparts, hinserts⟩ := ih.mp hrest
        refine ⟨items :: parts, ?_, Imp.foldlM_append_eq_ok.mpr ⟨c₁, hinsert, hinserts⟩⟩
        exact Imp.except_bind_eq_ok.mpr ⟨items, hitems, Imp.except_bind_eq_ok.mpr ⟨parts, hparts, rfl⟩⟩
      · rintro ⟨parts, hparts, hinsert⟩
        obtain ⟨items, hitems, hparts⟩ := Imp.except_bind_eq_ok.mp hparts
        obtain ⟨rest, hrest, hparts⟩ := Imp.except_bind_eq_ok.mp hparts
        cases hparts
        obtain ⟨c₁, hfirst, hinserts⟩ := Imp.foldlM_append_eq_ok.mp hinsert
        exact ⟨c₁, (h c a c₁).mpr ⟨items, hitems, hfirst⟩, ih.mpr ⟨rest, hrest, hinserts⟩⟩

omit [Sha256] in
theorem insertAll_cons {item : Item} {items : List Item} : c.insertAll (item :: items) = .ok c' ↔
    ∃ c₁, c.insert item = .ok c₁ ∧ c₁.insertAll items = .ok c' := by
  rw [Collections.insertAll, List.foldlM_cons, Imp.except_bind_eq_ok]
  rfl

omit [Sha256] in
theorem insertAll_singleton {item : Item} : c.insertAll [item] = .ok c' ↔ c.insert item = .ok c' := by
  rw [insertAll_cons]
  constructor
  · rintro ⟨c₁, hinsert, hrest⟩
    cases hrest
    exact hinsert
  · exact fun h => ⟨c', h, rfl⟩

omit [Sha256] in
theorem addSource_eq_ok {provenance : Provenance} {serviceId : ContractId}
    {semantics : Except Exc (List Semantics)} : addSource evidence provenance serviceId semantics c = .ok c' ↔
      ∃ items, sourceItems evidence provenance serviceId semantics = .ok items ∧
        c.insertAll items = .ok c' := by
  rw [addSource, sourceItems, Imp.check_bind_eq_ok]
  constructor
  · rintro ⟨hvalid, h⟩
    obtain ⟨c₁, hservice, h⟩ := Imp.except_bind_eq_ok.mp h
    obtain ⟨said, hsaid, h⟩ := Imp.except_bind_eq_ok.mp h
    refine ⟨_, Imp.check_bind_eq_ok.mpr ⟨hvalid, Imp.except_bind_eq_ok.mpr ⟨said, hsaid, rfl⟩⟩, ?_⟩
    exact insertAll_cons.mpr ⟨c₁, hservice, h⟩
  · rintro ⟨items, hitems, hinsert⟩
    obtain ⟨hvalid, hitems⟩ := Imp.check_bind_eq_ok.mp hitems
    obtain ⟨said, hsaid, hitems⟩ := Imp.except_bind_eq_ok.mp hitems
    cases hitems
    obtain ⟨c₁, hservice, h⟩ := insertAll_cons.mp hinsert
    exact ⟨hvalid, Imp.except_bind_eq_ok.mpr ⟨c₁, hservice, Imp.except_bind_eq_ok.mpr ⟨said, hsaid, h⟩⟩⟩

theorem adds_document : Adds (addDocument evidence) (documentItems evidence) :=
  fun _ _ _ => addSource_eq_ok

theorem adds_route : Adds (addRoute evidence) (routeItems evidence) := fun _ _ _ => addSource_eq_ok

theorem adds_resource : Adds (addResource evidence) (resourceItems evidence) := fun _ _ _ => addSource_eq_ok

omit [Sha256] in
/-- A supplied record is inserted after a check. -/
theorem check_bind_insert {check : Except Exc Unit} {item : Item} :
    (check >>= fun _ => c.insert item) = .ok c' ↔
      ∃ items, (check >>= fun _ => pure [item]) = .ok items ∧ c.insertAll items = .ok c' := by
  rw [Imp.check_bind_eq_ok]
  constructor
  · rintro ⟨hcheck, hinsert⟩
    exact ⟨[item], Imp.check_bind_eq_ok.mpr ⟨hcheck, rfl⟩, insertAll_singleton.mpr hinsert⟩
  · rintro ⟨items, hitems, hinsert⟩
    obtain ⟨hcheck, hitems⟩ := Imp.check_bind_eq_ok.mp hitems
    cases hitems
    exact ⟨hcheck, insertAll_singleton.mp hinsert⟩

omit [Sha256] in
theorem adds_fact : Adds (addFact evidence) (factItems evidence) := fun _ _ _ => check_bind_insert

omit [Sha256] in
theorem adds_relation : Adds (addRelation evidence) (relationItems evidence) := fun _ _ _ => check_bind_insert

theorem adds_flow : Adds (addFlow evidence) (flowItems evidence) := by
  intro c flow c'
  rw [addFlow, flowItems, Imp.except_bind_eq_ok]
  constructor
  · rintro ⟨⟨transition, facts⟩, hflow, h⟩
    obtain ⟨c₁, htransition, h⟩ := Imp.except_bind_eq_ok.mp h
    exact ⟨_, Imp.except_bind_eq_ok.mpr ⟨_, hflow, rfl⟩, insertAll_cons.mpr ⟨c₁, htransition, h⟩⟩
  · rintro ⟨items, hitems, hinsert⟩
    obtain ⟨⟨transition, facts⟩, hflow, hitems⟩ := Imp.except_bind_eq_ok.mp hitems
    cases hitems
    obtain ⟨c₁, htransition, h⟩ := insertAll_cons.mp hinsert
    exact ⟨_, hflow, Imp.except_bind_eq_ok.mpr ⟨c₁, htransition, h⟩⟩

end

/-! ## Builds -/

variable {input : TwinBuildInput} {c : Collections} {twin : SecuritySemanticTwin}

/-- The loops insert all records. -/
theorem collect_eq_ok : collect input = .ok c ↔
    ∃ items, inputItems input = .ok items ∧ Collections.empty.insertAll items = .ok c := by
  simp only [collect, inputItems, Imp.except_bind_eq_ok, adds_document.foldlM, adds_route.foldlM,
    adds_resource.foldlM, adds_fact.foldlM, adds_relation.foldlM, adds_flow.foldlM]
  constructor
  · rintro ⟨c₁, ⟨documents, hdocuments, h₁⟩, c₂, ⟨routes, hroutes, h₂⟩, c₃, ⟨resources, hresources, h₃⟩, c₄,
      ⟨facts, hfacts, h₄⟩, c₅, ⟨relations, hrelations, h₅⟩, flows, hflows, h₆⟩
    refine ⟨_, ⟨documents, hdocuments, routes, hroutes, resources, hresources, facts, hfacts, relations,
      hrelations, flows, hflows, rfl⟩, ?_⟩
    simp only [Collections.insertAll, Imp.foldlM_append_eq_ok]
    exact ⟨c₅, ⟨c₄, ⟨c₃, ⟨c₂, ⟨c₁, h₁, h₂⟩, h₃⟩, h₄⟩, h₅⟩, h₆⟩
  · rintro ⟨items, ⟨documents, hdocuments, routes, hroutes, resources, hresources, facts, hfacts, relations,
      hrelations, flows, hflows, hitems⟩, hinsert⟩
    cases hitems
    simp only [Collections.insertAll, Imp.foldlM_append_eq_ok] at hinsert
    obtain ⟨c₅, ⟨c₄, ⟨c₃, ⟨c₂, ⟨c₁, h₁, h₂⟩, h₃⟩, h₄⟩, h₅⟩, h₆⟩ := hinsert
    exact ⟨c₁, ⟨documents, hdocuments, h₁⟩, c₂, ⟨routes, hroutes, h₂⟩, c₃, ⟨resources, hresources, h₃⟩, c₄,
      ⟨facts, hfacts, h₄⟩, c₅, ⟨relations, hrelations, h₅⟩, flows, hflows, h₆⟩

/-- What a build collects is its records. -/
theorem collects_of_collect (h : collect input = .ok c) :
    ∃ items, inputItems input = .ok items ∧ c.Collects items := by
  obtain ⟨items, hitems, hinsert⟩ := collect_eq_ok.mp h
  exact ⟨items, hitems, Collections.collects_of_insertAll hinsert Collections.collects_empty⟩

end StateWeaver.Twin
