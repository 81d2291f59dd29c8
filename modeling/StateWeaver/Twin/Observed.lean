import StateWeaver.Twin.Deltas

/-!
# What observed transitions rest on

The transitions of a twin are those of its flows, and all of them are observed. The checks of a flow find
every record of its evidence in the registry, all of them trusted records of the runtime, with a trace for the
flow and a difference of states for each delta.
-/

namespace StateWeaver.Twin

open Contracts

/-! ## Specification -/

/-- An observed transition rests on a flow: on a trace, and on a difference of states for each delta, all of them
trusted records of the runtime in the registry. -/
structure RestsOn (records : List EvidenceRecord) (flow : TelemetryFlow) (t : TransitionFragment) : Prop where
  transitionId : t.transitionId = flow.transitionId
  effects : t.effects = flow.deltas.map StateDelta.effect
  trace : ∃ r ∈ records, r.evidenceId ∈ t.evidenceIds ∧ r.kind = .otelTrace
  deltas : ∀ delta ∈ flow.deltas, ∃ r ∈ records, r.evidenceId ∈ delta.observed.provenance.evidenceIds ∧
    r.evidenceId ∈ t.evidenceIds ∧ EvidenceKind.isDelta r.kind = true
  runtime : ∀ id ∈ t.evidenceIds, ∃ r ∈ records, r.evidenceId = id ∧ r.taint = .trustedRuntime

/-- No evidence of a transition is a trusted record of the runtime. -/
def WithoutRuntime (records : List EvidenceRecord) (t : TransitionFragment) : Prop :=
  ∀ r ∈ records, r.evidenceId ∈ t.evidenceIds → r.taint ≠ .trustedRuntime

/-! ## Checks -/

variable {evidence : Registry} {ids : List ContractId} {records : List EvidenceRecord}
  {flow : TelemetryFlow} {delta : StateDelta}

/-- All records with some identifiers are there. -/
def Registered (evidence : Registry) (ids : List ContractId) : Prop :=
  ∀ id ∈ ids, ∃ r, evidence.get? id = some r

theorem mem_recordsOf (h : recordsOf evidence ids = .ok records) {r : EvidenceRecord} :
    r ∈ records ↔ ∃ id ∈ ids, evidence.get? id = some r := by
  rw [Imp.mem_of_mapM h]
  refine exists_congr fun id => and_congr_right fun _ => ?_
  cases evidence.get? id with
  | none => exact iff_of_false nofun nofun
  | some r' => exact ⟨fun h => congrArg some (Except.ok.inj h), fun h => congrArg Except.ok (Option.some.inj h)⟩

theorem exists_recordsOf : (∃ records, recordsOf evidence ids = .ok records) ↔ Registered evidence ids := by
  rw [recordsOf, Imp.exists_mapM]
  refine forall₂_congr fun id _ => ?_
  cases evidence.get? id with
  | none => exact iff_of_false nofun nofun
  | some r => exact iff_of_true ⟨r, rfl⟩ ⟨r, rfl⟩

/-- All records of some evidence are of a kind. -/
def AllOf (evidence : Registry) (ids : List ContractId) (P : EvidenceRecord → Prop) : Prop :=
  ∀ id ∈ ids, ∀ r, evidence.get? id = some r → P r

/-- Some record of some evidence is of a kind. -/
def SomeOf (evidence : Registry) (ids : List ContractId) (P : EvidenceRecord → Prop) : Prop :=
  ∃ id ∈ ids, ∃ r, evidence.get? id = some r ∧ P r

theorem forall_mem_recordsOf (h : recordsOf evidence ids = .ok records) {P : EvidenceRecord → Prop} :
    (∀ r ∈ records, P r) ↔ AllOf evidence ids P := by
  constructor
  · exact fun hall id hid r hr => hall r ((mem_recordsOf h).mpr ⟨id, hid, hr⟩)
  · intro hall r hr
    obtain ⟨id, hid, hget⟩ := (mem_recordsOf h).mp hr
    exact hall id hid r hget

theorem exists_mem_recordsOf (h : recordsOf evidence ids = .ok records) {P : EvidenceRecord → Prop} :
    (∃ r ∈ records, P r) ↔ SomeOf evidence ids P := by
  constructor
  · rintro ⟨r, hr, hP⟩
    obtain ⟨id, hid, hget⟩ := (mem_recordsOf h).mp hr
    exact ⟨id, hid, r, hget, hP⟩
  · rintro ⟨id, hid, r, hget, hP⟩
    exact ⟨r, (mem_recordsOf h).mpr ⟨id, hid, hget⟩, hP⟩

/-- What a provenance has to be. -/
structure ValidProvenance (evidence : Registry) (source : Bool) (p : Provenance) : Prop where
  registered : Registered evidence p.evidenceIds
  declared : source = true → p.kind = .declared ∧ AllOf evidence p.evidenceIds fun r => r.taint = .trustedSource
  observed : source = false → p.kind = .observed → AllOf evidence p.evidenceIds fun r =>
    r.taint = .trustedRuntime ∨ r.taint = .untrustedTargetContent

theorem validateProvenance_eq_ok {p : Provenance} {source : Bool} :
    validateProvenance p evidence source = .ok () ↔ ValidProvenance evidence source p := by
  have hcontains : (∀ id ∈ p.evidenceIds, evidence.contains id = true) ↔ Registered evidence p.evidenceIds :=
    forall₂_congr fun id _ => Dict.contains_eq_true
  rw [validateProvenance, Imp.check_bind_eq_ok, Imp.require_eq_ok, hcontains, Imp.except_bind_eq_ok]
  constructor
  · rintro ⟨hregistered, records, hrecords, h⟩
    cases source with
    | true =>
        rw [if_pos rfl, Imp.check_bind_eq_ok, Imp.require_eq_ok, Imp.require_eq_ok,
          forall_mem_recordsOf hrecords] at h
        exact ⟨hregistered, fun _ => h, nofun⟩
    | false =>
        rw [if_neg Bool.false_ne_true] at h
        refine ⟨hregistered, nofun, fun _ hkind => ?_⟩
        rw [if_pos hkind, Imp.require_eq_ok, forall_mem_recordsOf hrecords] at h
        exact h
  · rintro ⟨hregistered, hdeclared, hobserved⟩
    obtain ⟨records, hrecords⟩ := exists_recordsOf.mpr hregistered
    refine ⟨hregistered, records, hrecords, ?_⟩
    cases source with
    | true =>
        rw [if_pos rfl, Imp.check_bind_eq_ok, Imp.require_eq_ok, Imp.require_eq_ok,
          forall_mem_recordsOf hrecords]
        exact hdeclared rfl
    | false =>
        rw [if_neg Bool.false_ne_true]
        by_cases hkind : p.kind = .observed
        · rw [if_pos hkind, Imp.require_eq_ok, forall_mem_recordsOf hrecords]
          exact hobserved rfl hkind
        · rw [if_neg hkind]
          rfl

/-- What the evidence of a delta has to be. -/
structure SupportedDelta (evidence : Registry) (delta : StateDelta) : Prop where
  registered : Registered evidence delta.observed.provenance.evidenceIds
  difference : SomeOf evidence delta.observed.provenance.evidenceIds fun r => EvidenceKind.isDelta r.kind = true
  runtime : AllOf evidence delta.observed.provenance.evidenceIds fun r => r.taint = .trustedRuntime

theorem validateDelta_eq_ok : validateDelta evidence delta = .ok () ↔ SupportedDelta evidence delta := by
  rw [validateDelta, Imp.check_bind_eq_ok, validateProvenance_eq_ok, Imp.except_bind_eq_ok]
  constructor
  · rintro ⟨hvalid, records, hrecords, h⟩
    rw [Imp.check_bind_eq_ok, Imp.require_eq_ok, Imp.require_eq_ok, exists_mem_recordsOf hrecords,
      forall_mem_recordsOf hrecords] at h
    exact ⟨hvalid.registered, h.1, h.2⟩
  · rintro ⟨hregistered, hdifference, hruntime⟩
    obtain ⟨records, hrecords⟩ := exists_recordsOf.mpr hregistered
    refine ⟨⟨hregistered, nofun, fun _ _ id hid r hr => .inl (hruntime id hid r hr)⟩, records, hrecords, ?_⟩
    rw [Imp.check_bind_eq_ok, Imp.require_eq_ok, Imp.require_eq_ok, exists_mem_recordsOf hrecords,
      forall_mem_recordsOf hrecords]
    exact ⟨hdifference, hruntime⟩

/-- What the evidence of a flow has to be. -/
structure SupportedFlow (evidence : Registry) (flow : TelemetryFlow) : Prop where
  registered : Registered evidence flow.observed.provenance.evidenceIds
  trace : SomeOf evidence flow.observed.provenance.evidenceIds fun r => r.kind = .otelTrace
  runtime : AllOf evidence flow.observed.provenance.evidenceIds fun r => r.taint = .trustedRuntime
  deltas : ∀ delta ∈ flow.deltas, SupportedDelta evidence delta

theorem mem_flowEvidence {id : ContractId} : id ∈ flowEvidence flow ↔
    id ∈ flow.observed.provenance.evidenceIds ∨
      ∃ delta ∈ flow.deltas, id ∈ delta.observed.provenance.evidenceIds := by
  rw [flowEvidence, mem_sortedSet, List.mem_append, List.mem_flatMap]

theorem SupportedFlow.all (h : SupportedFlow evidence flow) : ∀ id ∈ flowEvidence flow,
    ∃ r, evidence.get? id = some r ∧ r.taint = .trustedRuntime := by
  intro id hid
  rcases mem_flowEvidence.mp hid with hid | ⟨delta, hdelta, hid⟩
  · obtain ⟨r, hr⟩ := h.registered id hid
    exact ⟨r, hr, h.runtime id hid r hr⟩
  · obtain ⟨r, hr⟩ := (h.deltas delta hdelta).registered id hid
    exact ⟨r, hr, (h.deltas delta hdelta).runtime id hid r hr⟩

variable [Sha256] {transition : TransitionFragment} {facts : List Fact}

/-- A flow has a transition exactly if its evidence supports it and its deltas have facts. -/
theorem transitionFromFlow_iff : transitionFromFlow flow evidence = .ok (transition, facts) ↔
    SupportedFlow evidence flow ∧ transition = flowTransition flow ∧ flow.deltas.mapM deltaFact = .ok facts := by
  constructor
  · intro h
    refine ⟨?_, transitionFromFlow_eq_ok h⟩
    rw [transitionFromFlow, Imp.check_bind_eq_ok, validateProvenance_eq_ok] at h
    obtain ⟨hvalid, h⟩ := h
    obtain ⟨records, hrecords, h⟩ := Imp.except_bind_eq_ok.mp h
    simp only [Imp.check_bind_eq_ok, Imp.require_eq_ok, exists_mem_recordsOf hrecords,
      forall_mem_recordsOf hrecords, Imp.forEach_eq_ok, validateDelta_eq_ok] at h
    obtain ⟨htrace, hruntime, hdeltas, -⟩ := h
    exact ⟨hvalid.registered, htrace, hruntime, hdeltas⟩
  · rintro ⟨hsupported, rfl, hfacts⟩
    obtain ⟨records, hrecords⟩ := exists_recordsOf.mpr hsupported.registered
    obtain ⟨all, hall⟩ := exists_recordsOf.mpr (fun id hid => (hsupported.all id hid).imp fun _ h => h.1)
    rw [transitionFromFlow, Imp.check_bind_eq_ok, validateProvenance_eq_ok]
    refine ⟨⟨hsupported.registered, nofun, fun _ _ id hid r hr => .inl (hsupported.runtime id hid r hr)⟩, ?_⟩
    refine Imp.except_bind_eq_ok.mpr ⟨records, hrecords, ?_⟩
    simp only [Imp.check_bind_eq_ok, Imp.require_eq_ok, exists_mem_recordsOf hrecords,
      forall_mem_recordsOf hrecords, Imp.forEach_eq_ok, validateDelta_eq_ok]
    refine ⟨hsupported.trace, hsupported.runtime, hsupported.deltas, ?_⟩
    refine Imp.except_bind_eq_ok.mpr ⟨all, hall, ?_⟩
    rw [Imp.check_bind_eq_ok, Imp.require_eq_ok, exists_mem_recordsOf hall, exists_mem_recordsOf hall]
    refine ⟨⟨?_, ?_⟩, Imp.except_bind_eq_ok.mpr ⟨facts, hfacts, rfl⟩⟩
    · obtain ⟨id, hid, r, hr, hkind⟩ := hsupported.trace
      exact ⟨id, mem_flowEvidence.mpr (.inl hid), r, hr, hkind⟩
    · obtain ⟨delta, hdelta⟩ := List.exists_mem_of_ne_nil _ flow.deltasNonempty
      obtain ⟨id, hid, r, hr, hkind⟩ := (hsupported.deltas delta hdelta).difference
      exact ⟨id, mem_flowEvidence.mpr (.inr ⟨delta, hdelta, hid⟩), r, hr, hkind⟩

/-! ## Transitions of a twin -/

variable {input : TwinBuildInput} {twin : SecuritySemanticTwin} {items : List Item} {c : Collections}
  {conflicts : List TwinConflict}

omit [Sha256] in
theorem SupportedFlow.restsOn (h : SupportedFlow (registry input.evidenceRecords) flow) :
    RestsOn input.evidenceRecords flow (flowTransition flow) := by
  refine ⟨rfl, rfl, ?_, fun delta hdelta => ?_, fun id hid => ?_⟩
  · obtain ⟨id, hid, r, hr, hkind⟩ := h.trace
    obtain ⟨hmem, rfl⟩ := get?_registry.mp hr
    exact ⟨r, hmem, mem_flowEvidence.mpr (.inl hid), hkind⟩
  · obtain ⟨id, hid, r, hr, hkind⟩ := (h.deltas delta hdelta).difference
    obtain ⟨hmem, rfl⟩ := get?_registry.mp hr
    exact ⟨r, hmem, hid, mem_flowEvidence.mpr (.inr ⟨delta, hdelta, hid⟩), hkind⟩
  · obtain ⟨r, hr, htaint⟩ := h.all id hid
    obtain ⟨hmem, hid⟩ := get?_registry.mp hr
    exact ⟨r, hmem, hid, htaint⟩

omit [Sha256] in
/-- Sources contribute no transitions. -/
theorem transition_not_mem_sourceItems {provenance : Provenance} {serviceId : ContractId}
    {semantics : Except Exc (List Semantics)} (h : sourceItems evidence provenance serviceId semantics = .ok items)
    {t : TransitionFragment} : .transition t ∉ items := by
  intro ht
  rcases mem_sourceItems h ht with heq | ⟨said, -, s, -, heq | heq | heq⟩ <;> cases heq

/-- Transitions are contributed by flows only. -/
theorem transition_of_mem_inputItems (h : inputItems input = .ok items) {t : TransitionFragment}
    (ht : .transition t ∈ items) : ∃ flow ∈ input.telemetryFlows,
      SupportedFlow (registry input.evidenceRecords) flow ∧ t = flowTransition flow := by
  rcases (mem_inputItems h).mp ht with hsource | hsource | hsource | hfact | hrelation | hflow
  · obtain ⟨_, -, items, hitems, ht⟩ := hsource
    exact absurd ht (transition_not_mem_sourceItems hitems)
  · obtain ⟨_, -, items, hitems, ht⟩ := hsource
    exact absurd ht (transition_not_mem_sourceItems hitems)
  · obtain ⟨_, -, items, hitems, ht⟩ := hsource
    exact absurd ht (transition_not_mem_sourceItems hitems)
  · obtain ⟨_, -, -, heq⟩ := contributedBy_facts.mp hfact
    cases heq
  · obtain ⟨_, -, -, heq⟩ := contributedBy_relations.mp hrelation
    cases heq
  · obtain ⟨flow, hflow, items, hitems, ht⟩ := hflow
    obtain ⟨⟨transition, facts⟩, htransition, -⟩ := Imp.except_bind_eq_ok.mp hitems
    refine ⟨flow, hflow, (transitionFromFlow_iff.mp htransition).1, ?_⟩
    rcases (mem_flowItems hitems).mp ht with heq | ⟨f, heq, -⟩
    · exact Item.transition.inj heq
    · cases heq

/-- Every transition of a twin is that of a flow which its evidence supports. -/
theorem Built.supportedFlow (h : Built input twin items c conflicts) {t : TransitionFragment}
    (ht : t ∈ twin.transitions) : ∃ flow ∈ input.telemetryFlows,
      SupportedFlow (registry input.evidenceRecords) flow ∧ t = flowTransition flow := by
  rw [h.transitions, mem_ordered] at ht
  exact transition_of_mem_inputItems h.contributed (h.collects.mem_of_values ht)

/-- A transition that is observed rests on a flow, and one without evidence of the runtime is not observed. -/
theorem observed_transitions (h : build input = .ok twin) : ∀ t ∈ twin.transitions,
    (t.source = .observed → ∃ flow ∈ input.telemetryFlows, RestsOn input.evidenceRecords flow t) ∧
      (WithoutRuntime input.evidenceRecords t → t.source ≠ .observed) := by
  obtain ⟨items, c, conflicts, hbuilt⟩ := built_of_build h
  intro t ht
  obtain ⟨flow, hflow, hsupported, rfl⟩ := hbuilt.supportedFlow ht
  have hrests := hsupported.restsOn
  refine ⟨fun _ => ⟨flow, hflow, hrests⟩, fun hwithout _ => ?_⟩
  obtain ⟨r, hr, hid, -⟩ := hrests.trace
  obtain ⟨r', hr', hid', htaint⟩ := hrests.runtime _ hid
  exact hwithout r' hr' (hid' ▸ hid) htaint

/-- A cart that was observed. -/
def shop : TwinBuildInput where
  twinId := ⟨"twin.shop", by decide⟩
  evidenceRecords := [traceRecord, diffRecord]
  telemetryFlows := [shopping]
  evidenceUnique := by decide
  documentsUnique := by decide
  routesUnique := by decide
  resourcesUnique := by decide
  flowsUnique := List.nodup_singleton _
  factsUnique := by decide
  relationsUnique := by decide

omit [Sha256] in
theorem observed_transitions_shop : ∃ twin, @build Sha2.sha256 shop = .ok twin ∧ ∀ t ∈ twin.transitions,
    (t.source = .observed → ∃ flow ∈ shop.telemetryFlows, RestsOn shop.evidenceRecords flow t) ∧
      (WithoutRuntime shop.evidenceRecords t → t.source ≠ .observed) := by
  have h : (@build Sha2.sha256 shop).isOk = true := by decide +kernel
  cases hbuild : @build Sha2.sha256 shop with
  | ok twin => exact ⟨twin, rfl, @observed_transitions Sha2.sha256 _ _ hbuild⟩
  | error e =>
      rw [hbuild] at h
      cases h

end StateWeaver.Twin
