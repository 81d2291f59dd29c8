import Mathlib
import StateWeaver.Contracts.Writable
import StateWeaver.Lib.Dict
import StateWeaver.Twin.Models

/-!
# The twin builder

`build` turns every source into entities, relations and facts, adds the facts and relations that are
supplied, and makes a transition and facts of every flow. Records with one identifier have to be written
alike. Two facts about one predicate of one subject that hold at one time with different objects are a
conflict.
-/

namespace StateWeaver.Twin

open Contracts

variable [Sha256]

/-! ## Evidence -/

/-- The evidence, by its identifiers. -/
abbrev Registry := Dict ContractId EvidenceRecord

def registry (records : List EvidenceRecord) : Registry :=
  records.foldl (fun evidence record => evidence.insert record.evidenceId record) Dict.empty

/-- `evidence[item]`, for some items. -/
def recordsOf (evidence : Registry) (ids : List ContractId) : Except Exc (List EvidenceRecord) :=
  ids.mapM fun id => match evidence.get? id with
    | some record => .ok record
    | none => .error .keyError

/-- `_validate_provenance`. -/
def validateProvenance (provenance : Provenance) (evidence : Registry) (source : Bool) : Except Exc Unit := do
  Imp.require (∀ id ∈ provenance.evidenceIds, evidence.contains id = true)
    (.twinBuildError "provenance references evidence outside the supplied registry")
  let records ← recordsOf evidence provenance.evidenceIds
  if source = true then do
    Imp.require (provenance.kind = .declared)
      (.twinBuildError "source facts must retain declared provenance")
    Imp.require (∀ record ∈ records, record.taint = .trustedSource)
      (.twinBuildError "source facts require trusted-source evidence")
  else if provenance.kind = .observed then
    Imp.require (∀ record ∈ records,
        record.taint = .trustedRuntime ∨ record.taint = .untrustedTargetContent)
      (.twinBuildError "observed facts require runtime or target-content evidence")

/-- `_evidence_time`. -/
def evidenceTime (provenance : Provenance) (evidence : Registry) : Except Exc Instant := do
  let records ← recordsOf evidence provenance.evidenceIds
  match (records.map fun record => record.createdAt.microseconds).min? with
  | some earliest => return ⟨earliest⟩
  | none => .error (.valueError "min() iterable argument is empty")

/-! ## Identifiers -/

/-- `f"endpoint.{_stable_suffix(*parts)}"`. -/
def endpointId (parts : List String) : ContractId :=
  ⟨taggedDigits "endpoint." 24 (Writable.texts parts).digest,
    isContractId_taggedDigits (by decide) (by decide) (by decide) (by decide) (by decide) _⟩

/-- `f"relation.{_stable_suffix(*parts)}"`. -/
def relationId (parts : List String) : ContractId :=
  ⟨taggedDigits "relation." 24 (Writable.texts parts).digest,
    isContractId_taggedDigits (by decide) (by decide) (by decide) (by decide) (by decide) _⟩

/-- `f"fact.{_stable_suffix(*parts)}"`. -/
def factId (parts : List String) : ContractId :=
  ⟨taggedDigits "fact." 24 (Writable.texts parts).digest,
    isContractId_taggedDigits (by decide) (by decide) (by decide) (by decide) (by decide) _⟩

/-- `f"conflict.{_stable_suffix(*parts)}"`. -/
def conflictId (parts : List String) : ContractId :=
  ⟨taggedDigits "conflict." 24 (Writable.texts parts).digest,
    isContractId_taggedDigits (by decide) (by decide) (by decide) (by decide) (by decide) _⟩

/-! ## What sources say -/

/-- What a source says at one place. -/
structure Semantics where
  entity : Entity
  relation : Relation
  fact : Fact
  deriving DecidableEq

/-- A text as a scalar. -/
def textScalar (s : String) : JsonScalar := ⟨.str s, rfl⟩

/-- A relation that a source declares. -/
def sourceRelation (id subject serviceId : ContractId) (provenance : Provenance) : Except Exc Relation :=
  (Relation.create id subject .controlledBy serviceId provenance .trustedSource).mapError
    (.validationError .relation)

/-- A fact that a source declares. -/
def sourceFact (id subject : ContractId) (predicate object : String) (validFrom : Instant)
    (provenance : Provenance) : Except Exc Fact :=
  (Fact.create id subject predicate (textScalar object) validFrom provenance .trustedSource).mapError
    (.validationError .fact)

/-- What is said about an endpoint of a service. -/
def endpointSemantics (parts : List String) (label : String) (serviceId : ContractId)
    (predicate object : String) (at_ : Instant) (provenance : Provenance) : Except Exc Semantics := do
  let entity := Entity.create (endpointId parts) .endpoint label (some provenance)
  let relation ← sourceRelation (relationId parts) (endpointId parts) serviceId provenance
  let fact ← sourceFact (factId parts) (endpointId parts) predicate object at_ provenance
  return ⟨entity, relation, fact⟩

/-- The fields of a document, of an operation, and the methods that are supported. -/
def openapiTopLevelFields : List String := ["openapi", "info", "paths"]
def openapiOperationFields : List String := ["operationId", "summary", "description"]
def openapiMethods : List String := ["get", "head", "options", "post", "put", "patch", "delete"]

/-- `sorted(mapping.items())`: the keys are distinct. -/
def sortedItems (entries : List (String × PlainJson)) : List (String × PlainJson) :=
  entries.insertionSort fun a b => a.1 ≤ b.1

/-- `operation.get("operationId")`; there is no difference between `None` and the empty text. -/
def operationIdOf (fields : List (String × PlainJson)) : Except Exc String :=
  match fields.lookup "operationId" with
  | none | some (.scalar .none_) => .ok ""
  | some (.scalar (.str s)) => .ok s
  | some _ => .error (.twinBuildError "OpenAPI operationId must be a string")

/-- One operation of a path. -/
def operationSemantics (document : OpenApiIngestion) (at_ : Instant) (path : String)
    (operation : String × PlainJson) : Except Exc Semantics := do
  let (method, fields) := operation
  -- the methods are ASCII, so no other letter has one of theirs as its lower case
  Imp.require (method.toLower ∈ openapiMethods) (.twinBuildError "OpenAPI operation method is unsupported")
  match fields with
  | .obj fields => do
      Imp.require (fields.map Prod.fst ⊆ openapiOperationFields)
        (.twinBuildError "OpenAPI operation has unsupported fields")
      let operationId ← operationIdOf fields
      let label := if operationId = "" then method.toUpper ++ " " ++ path else operationId
      endpointSemantics [document.documentId.val, path, method.toLower] label document.serviceId
        "route_method" method.toUpper at_ document.declared.provenance
  | _ => .error (.twinBuildError "OpenAPI operation has unsupported fields")

/-- The operations of one path. -/
def pathSemantics (document : OpenApiIngestion) (at_ : Instant) (operations : String × PlainJson) :
    Except Exc (List Semantics) :=
  match operations.2 with
  | .obj methods =>
      if operations.1.toList.head? = some '/' then
        (sortedItems methods).mapM (operationSemantics document at_ operations.1)
      else .error (.twinBuildError "OpenAPI paths must map relative paths to operation mappings")
  | _ => .error (.twinBuildError "OpenAPI paths must map relative paths to operation mappings")

/-- Whether a value is there and a text. -/
def isText : Option PlainJson → Bool
  | some (.scalar (.str _)) => true
  | _ => false

/-- `_openapi_semantics`. -/
def openapiSemantics (document : OpenApiIngestion) (evidence : Registry) : Except Exc (List Semantics) := do
  let raw := document.document
  Imp.require (raw.map Prod.fst ⊆ openapiTopLevelFields ∧ isText (raw.lookup "openapi") = true)
    (.twinBuildError "OpenAPI document has unsupported top-level fields")
  match raw.lookup "paths" with
  | some (.obj (first :: rest)) => do
      let at_ ← evidenceTime document.declared.provenance evidence
      let results ← (sortedItems (first :: rest)).mapM (pathSemantics document at_)
      return results.flatten
  | _ => .error (.twinBuildError "OpenAPI document requires a nonempty paths mapping")

/-- `_route_semantics`. -/
def routeSemantics (route : SourceRoute) (evidence : Registry) : Except Exc (List Semantics) := do
  let at_ ← evidenceTime route.declared.provenance evidence
  (route.methods.insertionSort fun a b => a.value ≤ b.value).mapM fun method =>
    let label := match route.operationId with
      | some id => id.val
      | none => method.value ++ " " ++ route.path
    endpointSemantics [route.routeId.val, method.value] label route.serviceId "route_path" route.path at_
      route.declared.provenance

/-- `_resource_semantics`. -/
def resourceSemantics (resource : OrmResource) (evidence : Registry) : Except Exc (List Semantics) := do
  let provenance := resource.declared.provenance
  let at_ ← evidenceTime provenance evidence
  let entity := Entity.create resource.resourceId .resource resource.tableName.val (some provenance)
  let relation ← sourceRelation (relationId [resource.resourceId.val, resource.serviceId.val])
    resource.resourceId resource.serviceId provenance
  let table ← sourceFact (factId [resource.resourceId.val, "table"]) resource.resourceId "table_name"
    resource.tableName.val at_ provenance
  let tenant ← sourceFact (factId [resource.resourceId.val, "tenant"]) resource.resourceId "tenant_field"
    resource.tenantField.val at_ provenance
  let owner ← resource.ownerField.toList.mapM fun field =>
    sourceFact (factId [resource.resourceId.val, "owner"]) resource.resourceId "owner_field" field.val at_
      provenance
  return ([table, tenant] ++ owner).map fun fact => ⟨entity, relation, fact⟩

/-- `_service_entity`. -/
def serviceEntity (serviceId : ContractId) : Entity := Entity.create serviceId .service serviceId.val none

/-! ## What flows say -/

/-- `tuple(sorted({..}))`. -/
def sortedSet (ids : List ContractId) : List ContractId := ids.dedup.insertionSort (· ≤ ·)

/-- `_DELTA_KINDS`. -/
def EvidenceKind.isDelta : EvidenceKind → Bool
  | .databaseDiff | .cacheDiff | .queueDiff | .stateSnapshot => true
  | _ => false

/-- `path.rsplit(".", 1)[-1]`. -/
def lastSegment (path : StatePath) : String := String.ofList ((path.val.toList.splitOn '.').getLastD [])

/-- `_delta_fact`. -/
def deltaFact (delta : StateDelta) : Except Exc Fact :=
  (Fact.create (factId [delta.deltaId.val]) delta.subject (lastSegment delta.effect.path) delta.effect.value
    delta.observedAt delta.observed.provenance .trustedRuntime).mapError (.validationError .fact)

/-- The checks of one delta of a flow. -/
def validateDelta (evidence : Registry) (delta : StateDelta) : Except Exc Unit := do
  validateProvenance delta.observed.provenance evidence false
  let records ← recordsOf evidence delta.observed.provenance.evidenceIds
  Imp.require (∃ record ∈ records, EvidenceKind.isDelta record.kind = true)
    (.twinBuildError "each state delta requires state-delta evidence")
  Imp.require (∀ record ∈ records, record.taint = .trustedRuntime)
    (.twinBuildError "state-delta evidence must be trusted runtime evidence")

/-- The evidence of a flow and its deltas. -/
def flowEvidence (flow : TelemetryFlow) : List ContractId :=
  sortedSet (flow.observed.provenance.evidenceIds ++
    flow.deltas.flatMap fun delta => delta.observed.provenance.evidenceIds)

omit [Sha256] in
theorem mem_sortedSet {ids : List ContractId} {id : ContractId} : id ∈ sortedSet ids ↔ id ∈ ids := by
  rw [sortedSet, List.mem_insertionSort, List.mem_dedup]

omit [Sha256] in
theorem nodup_sortedSet (ids : List ContractId) : (sortedSet ids).Nodup :=
  (List.perm_insertionSort _ _).nodup_iff.mpr (List.nodup_dedup ids)

omit [Sha256] in
theorem flowEvidence_ne_nil (flow : TelemetryFlow) : flowEvidence flow ≠ [] := by
  have hne := flow.observed.provenance.supported (.inl flow.observed.kind)
  obtain ⟨id, hid⟩ := List.exists_mem_of_ne_nil _ hne
  exact List.ne_nil_of_mem (mem_sortedSet.mpr (List.mem_append_left _ hid))

/-- The transition of a flow. -/
def flowTransition (flow : TelemetryFlow) : TransitionFragment where
  transitionId := flow.transitionId
  name := flow.name
  source := .observed
  preconditions := flow.deltas.map StateDelta.precondition
  action := flow.action
  effects := flow.deltas.map StateDelta.effect
  observables := flow.deltas.map StateDelta.observable
  evidenceIds := flowEvidence flow
  fidelity := flow.fidelity
  consistentReplays := flow.consistentReplays
  preconditionsNonempty := mt List.map_eq_nil_iff.mp flow.deltasNonempty
  effectsNonempty := mt List.map_eq_nil_iff.mp flow.deltasNonempty
  observablesNonempty := mt List.map_eq_nil_iff.mp flow.deltasNonempty
  evidenceUnique := nodup_sortedSet _
  inferredReplayed := nofun
  evidenced := fun _ => flowEvidence_ne_nil flow
  unevidenced := fun h => absurd h (by decide)
  unobservedFidelity := fun h => absurd h (by decide)
  unknownFidelity := nofun
  observedFidelity := fun _ => flow.observedFidelity

/-- `_transition_from_flow`. -/
def transitionFromFlow (flow : TelemetryFlow) (evidence : Registry) :
    Except Exc (TransitionFragment × List Fact) := do
  validateProvenance flow.observed.provenance evidence false
  let traceRecords ← recordsOf evidence flow.observed.provenance.evidenceIds
  Imp.require (∃ record ∈ traceRecords, record.kind = .otelTrace)
    (.twinBuildError "telemetry flow provenance requires OTel trace evidence")
  Imp.require (∀ record ∈ traceRecords, record.taint = .trustedRuntime)
    (.twinBuildError "telemetry flow evidence must be trusted runtime evidence")
  Imp.forEach flow.deltas (validateDelta evidence)
  let records ← recordsOf evidence (flowEvidence flow)
  Imp.require ((∃ record ∈ records, record.kind = .otelTrace) ∧
      ∃ record ∈ records, EvidenceKind.isDelta record.kind = true)
    (.twinBuildError "observed transition requires both OTel trace and state-delta evidence")
  let facts ← flow.deltas.mapM deltaFact
  return (flowTransition flow, facts)

/-! ## Collections -/

/-- `_insert_unique`. -/
def insertUnique {α : Type} [Identified α] (toValue : α → Value) (collection : Dict ContractId α) (item : α) :
    Except Exc (Dict ContractId α) :=
  match collection.get? (Identified.identifier item) with
  | none => .ok (collection.insert (Identified.identifier item) item)
  | some existing => do
      let bytes ← (canonicalJsonBytes (toValue existing)).mapError .valueError
      let bytes' ← (canonicalJsonBytes (toValue item)).mapError .valueError
      Imp.require (bytes = bytes') (.twinBuildError "distinct semantic records reuse the same identifier")
      return collection

/-- What a build has collected. -/
structure Collections where
  entities : Dict ContractId Entity
  relations : Dict ContractId Relation
  facts : Dict ContractId Fact
  transitions : Dict ContractId TransitionFragment

/-- A record of a collection. -/
inductive Item where
  | entity (e : Entity)
  | relation (r : Relation)
  | fact (f : Fact)
  | transition (t : TransitionFragment)

namespace Collections

def empty : Collections := ⟨.empty, .empty, .empty, .empty⟩

/-- `_insert_unique`, into the collection that a record belongs to. -/
def insert (c : Collections) : Item → Except Exc Collections
  | .entity e => do return { c with entities := ← insertUnique Entity.toValue c.entities e }
  | .relation r => do return { c with relations := ← insertUnique Relation.toValue c.relations r }
  | .fact f => do return { c with facts := ← insertUnique Fact.toValue c.facts f }
  | .transition t => do
      return { c with transitions := ← insertUnique TransitionFragment.toValue c.transitions t }

/-- One record after the other. -/
def insertAll (c : Collections) (items : List Item) : Except Exc Collections := items.foldlM insert c

end Collections

/-- The records of what a source says at one place. -/
def Semantics.items (s : Semantics) : List Item := [.entity s.entity, .relation s.relation, .fact s.fact]

/-- One turn of the loops over sources. -/
def addSource (evidence : Registry) (provenance : Provenance) (serviceId : ContractId)
    (semantics : Except Exc (List Semantics)) (c : Collections) : Except Exc Collections := do
  validateProvenance provenance evidence true
  let c ← c.insert (.entity (serviceEntity serviceId))
  let said ← semantics
  c.insertAll (said.flatMap Semantics.items)

def addDocument (evidence : Registry) (c : Collections) (document : OpenApiIngestion) :
    Except Exc Collections :=
  addSource evidence document.declared.provenance document.serviceId (openapiSemantics document evidence) c

def addRoute (evidence : Registry) (c : Collections) (route : SourceRoute) : Except Exc Collections :=
  addSource evidence route.declared.provenance route.serviceId (routeSemantics route evidence) c

def addResource (evidence : Registry) (c : Collections) (resource : OrmResource) : Except Exc Collections :=
  addSource evidence resource.declared.provenance resource.serviceId (resourceSemantics resource evidence) c

def addFact (evidence : Registry) (c : Collections) (fact : Fact) : Except Exc Collections := do
  validateProvenance fact.provenance evidence false
  c.insert (.fact fact)

def addRelation (evidence : Registry) (c : Collections) (relation : Relation) : Except Exc Collections := do
  validateProvenance relation.provenance evidence false
  c.insert (.relation relation)

def addFlow (evidence : Registry) (c : Collections) (flow : TelemetryFlow) : Except Exc Collections := do
  let (transition, deltaFacts) ← transitionFromFlow flow evidence
  let c ← c.insert (.transition transition)
  c.insertAll (deltaFacts.map .fact)

/-! ## Conflicts -/

/-- `_intervals_overlap`. -/
def intervalsOverlap (left right : Fact) : Bool :=
  (match left.validTo with
    | none => true
    | some last => decide (right.validFrom.microseconds < last.microseconds)) &&
  match right.validTo with
    | none => true
    | some last => decide (left.validFrom.microseconds < last.microseconds)

/-- Whether two facts of one group disagree. -/
def disagree (facts : Fact × Fact) : Bool :=
  !(facts.1.object.val.eq facts.2.object.val || !intervalsOverlap facts.1 facts.2)

/-- The conflict of two facts. -/
def conflictOf (facts : Fact × Fact) : Except Exc TwinConflict :=
  TwinConflict.create (conflictId [facts.1.factId.val, facts.2.factId.val]) facts.1 facts.2
    (sortedSet (facts.1.provenance.evidenceIds ++ facts.2.provenance.evidenceIds))

/-- All pairs of a list, in its order. -/
def pairs {α : Type} : List α → List (α × α)
  | [] => []
  | a :: l => l.map (fun b => (a, b)) ++ pairs l

/-- The facts about each predicate of each subject. -/
def grouped (facts : List Fact) : Dict (ContractId × Predicate) (List Fact) :=
  facts.foldl (fun groups fact =>
    let key := (fact.subject, fact.predicate)
    groups.insert key ((groups.get? key).getD [] ++ [fact])) Dict.empty

/-- The conflicts of one group. -/
def groupConflicts (candidates : List Fact) : Except Exc (List TwinConflict) :=
  ((pairs (ordered candidates)).filter disagree).mapM conflictOf

/-- `_find_conflicts`. -/
def findConflicts (facts : List Fact) : Except Exc (List TwinConflict) := do
  let groups := (grouped facts).entries.insertionSort fun a b => toLex a.1 ≤ toLex b.1
  let conflicts ← groups.mapM fun group => groupConflicts group.2
  return conflicts.flatten

/-! ## Building -/

/-- The loops of `build`. -/
def collect (input : TwinBuildInput) : Except Exc Collections := do
  let evidence := registry input.evidenceRecords
  let c ← input.openapiDocuments.foldlM (addDocument evidence) Collections.empty
  let c ← input.sourceRoutes.foldlM (addRoute evidence) c
  let c ← input.ormResources.foldlM (addResource evidence) c
  let c ← input.suppliedFacts.foldlM (addFact evidence) c
  let c ← input.suppliedRelations.foldlM (addRelation evidence) c
  input.telemetryFlows.foldlM (addFlow evidence) c

/-- `build`. -/
def build (input : TwinBuildInput) : Except Exc SecuritySemanticTwin := do
  let c ← collect input
  let conflicts ← findConflicts c.facts.values
  let evidenceIds := sortedSet (references c.entities.values c.relations.values c.facts.values
    c.transitions.values conflicts)
  SecuritySemanticTwin.create input.twinId (ordered c.entities.values) (ordered c.relations.values)
    (ordered c.facts.values) (ordered c.transitions.values) (ordered conflicts) evidenceIds

end StateWeaver.Twin
