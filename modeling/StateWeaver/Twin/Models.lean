import Mathlib
import StateWeaver.Contracts.Identifiers
import StateWeaver.Contracts.Transitions

/-!
# Inputs and outputs of the twin builder

Sources, flows and facts that a caller supplies, with the evidence they come from, and the twin that is made
of them: entities, relations, facts and transitions, with the conflicts between facts and an index of the
evidence.
-/

namespace StateWeaver.Twin

open Contracts

/-! ## Exceptions -/

/-- The models whose validation can fail in a build. -/
inductive Model where
  | relation | fact | twinConflict | securitySemanticTwin
  deriving DecidableEq

/-- The exceptions of a build. -/
inductive Exc where
  | twinBuildError (message : String)
  /-- A `pydantic.ValidationError` of a model, with the text of the first failing check. -/
  | validationError (model : Model) (message : String)
  | valueError (message : String)
  | keyError
  deriving DecidableEq

/-! ## Sources -/

/-- A provenance that a source declares, with evidence. -/
structure Declared where
  provenance : Provenance
  kind : provenance.kind = .declared
  evidenced : provenance.evidenceIds ≠ []
  deriving DecidableEq

/-- A provenance of what was observed. Its evidence cannot be empty. -/
structure Observed where
  provenance : Provenance
  kind : provenance.kind = .observed
  deriving DecidableEq

/-- An OpenAPI document, as it is frozen after validation. -/
structure OpenApiIngestion where
  documentId : ContractId
  serviceId : ContractId
  document : List (String × PlainJson)
  declared : Declared
  distinct : (Json.obj document).Distinct

/-- A relative path without query or fragment. -/
def isRelativePath (path : String) : Bool :=
  path.toList.head? == some '/' && path.toList.all (fun c => c != '?' && c != '#') &&
    !decide (['/', '/'] <:+: path.toList)

structure SourceRoute where
  routeId : ContractId
  serviceId : ContractId
  path : String
  methods : List HttpMethod
  operationId : Option ContractId := none
  declared : Declared
  pathRelative : isRelativePath path = true
  methodsNonempty : methods ≠ []
  methodsUnique : methods.Nodup
  deriving DecidableEq

/-- `[A-Za-z_][A-Za-z0-9_]{0,127}`. -/
def isSourceIdentifier (s : String) : Bool :=
  hasLength 1 128 s && headTail (fun c => c.isAlpha || c == '_') (fun c => c.isAlphanum || c == '_') s.toList

abbrev SourceIdentifier := Constrained isSourceIdentifier

structure OrmResource where
  resourceId : ContractId
  serviceId : ContractId
  tableName : SourceIdentifier
  tenantField : SourceIdentifier
  ownerField : Option SourceIdentifier := none
  declared : Declared
  deriving DecidableEq

/-! ## Flows -/

structure StateDelta where
  deltaId : ContractId
  subject : ContractId
  precondition : StateCondition
  effect : StateEffect
  observable : StateCondition
  observed : Observed
  observedAt : Instant
  deriving DecidableEq

structure TelemetryFlow where
  transitionId : ContractId
  name : String
  action : Action
  deltas : List StateDelta
  observed : Observed
  fidelity : FidelityProfile
  consistentReplays : Nat := 1
  replayed : 1 ≤ consistentReplays
  named : name ≠ ""
  deltasNonempty : deltas ≠ []
  deltasUnique : (deltas.map StateDelta.deltaId).Nodup
  observedFidelity : fidelity.claimsObservation = true
  deriving DecidableEq

/-! ## Inputs -/

structure TwinBuildInput where
  twinId : ContractId
  evidenceRecords : List EvidenceRecord
  openapiDocuments : List OpenApiIngestion := []
  sourceRoutes : List SourceRoute := []
  ormResources : List OrmResource := []
  telemetryFlows : List TelemetryFlow := []
  suppliedFacts : List Fact := []
  suppliedRelations : List Relation := []
  evidenceUnique : (evidenceRecords.map EvidenceRecord.evidenceId).Nodup
  documentsUnique : (openapiDocuments.map OpenApiIngestion.documentId).Nodup
  routesUnique : (sourceRoutes.map SourceRoute.routeId).Nodup
  resourcesUnique : (ormResources.map OrmResource.resourceId).Nodup
  flowsUnique : (telemetryFlows.map TelemetryFlow.transitionId).Nodup
  factsUnique : (suppliedFacts.map Fact.factId).Nodup
  relationsUnique : (suppliedRelations.map Relation.relationId).Nodup

/-! ## Twins -/

structure TwinConflict where
  conflictId : ContractId
  subject : ContractId
  predicate : Predicate
  leftFactId : ContractId
  rightFactId : ContractId
  leftValue : JsonScalar
  rightValue : JsonScalar
  evidenceIds : List ContractId
  specific : leftFactId ≠ rightFactId
  different : leftValue.val.eq rightValue.val = false
  evidenced : evidenceIds ≠ []
  evidenceUnique : evidenceIds.Nodup

theorem TwinConflict.fields_eq_iff (c d : TwinConflict) :
    (c.conflictId = d.conflictId ∧ c.subject = d.subject ∧ c.predicate = d.predicate ∧
      c.leftFactId = d.leftFactId ∧ c.rightFactId = d.rightFactId ∧ c.leftValue = d.leftValue ∧
      c.rightValue = d.rightValue ∧ c.evidenceIds = d.evidenceIds) ↔ c = d := by
  cases c
  cases d
  rw [mk.injEq]

instance instDecidableEqTwinConflict : DecidableEq TwinConflict := fun c d =>
  decidable_of_iff _ (c.fields_eq_iff d)

/-- `TwinConflict(..)`, for two facts. -/
def TwinConflict.create (conflictId : ContractId) (left right : Fact) (evidenceIds : List ContractId) :
    Except Exc TwinConflict :=
  if hspecific : left.factId = right.factId ∨ left.object.val.eq right.object.val = true then
    .error (.validationError .twinConflict
      "a conflict must compare distinct facts with different values")
  else if hevidence : evidenceIds = [] ∨ ¬evidenceIds.Nodup then
    .error (.validationError .twinConflict "a conflict requires unique evidence IDs")
  else .ok
    ⟨conflictId, left.subject, left.predicate, left.factId, right.factId, left.object, right.object,
      evidenceIds, fun h => hspecific (.inl h), Bool.not_eq_true _ |>.mp fun h => hspecific (.inr h),
      fun h => hevidence (.inl h), not_not.mp fun h => hevidence (.inr h)⟩

/-- The evidence that an entity refers to. -/
def entityEvidence (e : Entity) : List ContractId :=
  (e.provenance.map Provenance.evidenceIds).getD []

/-- The evidence that anything of a twin refers to. -/
def references (entities : List Entity) (relations : List Relation) (facts : List Fact)
    (transitions : List TransitionFragment) (conflicts : List TwinConflict) : List ContractId :=
  entities.flatMap entityEvidence ++ relations.flatMap (fun r => r.provenance.evidenceIds) ++
    facts.flatMap (fun f => f.provenance.evidenceIds) ++ transitions.flatMap TransitionFragment.evidenceIds ++
      conflicts.flatMap TwinConflict.evidenceIds

structure SecuritySemanticTwin where
  twinId : ContractId
  entities : List Entity
  relations : List Relation
  facts : List Fact
  transitions : List TransitionFragment
  conflicts : List TwinConflict
  evidenceIds : List ContractId
  entitiesUnique : (entities.map Entity.entityId).Nodup
  relationsUnique : (relations.map Relation.relationId).Nodup
  factsUnique : (facts.map Fact.factId).Nodup
  transitionsUnique : (transitions.map TransitionFragment.transitionId).Nodup
  conflictsUnique : (conflicts.map TwinConflict.conflictId).Nodup
  evidenceUnique : evidenceIds.Nodup
  evidenceExact : ∀ id, id ∈ references entities relations facts transitions conflicts ↔ id ∈ evidenceIds

/-- `SecuritySemanticTwin(..)`. -/
def SecuritySemanticTwin.create (twinId : ContractId) (entities : List Entity) (relations : List Relation)
    (facts : List Fact) (transitions : List TransitionFragment) (conflicts : List TwinConflict)
    (evidenceIds : List ContractId) : Except Exc SecuritySemanticTwin :=
  let invalid message := Except.error (Exc.validationError .securitySemanticTwin message)
  if hentities : (entities.map Entity.entityId).Nodup then
    if hrelations : (relations.map Relation.relationId).Nodup then
      if hfacts : (facts.map Fact.factId).Nodup then
        if htransitions : (transitions.map TransitionFragment.transitionId).Nodup then
          if hconflicts : (conflicts.map TwinConflict.conflictId).Nodup then
            if hevidence : evidenceIds.Nodup then
              if hexact : references entities relations facts transitions conflicts ⊆ evidenceIds ∧
                  evidenceIds ⊆ references entities relations facts transitions conflicts then
                .ok ⟨twinId, entities, relations, facts, transitions, conflicts, evidenceIds, hentities,
                  hrelations, hfacts, htransitions, hconflicts, hevidence,
                  fun _ => ⟨fun h => hexact.1 h, fun h => hexact.2 h⟩⟩
              else invalid "twin evidence index must exactly match referenced evidence"
            else invalid "twin evidence IDs must be unique"
          else invalid "twin conflict_id values must be unique"
        else invalid "twin transition_id values must be unique"
      else invalid "twin fact_id values must be unique"
    else invalid "twin relation_id values must be unique"
  else invalid "twin entity_id values must be unique"

/-! ## Order -/

/-- What is listed by an identifier. -/
class Identified (α : Type) where
  identifier : α → ContractId

instance : Identified Entity := ⟨Entity.entityId⟩
instance : Identified Relation := ⟨Relation.relationId⟩
instance : Identified Fact := ⟨Fact.factId⟩
instance : Identified TransitionFragment := ⟨TransitionFragment.transitionId⟩
instance : Identified TwinConflict := ⟨TwinConflict.conflictId⟩

/-- `ordered`. -/
def ordered {α : Type} [Identified α] (items : List α) : List α :=
  items.insertionSort fun a b => Identified.identifier a ≤ Identified.identifier b

end StateWeaver.Twin
