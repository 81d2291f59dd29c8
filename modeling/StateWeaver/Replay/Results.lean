import StateWeaver.Contracts.Identifiers
import StateWeaver.Contracts.Oracles
import StateWeaver.Lib.Firsts
import StateWeaver.Replay.Digests
import StateWeaver.Replay.Plans

/-!
# Results of replays

A step result says what was observed, or why the step failed. A run result has the step results, an action
log with an entry for each step of the plan among them, and a hash of all but its own identifier. What is
checked of them is checked when they are built.
-/

namespace StateWeaver.Replay

open Contracts

/-! ## Step results -/

/-- Redacted machine observation. -/
structure ReplayObservation where
  observationId : NonEmpty
  kind : NonEmpty
  payload : JsonObject
  evidenceIds : List NonEmpty := []

inductive ReplayStepStatus where
  | passed | failed | skipped
  deriving DecidableEq

def ReplayStepStatus.value : ReplayStepStatus → String
  | .passed => "passed"
  | .failed => "failed"
  | .skipped => "skipped"

/-- The constraint of a failure message. -/
def isFailureMessage (s : String) : Bool := hasLength 0 500 s

abbrev FailureMessage := Constrained isFailureMessage

/-- What a step result says of a failure. -/
structure FailureDetails where
  failureCode : Option NonEmpty := none
  failureMessage : Option FailureMessage := none
  deriving DecidableEq

/-- `has_failure`. -/
def FailureDetails.hasFailure (f : FailureDetails) : Bool := f.failureCode.isSome || f.failureMessage.isSome

structure ReplayStepResult extends FailureDetails where
  stepId : NonEmpty
  status : ReplayStepStatus
  beforeFingerprint : Option Sha256Digest := none
  afterFingerprint : Option Sha256Digest := none
  observations : List ReplayObservation := []
  oracleResults : List OracleResult := []
  failedExplained : status = .failed → toFailureDetails.hasFailure = true
  othersUnexplained : status ≠ .failed → toFailureDetails.hasFailure = false

/-! ## The action log -/

theorem isNonEmpty_of_isContractId {s : String} (h : isContractId s = true) : isNonEmpty s = true := by
  rw [isContractId, Bool.and_eq_true, hasLength, Bool.and_eq_true] at h
  rw [isNonEmpty, hasLength, Bool.and_eq_true]
  simp only [decide_eq_true_eq] at h ⊢
  omega

/-- An identifier of a contract is a text here. -/
def ofContractId (id : ContractId) : NonEmpty := ⟨id.val, isNonEmpty_of_isContractId id.matchesPattern⟩

/-- The evidence of a step, in the order of its first mention. -/
def ReplayStepResult.evidenceIds (result : ReplayStepResult) : List NonEmpty :=
  List.firstsFrom id [] (result.observations.flatMap ReplayObservation.evidenceIds ++
    result.oracleResults.flatMap fun oracle => oracle.evidenceIds.map ofContractId)

/-- Content-addressed causal record for one planned replay action. -/
structure ReplayActionLogEntry where
  stepId : NonEmpty
  action : ActionEnvelope
  actionId : NonEmpty
  actionType : NonEmpty
  sequence : Nat
  status : ReplayStepStatus
  idempotencyKey : Sha256Digest
  policyDecisionRef : NonEmpty
  traceId : TraceId
  parameterArtifact : Option ArtifactHandle
  envelopeHash : Sha256Digest
  requestTemplateHash : Sha256Digest
  beforeFingerprint : Option Sha256Digest
  afterFingerprint : Option Sha256Digest
  observationHash : Sha256Digest
  oracleResultsHash : Sha256Digest
  evidenceIds : List NonEmpty
  evidenceUnique : evidenceIds.Nodup

/-- The body of an HTTP request. -/
def bodyArtifact : Action → Option ArtifactHandle
  | .httpRequest action => action.bodyArtifact
  | _ => none

/-- The first digits of a digest. -/
def traceIdOf (digest : Sha256Digest) : TraceId :=
  ⟨String.ofList ((digest.val.toList.drop 7).take 32), by
    obtain ⟨hlength, hdigits⟩ := digits_of_digest digest
    rw [isTraceId, Bool.and_eq_true, String.toList_ofList, List.length_take, hlength]
    exact ⟨rfl, List.all_eq_true.mpr fun c hc => hdigits c (List.mem_of_mem_take hc)⟩⟩

/-- What a trace identifier is made of. -/
def causalValue (planId stepId : NonEmpty) (envelopeHash : Sha256Digest) : Value :=
  .mapping
    [(some "plan_id", planId.toValue),
      (some "step_id", stepId.toValue),
      (some "envelope_hash", envelopeHash.toValue)]

/-! ## Run results -/

inductive ReplayRunStatus where
  | succeeded | failed | rootDiverged | cleanupFailed
  deriving DecidableEq

def ReplayRunStatus.value : ReplayRunStatus → String
  | .succeeded => "succeeded"
  | .failed => "failed"
  | .rootDiverged => "root_diverged"
  | .cleanupFailed => "cleanup_failed"

/-- What a replay did: all of its result but the identifier of the run and the hash. -/
structure RunContent where
  planId : NonEmpty
  status : ReplayRunStatus
  rootFingerprint : Option Sha256Digest
  finalFingerprint : Option Sha256Digest
  steps : List ReplayStepResult
  actionLog : List ReplayActionLogEntry
  failedStepId : Option NonEmpty

/-! ## What is written -/

def ReplayObservation.toValue (o : ReplayObservation) : Value :=
  .mapping
    [(some "observation_id", o.observationId.toValue),
      (some "kind", o.kind.toValue),
      (some "payload", o.payload.toValue),
      (some "evidence_ids", .list (o.evidenceIds.map Constrained.toValue))]

def ReplayStepResult.toValue (r : ReplayStepResult) : Value :=
  .mapping
    [(some "step_id", r.stepId.toValue),
      (some "status", .enum r.status.value),
      (some "before_fingerprint", optional Constrained.toValue r.beforeFingerprint),
      (some "after_fingerprint", optional Constrained.toValue r.afterFingerprint),
      (some "observations", .list (r.observations.map ReplayObservation.toValue)),
      (some "oracle_results", .list (r.oracleResults.map OracleResult.toValue)),
      (some "failure_code", optional Constrained.toValue r.failureCode),
      (some "failure_message", optional Constrained.toValue r.failureMessage)]

def ReplayActionLogEntry.toValue (e : ReplayActionLogEntry) : Value :=
  .mapping
    [(some "step_id", e.stepId.toValue),
      (some "action", e.action.toValue),
      (some "action_id", e.actionId.toValue),
      (some "action_type", e.actionType.toValue),
      (some "sequence", .scalar (.int e.sequence)),
      (some "status", .enum e.status.value),
      (some "idempotency_key", e.idempotencyKey.toValue),
      (some "policy_decision_ref", e.policyDecisionRef.toValue),
      (some "trace_id", e.traceId.toValue),
      (some "parameter_artifact", optional Constrained.toValue e.parameterArtifact),
      (some "envelope_hash", e.envelopeHash.toValue),
      (some "request_template_hash", e.requestTemplateHash.toValue),
      (some "before_fingerprint", optional Constrained.toValue e.beforeFingerprint),
      (some "after_fingerprint", optional Constrained.toValue e.afterFingerprint),
      (some "observation_hash", e.observationHash.toValue),
      (some "oracle_results_hash", e.oracleResultsHash.toValue),
      (some "evidence_ids", .list (e.evidenceIds.map Constrained.toValue))]

/-- What the trace hash and the deterministic signature hash. -/
def RunContent.traceValue (r : RunContent) : Value :=
  .mapping
    [(some "plan_id", r.planId.toValue),
      (some "status", .enum r.status.value),
      (some "root_fingerprint", optional Constrained.toValue r.rootFingerprint),
      (some "final_fingerprint", optional Constrained.toValue r.finalFingerprint),
      (some "steps", .list (r.steps.map ReplayStepResult.toValue)),
      (some "action_log", .list (r.actionLog.map ReplayActionLogEntry.toValue)),
      (some "failed_step_id", optional Constrained.toValue r.failedStepId)]

/-! ## Validation -/

variable [Sha256]

/-- The hash of the observations of a step. -/
def observationHash (observations : List ReplayObservation) : Except String Sha256Digest :=
  hashOf (.list (observations.map ReplayObservation.toValue))

def oracleResultsHash (results : List OracleResult) : Except String Sha256Digest :=
  hashOf (.list (results.map OracleResult.toValue))

/-- The trace identifier of a step of a plan. -/
def causalTraceId (planId stepId : NonEmpty) (envelopeHash : Sha256Digest) : Except String TraceId := do
  return traceIdOf (← hashOf (causalValue planId stepId envelopeHash))

/-- `duplicated_action_fields_match_envelope`. -/
def ReplayActionLogEntry.duplicatedActionFieldsMatchEnvelope (e : ReplayActionLogEntry) :
    Except String Unit := do
  let mismatch := "action-log metadata does not match its typed envelope"
  Imp.require (e.actionId.val = e.action.actionId.val ∧ e.actionType.val = e.action.action.type ∧
    e.sequence = e.action.sequence ∧ e.idempotencyKey = e.action.idempotencyKey ∧
    e.policyDecisionRef.val = e.action.policyDecisionRef.val ∧
    e.parameterArtifact = bodyArtifact e.action.action) mismatch
  let envelopeHash ← hashOf e.action.toValue
  Imp.require (e.envelopeHash = envelopeHash) mismatch
  let requestTemplateHash ← hashOf e.action.action.toValue
  Imp.require (e.requestTemplateHash = requestTemplateHash) mismatch

/-- What is checked of a log entry against the step results. -/
def RunContent.checkEntry (r : RunContent) (entry : ReplayActionLogEntry) : Except String Unit := do
  match r.steps.find? fun step => step.stepId = entry.stepId with
  | none => .error "action-log status does not match its replay step"
  | some result => do
      Imp.require (result.status = entry.status) "action-log status does not match its replay step"
      let mismatch := "action-log result hashes do not match the replay step"
      Imp.require (entry.beforeFingerprint = result.beforeFingerprint ∧
        entry.afterFingerprint = result.afterFingerprint) mismatch
      let observed ← observationHash result.observations
      Imp.require (entry.observationHash = observed) mismatch
      let evaluated ← oracleResultsHash result.oracleResults
      Imp.require (entry.oracleResultsHash = evaluated) mismatch
      Imp.require (entry.evidenceIds = result.evidenceIds) mismatch
      let expectedTraceId ← causalTraceId r.planId entry.stepId entry.envelopeHash
      Imp.require (entry.traceId = expectedTraceId) "action-log trace ID does not match its causal inputs"

/-- The failed steps. -/
def RunContent.failedSteps (r : RunContent) : List ReplayStepResult := r.steps.filter (·.status = .failed)

/-- What is checked of the status of a run. -/
def RunContent.checkStatus (r : RunContent) : Except String Unit :=
  if r.status = .succeeded then do
    Imp.require (r.steps ≠ [] ∧ ∀ step ∈ r.steps, step.status = .passed)
      "a successful replay requires only passed action steps"
    Imp.require (r.rootFingerprint ≠ none ∧ r.finalFingerprint ≠ none)
      "a successful replay requires root and final fingerprints"
    Imp.require (r.failedStepId = none) "a successful replay cannot identify a failed step"
  else
    match r.failedSteps with
    | [] => .error "a non-successful replay requires a failed boundary step"
    | first :: _ => do
        Imp.require (r.failedStepId = some first.stepId)
          "failed_step_id must identify the first failed boundary step"
        Imp.require (r.status = .rootDiverged → first.stepId.val = "root" ∧
            first.failureCode.map Constrained.val = some "ROOT_FINGERPRINT_MISMATCH")
          "root-diverged status requires a root fingerprint failure"

/-- `action_log_matches_step_results`. -/
def RunContent.actionLogMatchesStepResults (r : RunContent) (traceHash : Sha256Digest) :
    Except String Unit := do
  Imp.require (r.steps.map ReplayStepResult.stepId).Nodup "replay result step IDs must be unique"
  r.checkStatus
  Imp.require (r.status = .cleanupFailed ↔ ∃ step ∈ r.failedSteps, step.stepId.val = "cleanup")
    "cleanup-failed status must match a cleanup boundary failure"
  let logIds := r.actionLog.map ReplayActionLogEntry.stepId
  Imp.require logIds.Nodup "action-log step IDs must be unique"
  Imp.require (logIds = (r.steps.map ReplayStepResult.stepId).filter fun id => id.val ∉ reservedStepIds)
    "action log must match replay action-step order exactly"
  Imp.forEach r.actionLog r.checkEntry
  let expectedTraceHash ← hashOf r.traceValue
  Imp.require (traceHash = expectedTraceHash) "trace_hash does not match replay result content"

/-- The result of a replay. -/
structure ReplayRunResult extends RunContent where
  runId : NonEmpty
  traceHash : Sha256Digest
  entriesMatch : ∀ entry ∈ actionLog, entry.duplicatedActionFieldsMatchEnvelope = .ok ()
  logMatches : toRunContent.actionLogMatchesStepResults traceHash = .ok ()

/-- `deterministic_signature`. -/
def ReplayRunResult.deterministicSignature (r : ReplayRunResult) : Except String Sha256Digest :=
  hashOf r.traceValue

/-- `ReplayRunResult(..)`, of entries that were checked when they were built. -/
def ReplayRunResult.create (runId : String) (content : RunContent) (traceHash : Sha256Digest)
    (hentries : ∀ entry ∈ content.actionLog, entry.duplicatedActionFieldsMatchEnvelope = .ok ()) :
    Except String ReplayRunResult := do
  let runId ← nonEmpty runId
  match hmatches : content.actionLogMatchesStepResults traceHash with
  | .error e => .error e
  | .ok () => return ⟨content, runId, traceHash, hentries, hmatches⟩

end StateWeaver.Replay
