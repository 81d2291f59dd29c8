import StateWeaver.Contracts.Actions
import StateWeaver.Contracts.Digests
import StateWeaver.Lib.HashChain

/-!
# Events and their history

An event carries the digest of its payload, a digest of all that it says, with the hash of the event
before it, and an identifier made from that. A history is a chain of such events; its head is the hash
of the last one.
-/

namespace StateWeaver.Contracts

/-! ## Events -/

/-- The pattern of `TraceId`. -/
def isTraceId (s : String) : Bool := s.toList.length == 32 && s.toList.all Char.isLowerHex

abbrev TraceId := Constrained isTraceId

inductive EventType where
  | experimentCreated | scopeValidated | baselineCaptureStarted | baselineCaptureCompleted
  | twinFactUpserted | twinTransitionLearned | twinDivergenceDetected | hypothesisProposed
  | worldForked | worldPromoted | worldPruned | worldPromotionLifecycle
  | worldMaterializationStarted | worldMaterializationCompleted | actionProposed | actionAuthorized
  | actionExecuted | observationCaptured | oracleViolated | fragmentExtracted | chainCompiled
  | replayStarted | replayCompleted | findingVerified | findingRejected | patchReplayCompleted
  deriving DecidableEq

def EventType.value : EventType → String
  | .experimentCreated => "experiment.created"
  | .scopeValidated => "scope.validated"
  | .baselineCaptureStarted => "baseline.capture.started"
  | .baselineCaptureCompleted => "baseline.capture.completed"
  | .twinFactUpserted => "twin.fact.upserted"
  | .twinTransitionLearned => "twin.transition.learned"
  | .twinDivergenceDetected => "twin.divergence.detected"
  | .hypothesisProposed => "hypothesis.proposed"
  | .worldForked => "world.forked"
  | .worldPromoted => "world.promoted"
  | .worldPruned => "world.pruned"
  | .worldPromotionLifecycle => "world.promotion.lifecycle"
  | .worldMaterializationStarted => "world.materialization.started"
  | .worldMaterializationCompleted => "world.materialization.completed"
  | .actionProposed => "action.proposed"
  | .actionAuthorized => "action.authorized"
  | .actionExecuted => "action.executed"
  | .observationCaptured => "observation.captured"
  | .oracleViolated => "oracle.violated"
  | .fragmentExtracted => "fragment.extracted"
  | .chainCompiled => "chain.compiled"
  | .replayStarted => "replay.started"
  | .replayCompleted => "replay.completed"
  | .findingVerified => "finding.verified"
  | .findingRejected => "finding.rejected"
  | .patchReplayCompleted => "patch.replay.completed"

def RequesterType.value : RequesterType → String
  | .human => "human"
  | .model => "model"
  | .workflow => "workflow"
  | .adapter => "adapter"

/-- The texts of a JSON value: those among its scalars, and its keys. -/
def jsonTexts (v : PlainJson) : List String :=
  v.keys ++ v.scalars.filterMap fun
    | .str s => some s
    | _ => none

/-- A JSON object as it is stored after validation: its keys are distinct, its numbers are finite and
its texts have no surrounding whitespace. -/
structure Payload where
  entries : List (String × PlainJson)
  distinct : (Json.obj entries).Distinct
  finite : ∀ s ∈ (Json.obj entries).scalars, s.IsFinite
  stripped : ∀ s ∈ jsonTexts (.obj entries), Constrained.strip s = s

/-- What `EventEnvelope.create` is called with: all of an event but its hashes. -/
structure EventContent where
  eventType : EventType
  experimentId : ContractId
  runId : ContractId
  actor : RequestedBy
  traceId : TraceId
  timestamp : Instant
  payload : Payload
  worldId : Option ContractId := none
  sequence : Nat := 1
  prevEventHash : Option Sha256Digest := none
  sequencePositive : 0 < sequence

/-- An event. Its hashes are what a caller says they are, until they are checked. -/
structure EventEnvelope extends EventContent where
  eventId : Sha256Digest
  payloadHash : Sha256Digest
  semanticHash : Sha256Digest

/-! ## Hashes -/

/-- `None` or a text. -/
def optionalText : Option String → Py.Scalar
  | none => .none_
  | some s => .str s

/-- The fields of a model. -/
def RequestedBy.toValue (actor : RequestedBy) : Value :=
  .mapping
    [(some "type", .enum actor.type.value),
      (some "role", .scalar (.str actor.role.val)),
      (some "actor_id", .scalar (optionalText (actor.actorId.map Constrained.val)))]

def Payload.toValue (payload : Payload) : Value := .ofJson (.obj payload.entries)

/-- What `_semantic_hash` hashes. -/
def EventContent.semanticValue (e : EventContent) (payloadHash : Sha256Digest) : Value :=
  .mapping
    [(some "domain", .scalar (.str "stateweaver.event.semantic.v2")),
      (some "schema_version", .scalar (.str "2.0")),
      (some "event_type", .enum e.eventType.value),
      (some "experiment_id", .scalar (.str e.experimentId.val)),
      (some "run_id", .scalar (.str e.runId.val)),
      (some "world_id", .scalar (optionalText (e.worldId.map Constrained.val))),
      (some "actor", e.actor.toValue),
      (some "trace_id", .scalar (.str e.traceId.val)),
      (some "timestamp", .datetime (some e.timestamp)),
      (some "sequence", .scalar (.int e.sequence)),
      (some "prev_event_hash", .scalar (optionalText (e.prevEventHash.map Constrained.val))),
      (some "payload_hash", .scalar (.str payloadHash.val))]

/-- What `_event_id` hashes. -/
def eventIdValue (semanticHash : Sha256Digest) : Value :=
  .mapping
    [(some "domain", .scalar (.str "stateweaver.event.id.v2")),
      (some "semantic_hash", .scalar (.str semanticHash.val))]

variable [Sha256]

/-- `integrity_fields_match_content`. -/
def EventEnvelope.integrityFieldsMatchContent (e : EventEnvelope) : Except String Unit := do
  let payloadHash ← digestOf e.payload.toValue
  Imp.require (e.payloadHash = payloadHash) "payload_hash does not match canonical payload"
  let expectedSemanticHash ← digestOf (e.semanticValue e.payloadHash)
  Imp.require (e.semanticHash = expectedSemanticHash)
    "semantic_hash does not match the canonical event projection"
  let eventId ← digestOf (eventIdValue e.semanticHash)
  Imp.require (e.eventId = eventId) "event_id does not match semantic_hash"

/-- `EventEnvelope.create`. -/
def EventEnvelope.create (content : EventContent) : Except String EventEnvelope := do
  let payloadHash ← digestOf content.payload.toValue
  let semanticHash ← digestOf (content.semanticValue payloadHash)
  let eventId ← digestOf (eventIdValue semanticHash)
  let e : EventEnvelope := ⟨content, eventId, payloadHash, semanticHash⟩
  e.integrityFieldsMatchContent
  return e

/-! ## Histories -/

/-- A history of events, as a caller says it is. -/
structure EventHistory where
  experimentId : ContractId
  runId : ContractId
  eventCount : Nat
  headHash : Sha256Digest
  historyHash : Sha256Digest
  events : List EventEnvelope
  eventCountPositive : 0 < eventCount

/-- What `_history_hash` hashes. -/
def historyValue (experimentId runId : ContractId) (eventCount : Nat) (headHash : Sha256Digest)
    (events : List EventEnvelope) : Value :=
  .mapping
    [(some "domain", .scalar (.str "stateweaver.event.history.v2")),
      (some "schema_version", .scalar (.str "2.0")),
      (some "experiment_id", .scalar (.str experimentId.val)),
      (some "run_id", .scalar (.str runId.val)),
      (some "event_count", .scalar (.int eventCount)),
      (some "head_hash", .scalar (.str headHash.val)),
      (some "events", .list (events.map fun e =>
        .mapping
          [(some "event_id", .scalar (.str e.eventId.val)),
            (some "semantic_hash", .scalar (.str e.semanticHash.val))]))]

omit [Sha256] in
/-- What is checked between an event and the one before it. -/
def checkPrevious (e : EventEnvelope) : Option EventEnvelope → Except String Unit
  | none => Imp.require (e.prevEventHash = none) "the first event must not have prev_event_hash"
  | some previous => do
      Imp.require (e.prevEventHash = some previous.semanticHash)
        "event prev_event_hash does not match the preceding event"
      Imp.require (previous.timestamp.microseconds ≤ e.timestamp.microseconds)
        "event timestamps must be nondecreasing"

omit [Sha256] in
/-- The loop over the events, from a sequence number and the event before on. -/
def checkEvents (experimentId runId : ContractId) :
    Nat → Option EventEnvelope → List EventEnvelope → Except String Unit
  | _, _, [] => .ok ()
  | expectedSequence, previous, e :: events => do
      Imp.require (e.sequence = expectedSequence)
        "event history sequence must be exactly 1..event_count"
      Imp.require (e.experimentId = experimentId ∧ e.runId = runId)
        "every event must match the history experiment_id and run_id"
      checkPrevious e previous
      checkEvents experimentId runId (expectedSequence + 1) (some e) events

/-- `history_is_exact_and_self_consistent`. -/
def EventHistory.historyIsExactAndSelfConsistent (h : EventHistory) : Except String Unit := do
  Imp.forEach h.events EventEnvelope.integrityFieldsMatchContent
  match h.events.getLast? with
  | none => .error "event history must not be empty"
  | some last => do
      Imp.require (h.eventCount = h.events.length) "event_count does not match events"
      Imp.require (h.events.map EventEnvelope.eventId).Nodup
        "event history event_id values must be unique"
      checkEvents h.experimentId h.runId 1 none h.events
      Imp.require (h.headHash = last.semanticHash) "head_hash does not match the final event"
      let expectedHistoryHash ←
        digestOf (historyValue h.experimentId h.runId h.eventCount h.headHash h.events)
      Imp.require (h.historyHash = expectedHistoryHash)
        "history_hash does not match the canonical event history"

/-- `EventHistory.create`. -/
def EventHistory.create (experimentId runId : ContractId) (events : List EventEnvelope) :
    Except String EventHistory := do
  match hlast : events.getLast? with
  | none => .error "event history must not be empty"
  | some last => do
      let historyHash ←
        digestOf (historyValue experimentId runId events.length last.semanticHash events)
      let h : EventHistory :=
        ⟨experimentId, runId, events.length, last.semanticHash, historyHash, events,
          List.length_pos_of_mem (List.mem_of_getLast? hlast)⟩
      h.historyIsExactAndSelfConsistent
      return h

end StateWeaver.Contracts
