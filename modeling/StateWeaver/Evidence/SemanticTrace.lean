import Mathlib
import StateWeaver.Replay.Signatures

/-!
# Semantic traces

A trace tells a replay result as events: that the replay started, each step, and that it completed. An event has an
identifier and a hash that are made of its content, and a trace has a hash of its events without the identifier of
the run. The models of traces strip every text that they are given, and check what they were given against hashes that
are computed again.
-/

namespace StateWeaver.Evidence

open Contracts Replay

/-! ## Facts -/

inductive RealityTraceLane where
  | primary | control | patch
  deriving DecidableEq

def RealityTraceLane.value : RealityTraceLane → String
  | .primary => "primary"
  | .control => "control"
  | .patch => "patch"

inductive RealityTraceEventKind where
  | boundary | action
  deriving DecidableEq

def RealityTraceEventKind.value : RealityTraceEventKind → String
  | .boundary => "boundary"
  | .action => "action"

inductive RealityTraceEventType where
  | replayStarted | replayStep | replayCompleted | patchReplayCompleted
  deriving DecidableEq

def RealityTraceEventType.value : RealityTraceEventType → String
  | .replayStarted => "replay.started"
  | .replayStep => "replay.step"
  | .replayCompleted => "replay.completed"
  | .patchReplayCompleted => "patch.replay.completed"

/-- The pattern of `FactName`, which is that of an identifier with any number of parts. -/
def isFactName (s : String) : Bool :=
  hasLength 1 128 s && [.stem, .body].contains (s.toList.foldl ContractIdPhase.next .start)

abbrev FactName := Constrained isFactName

def factName (s : String) (h : isFactName s = true := by decide +kernel) : FactName := ⟨s, h⟩

/-- `RealityTraceFactValue`. -/
inductive FactValue where
  | text (s : String)
  | int (n : Int)
  | bool (b : Bool)
  | texts (l : List String)
  | none_

/-- The value as it is stored. -/
def FactValue.strip : FactValue → FactValue
  | .text s => .text (Constrained.strip s)
  | .texts l => .texts (l.map Constrained.strip)
  | v => v

def FactValue.toValue : FactValue → Value
  | .text s => .scalar (.str s)
  | .int n => .scalar (.int n)
  | .bool b => .scalar (.bool b)
  | .texts l => .list (l.map fun s => .scalar (.str s))
  | .none_ => .scalar .none_

/-- One canonical, typed fact in an event projection. -/
structure RealityTraceFact where
  name : FactName
  value : FactValue

/-- `RealityTraceFact.model_validate`. -/
def RealityTraceFact.validate (f : RealityTraceFact) : RealityTraceFact := ⟨f.name, f.value.strip⟩

def RealityTraceFact.toValue (f : RealityTraceFact) : Value :=
  .mapping [(some "name", f.name.toValue), (some "value", f.value.toValue)]

/-- Facts in the order of their names. -/
def sortedFacts (facts : List RealityTraceFact) : List RealityTraceFact :=
  facts.insertionSort fun f g => f.name ≤ g.name

/-- `_canonical_facts`. -/
def canonicalFacts (values : List (FactName × FactValue)) : List RealityTraceFact :=
  sortedFacts (values.map fun p => RealityTraceFact.validate ⟨p.1, p.2⟩)

/-! ## Events -/

/-- The pattern of `EventId`. -/
def isEventId (s : String) : Bool :=
  s.toList.take 12 == "trace.event:".toList && (s.toList.drop 12).length == 24 &&
    (s.toList.drop 12).all Char.isLowerHex

abbrev EventId := Constrained isEventId

/-- An event without its hash. -/
structure EventContent where
  eventId : EventId
  eventType : RealityTraceEventType
  kind : RealityTraceEventKind
  runId : String
  planId : String
  sequence : Nat
  traceId : TraceId
  stepId : Option String
  payload : List RealityTraceFact

/-- What an event is built from. -/
structure EventFields extends EventContent where
  eventSha256 : Sha256Digest

/-- `_event_kind`. -/
def eventKind (eventType : RealityTraceEventType) (stepId : Option String) : RealityTraceEventKind :=
  if eventType ≠ .replayStep ∨ ∃ id ∈ stepId, id ∈ reservedStepIds then .boundary else .action

/-- What the identifier of an event is made of. -/
def identityValue (eventType : RealityTraceEventType) (runId planId : String) (sequence : Nat)
    (stepId : Option String) : Value :=
  .mapping
    [(some "domain", .scalar (.str "stateweaver.reality.trace-event-id.v2")),
      (some "event_type", .enum eventType.value),
      (some "plan_id", .scalar (.str planId)),
      (some "run_id", .scalar (.str runId)),
      (some "sequence", .scalar (.int sequence)),
      (some "step_id", .scalar (optionalText stepId))]

/-- What a derived trace identifier is made of. -/
def derivedTraceValue (eventType : RealityTraceEventType) (planId : String) (sequence : Nat)
    (stepId : Option String) : Value :=
  .mapping
    [(some "domain", .scalar (.str "stateweaver.reality.event-trace-id.v2")),
      (some "event_type", .enum eventType.value),
      (some "plan_id", .scalar (.str planId)),
      (some "sequence", .scalar (.int sequence)),
      (some "step_id", .scalar (optionalText stepId))]

/-- `_event_projection`. -/
def EventContent.projection (e : EventContent) : Value :=
  .mapping
    [(some "domain", .scalar (.str "stateweaver.reality.trace-event.v2")),
      (some "event_id", e.eventId.toValue),
      (some "event_type", .enum e.eventType.value),
      (some "kind", .enum e.kind.value),
      (some "payload", .list (e.payload.map RealityTraceFact.toValue)),
      (some "plan_id", .scalar (.str e.planId)),
      (some "run_id", .scalar (.str e.runId)),
      (some "sequence", .scalar (.int e.sequence)),
      (some "step_id", .scalar (optionalText e.stepId)),
      (some "trace_id", e.traceId.toValue)]

/-- `semantic_projection`. -/
def EventContent.semanticProjection (e : EventContent) : Value :=
  .mapping
    [(some "event_type", .enum e.eventType.value),
      (some "kind", .enum e.kind.value),
      (some "payload", .list (e.payload.map RealityTraceFact.toValue)),
      (some "plan_id", .scalar (.str e.planId)),
      (some "sequence", .scalar (.int e.sequence)),
      (some "step_id", .scalar (optionalText e.stepId)),
      (some "trace_id", e.traceId.toValue)]

/-- The first digits of a digest, as the identifier of an event. -/
def eventIdOf (digest : Sha256Digest) : EventId :=
  ⟨taggedDigits "trace.event:" 24 digest, by
    obtain ⟨hlength, hdigits⟩ := digits_of_digest digest
    have htag : "trace.event:".toList.length = 12 := by decide +kernel
    rw [isEventId, toList_taggedDigits, ← htag, List.take_left, List.drop_left, List.length_take, hlength]
    simp only [beq_self_eq_true, Bool.true_and]
    exact Bool.and_eq_true_iff.mpr ⟨rfl, List.all_eq_true.mpr fun c hc => hdigits c (List.mem_of_mem_take hc)⟩⟩

/-- An event as its model stores it. -/
def EventFields.strip (f : EventFields) : EventFields :=
  { f with
    runId := Constrained.strip f.runId
    planId := Constrained.strip f.planId
    stepId := f.stepId.map Constrained.strip
    payload := f.payload.map RealityTraceFact.validate }

variable [Sha256]

/-- `_event_id`. -/
def eventIdFor (eventType : RealityTraceEventType) (runId planId : String) (sequence : Nat) (stepId : Option String) :
    Except String EventId := do
  return eventIdOf (← hashOf (identityValue eventType runId planId sequence stepId))

/-- `_derived_trace_id`. -/
def derivedTraceId (eventType : RealityTraceEventType) (planId : String) (sequence : Nat) (stepId : Option String) :
    Except String TraceId := do
  return traceIdOf (← hashOf (derivedTraceValue eventType planId sequence stepId))

/-- What is checked of an event once its texts are stripped. -/
def EventFields.check (e : EventFields) : Except String Unit := do
  Imp.require (isNonEmpty e.runId ∧ isNonEmpty e.planId ∧ ∀ id ∈ e.stepId, isNonEmpty id)
    "String should have 1 to 256 characters"
  Imp.require (e.payload ≠ []) "Tuple should have at least 1 item after validation"
  Imp.require ((e.payload.map RealityTraceFact.name).insertionSort (· ≤ ·) = e.payload.map RealityTraceFact.name ∧
    (e.payload.map RealityTraceFact.name).Nodup) "trace event facts must be unique and canonically ordered"
  Imp.require (e.eventType = .replayStep ↔ e.stepId ≠ none) "only replay step events may carry a step id"
  Imp.require (e.kind = eventKind e.eventType e.stepId) "trace event kind does not match its event type and step"
  let expectedId ← eventIdFor e.eventType e.runId e.planId e.sequence e.stepId
  Imp.require (e.eventId = expectedId) "trace event id does not match its occurrence identity"
  let expectedHash ← hashOf e.projection
  Imp.require (e.eventSha256 = expectedHash) "trace event hash does not match its content"

/-- One occurrence-bound event with a content-derived identity and hash. -/
structure RealityTraceEventV2 extends EventFields where
  stripped : toEventFields.strip = toEventFields
  checked : toEventFields.check = .ok ()

/-! ## Texts that are stripped -/

omit [Sha256] in
/-- A text that does not start with a blank does not if it is cut at the end. -/
theorem dropWhile_of_prefix {α : Type} {p : α → Bool} {l l' : List α} (h : l <+: l') (hl' : l'.dropWhile p = l') :
    l.dropWhile p = l := by
  cases l with
  | nil => rfl
  | cons c l =>
      obtain ⟨rest, rfl⟩ := h
      have hc : p c = false := by
        cases hp : p c with
        | false => rfl
        | true =>
            rw [List.cons_append, List.dropWhile_cons_of_pos hp] at hl'
            have hle := (List.dropWhile_sublist (l := l ++ rest) p).length_le
            rw [hl', List.length_cons] at hle
            omega
      exact List.dropWhile_cons_of_neg (by rw [hc]; exact Bool.false_ne_true)

omit [Sha256] in
theorem strip_strip (s : String) : Constrained.strip (Constrained.strip s) = Constrained.strip s := by
  have htrim : ∀ s : String, Constrained.strip s = String.ofList
      ((s.toList.dropWhile Constrained.isWhitespace).rdropWhile Constrained.isWhitespace) := fun s => rfl
  rw [htrim s, htrim, String.toList_ofList, dropWhile_of_prefix (List.rdropWhile_prefix _ _)
    (List.dropWhile_idempotent _ _), List.rdropWhile_idempotent]

omit [Sha256] in
theorem FactValue.strip_strip (v : FactValue) : v.strip.strip = v.strip := by
  cases v with
  | text s => exact congrArg FactValue.text (Evidence.strip_strip s)
  | texts l =>
      rw [strip, strip, List.map_map]
      exact congrArg FactValue.texts (List.map_congr_left fun s _ => Evidence.strip_strip s)
  | _ => rfl

omit [Sha256] in
theorem validate_validate (f : RealityTraceFact) : f.validate.validate = f.validate := by
  rw [RealityTraceFact.validate, RealityTraceFact.validate, FactValue.strip_strip]

omit [Sha256] in
theorem EventFields.strip_strip (f : EventFields) : f.strip.strip = f.strip := by
  simp only [strip, Evidence.strip_strip, Option.map_map, List.map_map]
  refine congrArg₂ (fun stepId payload => EventFields.mk ⟨f.eventId, f.eventType, f.kind, _, _, f.sequence, f.traceId,
    stepId, payload⟩ f.eventSha256) ?_ (List.map_congr_left fun fact _ => validate_validate fact)
  exact congrArg (Option.map · f.stepId) (funext fun s => Evidence.strip_strip s)

/-! ## Building events -/

/-- `RealityTraceEventV2(..)`. -/
def RealityTraceEventV2.ofFields (f : EventFields) : Except String RealityTraceEventV2 :=
  match h : f.strip.check with
  | .error e => .error e
  | .ok () => .ok ⟨f.strip, f.strip_strip, h⟩

/-- `trace_id or _derived_trace_id(..)`. -/
def resolveTraceId (traceId : Option TraceId) (eventType : RealityTraceEventType) (planId : String) (sequence : Nat)
    (stepId : Option String) : Except String TraceId :=
  match traceId with
  | some traceId => .ok traceId
  | none => derivedTraceId eventType planId sequence stepId

/-- An event with its hash. -/
def EventContent.withHash (content : EventContent) : Except String RealityTraceEventV2 := do
  let eventSha256 ← hashOf content.projection
  RealityTraceEventV2.ofFields ⟨content, eventSha256⟩

/-- `RealityTraceEventV2.create`. -/
def RealityTraceEventV2.create (eventType : RealityTraceEventType) (runId planId : String) (sequence : Nat)
    (traceId : Option TraceId) (stepId : Option String) (payload : List RealityTraceFact) :
    Except String RealityTraceEventV2 := do
  let resolvedTraceId ← resolveTraceId traceId eventType planId sequence stepId
  let eventId ← eventIdFor eventType runId planId sequence stepId
  EventContent.withHash
    { eventId, eventType, kind := eventKind eventType stepId, runId, planId, sequence, traceId := resolvedTraceId, stepId
      payload := sortedFacts (payload.map RealityTraceFact.validate) }

/-! ## Traces -/

/-- How the completion event of a lane is called. -/
def RealityTraceLane.completedType : RealityTraceLane → RealityTraceEventType
  | .patch => .patchReplayCompleted
  | _ => .replayCompleted

/-- What `_semantic_trace_sha256` hashes. -/
def semanticValue (lane : RealityTraceLane) (planId : String) (replayTraceHash : Sha256Digest)
    (events : List RealityTraceEventV2) : Value :=
  .mapping
    [(some "algorithm", .scalar (.str "stateweaver.replay-step-events.v1")),
      (some "domain", .scalar (.str "stateweaver.reality.semantic-trace.v2")),
      (some "events", .list (events.map fun event => event.semanticProjection)),
      (some "lane", .enum lane.value),
      (some "plan_id", .scalar (.str planId)),
      (some "replay_trace_hash", replayTraceHash.toValue),
      (some "schema_version", .scalar (.str "2.0"))]

/-- What a trace is built from. -/
structure ArtifactFields where
  lane : RealityTraceLane
  runId : String
  planId : String
  replayTraceHash : Sha256Digest
  semanticTraceHash : Sha256Digest
  events : List RealityTraceEventV2

/-- What is checked of a trace once its texts are stripped. -/
def ArtifactFields.check (a : ArtifactFields) : Except String Unit := do
  Imp.require (isNonEmpty a.runId ∧ isNonEmpty a.planId) "String should have 1 to 256 characters"
  Imp.require (3 ≤ a.events.length) "Tuple should have at least 3 items after validation"
  Imp.require (a.events.map (·.sequence) = List.range a.events.length)
    "trace event sequences must be contiguous and ordered"
  Imp.require (a.events.map (·.eventId)).Nodup "trace event ids must be unique"
  Imp.require (∀ event ∈ a.events, event.runId = a.runId) "trace events must bind the artifact run id"
  Imp.require (∀ event ∈ a.events, event.planId = a.planId) "trace events must bind the artifact plan id"
  Imp.require (a.events.head?.map (·.eventType) = some .replayStarted) "trace must start with replay.started"
  Imp.require (a.events.getLast?.map (·.eventType) = some a.lane.completedType)
    "trace completion event does not match its lane"
  Imp.require (∀ event ∈ a.events.tail.dropLast, event.eventType = .replayStep)
    "trace interior must contain only replay.step events"
  Imp.require (a.events.tail.dropLast.map (·.stepId)).Nodup "trace step event ids must be unique"
  let expectedHash ← hashOf (semanticValue a.lane a.planId a.replayTraceHash a.events)
  Imp.require (a.semanticTraceHash = expectedHash) "semantic trace hash does not match event semantics"

/-- A replay trace whose complete event narrative is deterministically reconstructable. -/
structure RealityTraceArtifactV2 extends ArtifactFields where
  checked : toArtifactFields.check = .ok ()

/-- A trace as its model stores it, of events that were validated. -/
def ArtifactFields.strip (f : ArtifactFields) : ArtifactFields :=
  { f with runId := Constrained.strip f.runId, planId := Constrained.strip f.planId }

/-- `RealityTraceArtifactV2(..)`. -/
def RealityTraceArtifactV2.ofFields (f : ArtifactFields) : Except String RealityTraceArtifactV2 :=
  match h : f.strip.check with
  | .error e => .error e
  | .ok () => .ok ⟨f.strip, h⟩

/-- `RealityTraceArtifactV2.create`. The events are validated before they are hashed and again when the trace is
built. -/
def RealityTraceArtifactV2.create (lane : RealityTraceLane) (runId planId : String) (replayTraceHash : Sha256Digest)
    (events : List RealityTraceEventV2) : Except String RealityTraceArtifactV2 := do
  let validated ← events.mapM fun event => RealityTraceEventV2.ofFields event.toEventFields
  let semanticTraceHash ← hashOf (semanticValue lane planId replayTraceHash validated)
  let events ← validated.mapM fun event => RealityTraceEventV2.ofFields event.toEventFields
  RealityTraceArtifactV2.ofFields { lane, runId, planId, replayTraceHash, semanticTraceHash, events }

/-! ## From a replay result -/

omit [Sha256] in
/-- A text, or none. -/
def FactValue.ofOption {pattern : String → Bool} : Option (Constrained pattern) → FactValue
  | none => .none_
  | some s => .text s.val

/-- What the hash of a failure message is made of. -/
def failureMessageValue (message : FailureMessage) : Value :=
  .mapping [(some "domain", .scalar (.str "stateweaver.reality.failure-message.v1")), (some "message", message.toValue)]

/-- `_failure_message_sha256`. -/
def failureMessageSha256 : Option FailureMessage → Except String (Option Sha256Digest)
  | none => .ok none
  | some message => do return some (← hashOf (failureMessageValue message))

/-- A fact about the action of a step, if there is one. -/
def actionFact (action : Option ReplayActionLogEntry) (value : ReplayActionLogEntry → FactValue) : FactValue :=
  (action.map value).getD .none_

omit [Sha256] in
/-- The facts of a step. -/
def stepFacts (step : ReplayStepResult) (action : Option ReplayActionLogEntry) (failureMessage : Option Sha256Digest)
    (observed evaluated : Sha256Digest) : List (FactName × FactValue) :=
  [(factName "action_id", actionFact action fun entry => .text entry.actionId.val),
    (factName "action_sequence", actionFact action fun entry => .int entry.sequence),
    (factName "action_trace_id", actionFact action fun entry => .text entry.traceId.val),
    (factName "action_type", actionFact action fun entry => .text entry.actionType.val),
    (factName "after_fingerprint", .ofOption step.afterFingerprint),
    (factName "before_fingerprint", .ofOption step.beforeFingerprint),
    (factName "envelope_hash", actionFact action fun entry => .text entry.envelopeHash.val),
    (factName "evidence_ids", .texts (step.evidenceIds.map Constrained.val)),
    (factName "failure_code", .ofOption step.failureCode),
    (factName "failure_message_sha256", .ofOption failureMessage),
    (factName "idempotency_key", actionFact action fun entry => .text entry.idempotencyKey.val),
    (factName "observation_hash", .text observed.val),
    (factName "oracle_results_hash", .text evaluated.val),
    (factName "parameter_artifact", actionFact action fun entry => .ofOption entry.parameterArtifact),
    (factName "policy_decision_ref", actionFact action fun entry => .text entry.policyDecisionRef.val),
    (factName "request_template_hash", actionFact action fun entry => .text entry.requestTemplateHash.val),
    (factName "status", .text step.status.value)]

/-- `_step_payload`. -/
def stepPayload (step : ReplayStepResult) (action : Option ReplayActionLogEntry) :
    Except String (List RealityTraceFact) := do
  let failureMessage ← failureMessageSha256 step.failureMessage
  let observed ← observationHash step.observations
  let evaluated ← oracleResultsHash step.oracleResults
  return canonicalFacts (stepFacts step action failureMessage observed evaluated)

/-- The entry of a step in the action log. -/
def actionOf (result : ReplayRunResult) (step : ReplayStepResult) : Option ReplayActionLogEntry :=
  result.actionLog.find? fun entry => entry.stepId = step.stepId

/-- The event of a step. -/
def stepEvent (result : ReplayRunResult) (sequence : Nat) (step : ReplayStepResult) :
    Except String RealityTraceEventV2 := do
  Imp.require (step.stepId.val ∈ reservedStepIds ∨ actionOf result step ≠ none)
    "replay action step is missing its typed action-log entry"
  let traceId ← resolveTraceId ((actionOf result step).map ReplayActionLogEntry.traceId) .replayStep result.planId.val
    sequence (some step.stepId.val)
  let payload ← stepPayload step (actionOf result step)
  RealityTraceEventV2.create .replayStep result.runId.val result.planId.val sequence (some traceId)
    (some step.stepId.val) payload

/-- The facts that a trace starts with. -/
def startedPayload (result : ReplayRunResult) (lane : RealityTraceLane) : List RealityTraceFact :=
  canonicalFacts
    [(factName "lane", .text lane.value), (factName "root_fingerprint", .ofOption result.rootFingerprint)]

/-- The facts that a trace ends with. -/
def completedPayload (result : ReplayRunResult) : List RealityTraceFact :=
  canonicalFacts
    [(factName "failed_step_id", .ofOption result.failedStepId),
      (factName "final_fingerprint", .ofOption result.finalFingerprint),
      (factName "replay_trace_hash", .text result.traceHash.val), (factName "run_status", .text result.status.value)]

/-- `from_replay_result`, of a result that was validated. -/
def RealityTraceArtifactV2.fromReplayResult (result : ReplayRunResult) (lane : RealityTraceLane) :
    Except String RealityTraceArtifactV2 := do
  let started ← RealityTraceEventV2.create .replayStarted result.runId.val result.planId.val 0 none none
    (startedPayload result lane)
  let steps ← (result.steps.zipIdx 1).mapM fun p => stepEvent result p.2 p.1
  let completed ← RealityTraceEventV2.create lane.completedType result.runId.val result.planId.val
    (steps.length + 1) none none (completedPayload result)
  RealityTraceArtifactV2.create lane result.runId.val result.planId.val result.traceHash
    (started :: steps ++ [completed])

end StateWeaver.Evidence
