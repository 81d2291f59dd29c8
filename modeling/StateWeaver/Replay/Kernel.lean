import StateWeaver.Replay.Signatures

/-!
# The replay kernel

A replay restores the root, executes the steps of the plan until one fails, and cleans up. Whatever an
adapter does at a call is recorded in the result.

In one replay an adapter is asked for each of its answers at most once, so what it does is the answers it
gives, and the calls that are made are written down beside the result.
-/

namespace StateWeaver.Replay

open Contracts

/-! ## Adapters -/

/-- Why an awaited call does not return: it takes too long, or it raises an exception, here by the name of
its class. -/
inductive Failure where
  | timedOut
  | raised (className : String)

/-- What an awaited call ends in. -/
abbrev Answer (α : Type) := Except Failure α

/-- A capture of the state. The kernel reads its fingerprint. -/
structure StateCapture where
  fingerprint : Sha256Digest

structure RootSeed where
  rootSeedId : NonEmpty
  capture : StateCapture

/-- The answers to the calls of one step. -/
structure StepAnswers where
  /-- The capture before the action. -/
  before : Answer StateCapture
  execute : Answer (List ReplayObservation)
  /-- The capture after the action. -/
  after : Answer StateCapture
  evaluate : OracleExpectation → Answer OracleResult
  /-- The capture that is tried after a failure. -/
  recovery : Answer StateCapture

/-- The answers of the environment and of the oracles in one replay. -/
structure Adapters where
  reset : Answer StateCapture
  step : ReplayStep → StepAnswers
  cleanup : Answer Unit

inductive Call where
  | reset
  | capture
  | execute (action : ActionEnvelope)
  | evaluate (oracleId : NonEmpty)
  | cleanup
  deriving DecidableEq

/-! ## Failures -/

/-- Where a replay or a step is. -/
inductive Phase where
  | reset | replay | captureBefore | execute | captureAfter | oracle

/-- The name of a phase, in capitals. -/
def Phase.upper : Phase → String
  | .reset => "RESET"
  | .replay => "REPLAY"
  | .captureBefore => "CAPTURE_BEFORE"
  | .execute => "EXECUTE"
  | .captureAfter => "CAPTURE_AFTER"
  | .oracle => "ORACLE"

/-- The failure code of a call in a phase. -/
def Phase.code (phase : Phase) : Failure → NonEmpty
  | .timedOut => ⟨phase.upper ++ "_TIMEOUT", by cases phase <;> decide +kernel⟩
  | .raised _ => ⟨phase.upper ++ "_FAILURE", by cases phase <;> decide +kernel⟩

/-- Validate a failure message. -/
def failureMessage (s : String) : Except String FailureMessage :=
  if h : isFailureMessage s = true then .ok ⟨s, h⟩
  else .error "String should have at most 500 characters"

/-- The message of a failure: a text for a timeout, and the name of the class of an exception. -/
def Failure.message (timeoutText : FailureMessage) : Failure → Except String FailureMessage
  | .timedOut => .ok timeoutText
  | .raised className => failureMessage className

/-- The result of a step that failed. -/
def failedResult (stepId code : NonEmpty) (message : FailureMessage) : ReplayStepResult where
  stepId := stepId
  status := .failed
  failureCode := some code
  failureMessage := some message
  failedExplained := fun _ => rfl
  othersUnexplained := fun h => absurd rfl h

/-- `_skipped_results`. -/
def skippedResults (steps : List ReplayStep) : List ReplayStepResult :=
  steps.map fun step =>
    { stepId := step.stepId, status := .skipped, failedExplained := nofun, othersUnexplained := fun _ => rfl }

/-! ## Steps -/

/-- How the calls of a step end. -/
inductive Attempt where
  | completed (before : StateCapture) (observations : List ReplayObservation) (after : StateCapture)
      (results : List OracleResult)
  | interrupted (phase : Phase) (failure : Failure) (before : Option StateCapture)
      (observations : List ReplayObservation) (after : Option StateCapture)

/-- A verdict, as one of the results that an expectation allows. -/
def OracleOutcome.verdict (outcome : OracleOutcome) : NonEmpty :=
  ⟨outcome.value, by cases outcome <;> decide +kernel⟩

/-- `_expectations_match`. -/
def expectationsMatch (step : ReplayStep) (results : List OracleResult) : Bool :=
  step.oracleExpectations.length = results.length &&
    (step.oracleExpectations.zip results).all fun (expectation, result) =>
      OracleOutcome.verdict result.result ∈ expectation.allowedResults

/-- Which oracles are registered. -/
structure ReplayKernel where
  isRegistered : NonEmpty → Bool

namespace ReplayKernel

/-- `_evaluate_oracles`, from an expectation on. -/
def evaluateOracles (kernel : ReplayKernel) (answers : StepAnswers) :
    List OracleExpectation → List Call × Answer (List OracleResult)
  | [] => ([], .ok [])
  | expectation :: expectations =>
      if kernel.isRegistered expectation.oracleId then
        match answers.evaluate expectation with
        | .error failure => ([.evaluate expectation.oracleId], .error failure)
        | .ok result =>
            let rest := kernel.evaluateOracles answers expectations
            (.evaluate expectation.oracleId :: rest.1, rest.2.map (result :: ·))
      else ([], .error (.raised "LookupError"))

/-- The body of the `try` of a step. -/
def attempt (kernel : ReplayKernel) (step : ReplayStep) (answers : StepAnswers) : List Call × Attempt :=
  match answers.before with
  | .error failure => ([.capture], .interrupted .captureBefore failure none [] none)
  | .ok before =>
      match answers.execute with
      | .error failure =>
          ([.capture, .execute step.action], .interrupted .execute failure (some before) [] none)
      | .ok observations =>
          match answers.after with
          | .error failure =>
              ([.capture, .execute step.action, .capture],
                .interrupted .captureAfter failure (some before) observations none)
          | .ok after =>
              let evaluated := kernel.evaluateOracles answers step.oracleExpectations
              ([.capture, .execute step.action, .capture] ++ evaluated.1,
                match evaluated.2 with
                | .error failure => .interrupted .oracle failure (some before) observations (some after)
                | .ok results => .completed before observations after results)

/-- What is recorded of a step whose calls all returned. -/
def completedResult (step : ReplayStep) (before : StateCapture) (observations : List ReplayObservation)
    (after : StateCapture) (results : List OracleResult) : ReplayStepResult :=
  if expectationsMatch step results then
    { stepId := step.stepId
      status := .passed
      beforeFingerprint := some before.fingerprint
      afterFingerprint := some after.fingerprint
      observations := observations
      oracleResults := results
      failedExplained := nofun
      othersUnexplained := fun _ => rfl }
  else
    { failedResult step.stepId ⟨"ORACLE_EXPECTATION_MISMATCH", by decide +kernel⟩
        ⟨"oracle result was outside the allowed result set", by decide +kernel⟩ with
      beforeFingerprint := some before.fingerprint
      afterFingerprint := some after.fingerprint
      observations := observations
      oracleResults := results }

/-- What is recorded of a step with a call that did not return. -/
def interruptedResult (step : ReplayStep) (code : NonEmpty) (message : FailureMessage)
    (before : StateCapture) (observations : List ReplayObservation) (recovered : Option StateCapture) :
    ReplayStepResult :=
  { failedResult step.stepId code message with
    beforeFingerprint := some before.fingerprint
    afterFingerprint := recovered.map StateCapture.fingerprint
    observations := observations }

/-- The message of a timeout in a step. -/
def replayTimeout : FailureMessage := ⟨"replay boundary exceeded its bounded timeout", by decide +kernel⟩

/-- `_execute_step`: the result of a step and the capture to go on from. -/
def executeStep (kernel : ReplayKernel) (step : ReplayStep) (fallback : StateCapture)
    (answers : StepAnswers) : List Call × Except String (ReplayStepResult × StateCapture) :=
  match kernel.attempt step answers with
  | (calls, .completed before observations after results) =>
      (calls, .ok (completedResult step before observations after results, after))
  | (calls, .interrupted phase failure before observations after) =>
      let recovery : List Call × Option StateCapture :=
        match after with
        | some capture => ([], some capture)
        | none => ([.capture], answers.recovery.toOption)
      (calls ++ recovery.1, do
        let message ← failure.message replayTimeout
        return (interruptedResult step (phase.code failure) message (before.getD fallback) observations
            recovery.2,
          (recovery.2.or before).getD fallback))

/-! ## Runs -/

/-- How the loop over the steps ends: with the last step, with a failed step, or with an exception. -/
inductive LoopEnd where
  | finished
  | failed (stepId : NonEmpty)
  | raised

/-- What the loop over the steps leaves behind. -/
structure LoopState where
  results : List ReplayStepResult
  finalCapture : StateCapture
  loopEnd : LoopEnd

/-- The loop over the steps, from a capture on. -/
def runSteps (kernel : ReplayKernel) (adapters : Adapters) (finalCapture : StateCapture) :
    List ReplayStep → List Call × LoopState
  | [] => ([], ⟨[], finalCapture, .finished⟩)
  | step :: steps =>
      match kernel.executeStep step finalCapture (adapters.step step) with
      | (calls, .error _) => (calls, ⟨[], finalCapture, .raised⟩)
      | (calls, .ok (result, finalCapture)) =>
          if result.status = .failed then
            (calls, ⟨result :: skippedResults steps, finalCapture, .failed step.stepId⟩)
          else
            let rest := kernel.runSteps adapters finalCapture steps
            (calls ++ rest.1, { rest.2 with results := result :: rest.2.results })

/-- The local variables of a replay. -/
structure Locals where
  results : List ReplayStepResult
  rootCapture : Option StateCapture := none
  finalCapture : Option StateCapture := none
  runStatus : ReplayRunStatus := .failed
  failedStepId : Option NonEmpty := none

theorem isNonEmpty_root : isNonEmpty "root" = true := by decide +kernel

def rootId : NonEmpty := ⟨"root", isNonEmpty_root⟩

def preflightId : NonEmpty := ⟨"preflight", by decide +kernel⟩

def environmentId : NonEmpty := ⟨"environment", by decide +kernel⟩

def cleanupId : NonEmpty := ⟨"cleanup", by decide +kernel⟩

/-- What is recorded where the plan is not one for the root. -/
def preflightFailure : ReplayStepResult :=
  failedResult preflightId ⟨"PLAN_ROOT_MISMATCH", by decide +kernel⟩
    ⟨"plan and root identifiers do not match", by decide +kernel⟩

/-- What is recorded where another root was restored. -/
def rootFailure (rootCapture : StateCapture) : ReplayStepResult :=
  { failedResult rootId ⟨"ROOT_FINGERPRINT_MISMATCH", by decide +kernel⟩
      ⟨"restored root did not match the pinned fingerprint", by decide +kernel⟩ with
    beforeFingerprint := some rootCapture.fingerprint }

/-- The message of a timeout outside of the steps. -/
def environmentTimeout : FailureMessage :=
  ⟨"environment boundary exceeded its bounded timeout", by decide +kernel⟩

/-- What is recorded of a failure that no step accounts for. -/
def environmentFailure (phase : Phase) (failure : Failure) : Except String ReplayStepResult := do
  let message ← failure.message environmentTimeout
  return failedResult environmentId (phase.code failure) message

/-- The steps of a plan, from the restored root on. -/
def replaySteps (kernel : ReplayKernel) (plan : ReplayPlan) (adapters : Adapters)
    (rootCapture : StateCapture) : List Call × Except String Locals :=
  let run := kernel.runSteps adapters rootCapture plan.steps
  (run.1,
    match run.2.loopEnd with
    | .finished =>
        .ok { results := run.2.results, rootCapture := rootCapture, finalCapture := run.2.finalCapture,
              runStatus := .succeeded }
    | .failed stepId =>
        .ok { results := run.2.results, rootCapture := rootCapture, finalCapture := run.2.finalCapture,
              failedStepId := stepId }
    | .raised => do
        let failure ← environmentFailure .replay (.raised "ValidationError")
        return { results := run.2.results ++ [failure], rootCapture := rootCapture,
                 finalCapture := run.2.finalCapture, failedStepId := environmentId })

/-- The body of a replay. It raises where a failure cannot be recorded. -/
def replayBody (kernel : ReplayKernel) (plan : ReplayPlan) (root : RootSeed) (adapters : Adapters) :
    List Call × Except String Locals :=
  if plan.rootSeedId ≠ root.rootSeedId then
    ([], .ok { results := [preflightFailure], failedStepId := preflightId })
  else
    match adapters.reset with
    | .error failure =>
        ([.reset], do
          let failure ← environmentFailure .reset failure
          return { results := [failure], failedStepId := environmentId })
    | .ok rootCapture =>
        if rootCapture.fingerprint ≠ root.capture.fingerprint then
          ([.reset],
            .ok { results := [rootFailure rootCapture], rootCapture := rootCapture,
                  finalCapture := rootCapture, runStatus := .rootDiverged, failedStepId := rootId })
        else
          let run := kernel.replaySteps plan adapters rootCapture
          (.reset :: run.1, run.2)

/-- The name of the class of the exception that a failure is. -/
def Failure.className : Failure → String
  | .timedOut => "TimeoutError"
  | .raised className => className

/-- Record how the cleanup went. -/
def Locals.afterCleanup (locals : Locals) : Answer Unit → Except String Locals
  | .ok () => .ok locals
  | .error failure => do
      let message ← failureMessage (Failure.className failure)
      return { locals with
        runStatus := .cleanupFailed
        results := locals.results ++
          [failedResult cleanupId ⟨"CLEANUP_FAILURE", by decide +kernel⟩ message]
        failedStepId := locals.failedStepId.or cleanupId }

/-- What a result says, with the entries of an action log. -/
def Locals.content (locals : Locals) (plan : ReplayPlan) (actionLog : List ReplayActionLogEntry) :
    RunContent where
  planId := plan.planId
  status := locals.runStatus
  rootFingerprint := locals.rootCapture.map StateCapture.fingerprint
  finalFingerprint := locals.finalCapture.map StateCapture.fingerprint
  steps := locals.results
  actionLog := actionLog
  failedStepId := locals.failedStepId

end ReplayKernel

/-! ## The action log -/

theorem isNonEmpty_type (action : Action) : isNonEmpty action.type = true := by
  cases action <;> (rw [Action.type]; decide +kernel)

theorem ReplayStepResult.nodup_evidenceIds (result : ReplayStepResult) : result.evidenceIds.Nodup := by
  have h : (result.evidenceIds.map id).Nodup := List.nodup_map_firstsFrom
  rwa [List.map_id] at h

variable [Sha256]

/-- An entry whose fields were compared with its envelope. -/
abbrev CheckedEntry := { entry : ReplayActionLogEntry // entry.duplicatedActionFieldsMatchEnvelope = .ok () }

/-- `ReplayActionLogEntry(..)`. -/
def ReplayActionLogEntry.create (entry : ReplayActionLogEntry) : Except String CheckedEntry :=
  match h : entry.duplicatedActionFieldsMatchEnvelope with
  | .error e => .error e
  | .ok () => .ok ⟨entry, h⟩

namespace ReplayKernel

/-- The log entry of a step. -/
def logEntry (plan : ReplayPlan) (step : ReplayStep) (result : ReplayStepResult) :
    Except String CheckedEntry := do
  let envelopeHash ← hashOf step.action.toValue
  let traceId ← causalTraceId plan.planId step.stepId envelopeHash
  let requestTemplateHash ← hashOf step.action.action.toValue
  let observed ← observationHash result.observations
  let evaluated ← oracleResultsHash result.oracleResults
  ReplayActionLogEntry.create
    { stepId := step.stepId
      action := step.action
      actionId := ofContractId step.action.actionId
      actionType := ⟨step.action.action.type, isNonEmpty_type _⟩
      sequence := step.action.sequence
      status := result.status
      idempotencyKey := step.action.idempotencyKey
      policyDecisionRef := ofContractId step.action.policyDecisionRef
      traceId := traceId
      parameterArtifact := bodyArtifact step.action.action
      envelopeHash := envelopeHash
      requestTemplateHash := requestTemplateHash
      beforeFingerprint := result.beforeFingerprint
      afterFingerprint := result.afterFingerprint
      observationHash := observed
      oracleResultsHash := evaluated
      evidenceIds := result.evidenceIds
      evidenceUnique := result.nodup_evidenceIds }

/-- The loop of `_build_action_log`, from a step on. -/
def logEntries (plan : ReplayPlan) (results : List ReplayStepResult) :
    List ReplayStep → Except String (List CheckedEntry)
  | [] => .ok []
  | step :: steps =>
      -- of two results of one step, the last would be taken
      match results.reverse.find? fun result => result.stepId = step.stepId with
      | none => logEntries plan results steps
      | some result => do
          let entry ← logEntry plan step result
          return entry :: (← logEntries plan results steps)

/-- `_build_action_log`. -/
def buildActionLog (plan : ReplayPlan) (results : List ReplayStepResult) :
    Except String (List CheckedEntry) :=
  logEntries plan results plan.steps

/-- The result of a replay, of its local variables. -/
def report (runId : String) (plan : ReplayPlan) (locals : Locals) : Except String ReplayRunResult := do
  let actionLog ← buildActionLog plan locals.results
  let content := locals.content plan (actionLog.map Subtype.val)
  let traceHash ← hashOf content.traceValue
  ReplayRunResult.create runId content traceHash fun entry hentry => by
    obtain ⟨checked, -, rfl⟩ := List.mem_map.mp hentry
    exact checked.property

/-- `replay`: the calls that are made, and the result. -/
def replay (kernel : ReplayKernel) (runId : String) (plan : ReplayPlan) (root : RootSeed)
    (adapters : Adapters) : List Call × Except String ReplayRunResult :=
  let body := kernel.replayBody plan root adapters
  (body.1 ++ [.cleanup], do
    let locals ← body.2
    let locals ← locals.afterCleanup adapters.cleanup
    report runId plan locals)

end ReplayKernel

end StateWeaver.Replay
