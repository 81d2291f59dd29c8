import StateWeaver.Replay.Kernel

/-!
# How the steps of a replay go

Each step passes or fails by the answers to its calls alone. The loop records every step of the plan: those
before the first that fails as passed, that one as failed, and the rest as skipped.
-/

namespace StateWeaver.Replay

open Contracts

/-! ## Answers that can be recorded -/

/-- The name of the class of an exception is not too long for a failure message. -/
def Failure.Fits (failure : Failure) : Prop :=
  ∀ className, failure = .raised className → isFailureMessage className = true

def Answer.Fits {α : Type} (answer : Answer α) : Prop := ∀ failure, answer = .error failure → failure.Fits

/-- Every answer to a call of a step can be recorded: the names of exceptions fit, and what is returned can be
written as canonical JSON. -/
structure StepAnswers.Recordable (answers : StepAnswers) : Prop where
  before : Answer.Fits answers.before
  execute : Answer.Fits answers.execute
  after : Answer.Fits answers.after
  evaluate : ∀ expectation, Answer.Fits (answers.evaluate expectation)
  observations : ∀ observations, answers.execute = .ok observations → ∀ o ∈ observations, CanWrite o.toValue
  results : ∀ expectation result, answers.evaluate expectation = .ok result → CanWrite result.toValue

theorem Failure.exists_message {failure : Failure} (h : failure.Fits) (timeoutText : FailureMessage) :
    ∃ message, failure.message timeoutText = .ok message := by
  cases failure with
  | timedOut => exact ⟨timeoutText, rfl⟩
  | raised className => exact ⟨_, dif_pos (h className rfl)⟩

/-! ## Steps that pass -/

/-- The oracle of an expectation is there, and its verdict is one of those expected. -/
def Met (kernel : ReplayKernel) (answers : StepAnswers) (expectation : OracleExpectation) : Prop :=
  kernel.isRegistered expectation.oracleId = true ∧ ∃ result, answers.evaluate expectation = .ok result ∧
    OracleOutcome.verdict result.result ∈ expectation.allowedResults

/-- All calls of a step return, and all of its oracle expectations are met. -/
structure Passes (kernel : ReplayKernel) (step : ReplayStep) (answers : StepAnswers) : Prop where
  before : ∃ capture, answers.before = .ok capture
  execute : ∃ observations, answers.execute = .ok observations
  after : ∃ capture, answers.after = .ok capture
  expectations : ∀ expectation ∈ step.oracleExpectations, Met kernel answers expectation

/-- The actions that are executed. -/
def executed (calls : List Call) : List ActionEnvelope :=
  calls.filterMap fun
    | .execute action => some action
    | _ => none

@[simp]
theorem executed_append (calls calls' : List Call) :
    executed (calls ++ calls') = executed calls ++ executed calls' := List.filterMap_append

variable {kernel : ReplayKernel} {answers : StepAnswers} {step : ReplayStep}

/-- What the evaluation of the oracles ends in: all results, or a failure. -/
theorem evaluateOracles_spec (kernel : ReplayKernel) (expectations : List OracleExpectation)
    (hanswers : answers.Recordable) :
    (∀ call ∈ (kernel.evaluateOracles answers expectations).1, ∃ id, call = .evaluate id) ∧
      match (kernel.evaluateOracles answers expectations).2 with
      | .ok results => List.Forall₂ (fun expectation result => kernel.isRegistered expectation.oracleId = true ∧
          answers.evaluate expectation = .ok result) expectations results
      | .error failure => failure.Fits ∧ ∃ expectation ∈ expectations, ¬Met kernel answers expectation := by
  induction expectations with
  | nil =>
      rw [ReplayKernel.evaluateOracles]
      exact ⟨List.forall_mem_nil _, .nil⟩
  | cons expectation expectations ih =>
      rw [ReplayKernel.evaluateOracles]
      by_cases hregistered : kernel.isRegistered expectation.oracleId = true
      · rw [if_pos hregistered]
        cases hanswer : answers.evaluate expectation with
        | error failure =>
            refine ⟨List.forall_mem_singleton.mpr ⟨_, rfl⟩, hanswers.evaluate expectation failure hanswer,
              expectation, List.mem_cons_self, ?_⟩
            rintro ⟨-, result, hresult, -⟩
            rw [hanswer] at hresult
            cases hresult
        | ok result =>
            obtain ⟨hcalls, hrest⟩ := ih
            refine ⟨List.forall_mem_cons.mpr ⟨⟨_, rfl⟩, hcalls⟩, ?_⟩
            dsimp only
            cases h : (kernel.evaluateOracles answers expectations).2 with
            | error failure =>
                rw [h] at hrest
                obtain ⟨hfits, expectation', hmem, hunmet⟩ := hrest
                exact ⟨hfits, expectation', List.mem_cons_of_mem _ hmem, hunmet⟩
            | ok results =>
                rw [h] at hrest
                exact .cons ⟨hregistered, hanswer⟩ hrest
      · rw [if_neg hregistered]
        refine ⟨List.forall_mem_nil _, ?_, expectation, List.mem_cons_self, fun h => hregistered h.1⟩
        rintro className h
        cases h
        decide +kernel

/-- The verdicts are those expected if every expectation is met. -/
theorem expectationsMatch_iff {results : List OracleResult}
    (h : List.Forall₂ (fun expectation result => kernel.isRegistered expectation.oracleId = true ∧
      answers.evaluate expectation = .ok result) step.oracleExpectations results) :
    expectationsMatch step results = true ↔
      ∀ expectation ∈ step.oracleExpectations, Met kernel answers expectation := by
  rw [expectationsMatch, h.length_eq, decide_eq_true rfl, Bool.true_and]
  generalize step.oracleExpectations = expectations at h
  induction h with
  | nil => exact iff_of_true rfl nofun
  | cons hfirst _ ih =>
      rw [List.zip_cons_cons, List.all_cons, Bool.and_eq_true, List.forall_mem_cons, ih, decide_eq_true_eq]
      refine and_congr_left fun _ => ⟨fun hmem => ⟨hfirst.1, _, hfirst.2, hmem⟩, ?_⟩
      rintro ⟨-, result, hresult, hmem⟩
      rw [hfirst.2] at hresult
      cases hresult
      exact hmem

/-! ## One step -/

/-- What is recorded of a step: its identifier, how it went, and parts that can be written. -/
structure RecordOf (kernel : ReplayKernel) (step : ReplayStep) (answers : StepAnswers)
    (result : ReplayStepResult) : Prop where
  stepId : result.stepId = step.stepId
  passed : Passes kernel step answers → result.status = .passed
  failed : ¬Passes kernel step answers → result.status = .failed
  observations : ∀ o ∈ result.observations, CanWrite o.toValue
  oracleResults : ∀ r ∈ result.oracleResults, CanWrite r.toValue

theorem recordOf_completedResult {before after : StateCapture} {observations : List ReplayObservation}
    {results : List OracleResult} (hanswers : answers.Recordable) (hbefore : answers.before = .ok before)
    (hexecute : answers.execute = .ok observations) (hafter : answers.after = .ok after)
    (hresults : List.Forall₂ (fun expectation result => kernel.isRegistered expectation.oracleId = true ∧
      answers.evaluate expectation = .ok result) step.oracleExpectations results) :
    RecordOf kernel step answers (ReplayKernel.completedResult step before observations after results) := by
  have hmatch := expectationsMatch_iff hresults
  have hwritten : ∀ r ∈ results, CanWrite r.toValue := by
    intro r hr
    obtain ⟨i, hi, rfl⟩ := List.getElem_of_mem hr
    have hall := List.forall₂_iff_get.mp hresults
    exact hanswers.results _ _ (hall.2 i (hall.1 ▸ hi) hi).2
  rw [ReplayKernel.completedResult]
  split_ifs with h
  · have hpasses : Passes kernel step answers := ⟨⟨_, hbefore⟩, ⟨_, hexecute⟩, ⟨_, hafter⟩, hmatch.mp h⟩
    exact ⟨rfl, fun _ => rfl, fun hfail => absurd hpasses hfail, hanswers.observations _ hexecute, hwritten⟩
  · exact ⟨rfl, fun hpass => absurd (hmatch.mpr hpass.expectations) h, fun _ => rfl,
      hanswers.observations _ hexecute, hwritten⟩

/-- How the calls of a step go. -/
theorem attempt_spec (kernel : ReplayKernel) (step : ReplayStep) (hanswers : answers.Recordable) :
    (executed (kernel.attempt step answers).1 = if answers.before.isOk then [step.action] else []) ∧
      match (kernel.attempt step answers).2 with
      | .completed before observations after results =>
          answers.before = .ok before ∧ answers.execute = .ok observations ∧ answers.after = .ok after ∧
            List.Forall₂ (fun expectation result => kernel.isRegistered expectation.oracleId = true ∧
              answers.evaluate expectation = .ok result) step.oracleExpectations results
      | .interrupted _ failure _ observations _ => failure.Fits ∧ ¬Passes kernel step answers ∧
          ∀ o ∈ observations, CanWrite o.toValue := by
  rw [ReplayKernel.attempt]
  cases hbefore : answers.before with
  | error failure =>
      refine ⟨rfl, hanswers.before failure hbefore, fun h => ?_, nofun⟩
      obtain ⟨capture, hcapture⟩ := h.before
      rw [hbefore] at hcapture
      cases hcapture
  | ok before =>
      cases hexecute : answers.execute with
      | error failure =>
          refine ⟨rfl, hanswers.execute failure hexecute, fun h => ?_, nofun⟩
          obtain ⟨observations, hobservations⟩ := h.execute
          rw [hexecute] at hobservations
          cases hobservations
      | ok observations =>
          have hwritten := hanswers.observations observations hexecute
          cases hafter : answers.after with
          | error failure =>
              refine ⟨rfl, hanswers.after failure hafter, fun h => ?_, hwritten⟩
              obtain ⟨capture, hcapture⟩ := h.after
              rw [hafter] at hcapture
              cases hcapture
          | ok after =>
              obtain ⟨hcalls, hresults⟩ := evaluateOracles_spec kernel step.oracleExpectations hanswers
              have hnone : executed (kernel.evaluateOracles answers step.oracleExpectations).1 = [] := by
                refine List.filterMap_eq_nil_iff.mpr fun call hcall => ?_
                obtain ⟨id, rfl⟩ := hcalls call hcall
                rfl
              refine ⟨?_, ?_⟩
              · rw [executed_append, hnone]
                rfl
              · dsimp only
                cases h : (kernel.evaluateOracles answers step.oracleExpectations).2 with
                | error failure =>
                    rw [h] at hresults
                    obtain ⟨hfits, expectation, hmem, hunmet⟩ := hresults
                    exact ⟨hfits, fun hpass => hunmet (hpass.expectations expectation hmem), hwritten⟩
                | ok results =>
                    rw [h] at hresults
                    exact ⟨rfl, rfl, rfl, hresults⟩

/-- What is recorded of a step, and which actions are executed for it. -/
theorem executeStep_spec (kernel : ReplayKernel) (step : ReplayStep) (hanswers : answers.Recordable)
    (fallback : StateCapture) :
    (executed (kernel.executeStep step fallback answers).1 =
      if answers.before.isOk then [step.action] else []) ∧
    ∃ result capture, (kernel.executeStep step fallback answers).2 = .ok (result, capture) ∧
      RecordOf kernel step answers result := by
  obtain ⟨hcalls, hspec⟩ := attempt_spec kernel step hanswers
  rw [ReplayKernel.executeStep]
  rcases hattempt : kernel.attempt step answers with ⟨calls, attempt⟩
  rw [hattempt] at hcalls hspec
  cases attempt with
  | completed before observations after results =>
      obtain ⟨hbefore, hexecute, hafter, hresults⟩ := hspec
      exact ⟨hcalls, _, _, rfl, recordOf_completedResult hanswers hbefore hexecute hafter hresults⟩
  | interrupted phase failure before observations after =>
      obtain ⟨hfits, hfails, hwritten⟩ := hspec
      obtain ⟨message, hmessage⟩ := Failure.exists_message hfits ReplayKernel.replayTimeout
      refine ⟨?_, ?_⟩
      · cases after <;> simpa [executed] using hcalls
      · dsimp only
        rw [hmessage]
        exact ⟨_, _, rfl, rfl, fun h => absurd h hfails, fun _ => rfl, hwritten, List.forall_mem_nil _⟩

/-! ## All steps -/

/-- How the steps are recorded, by the actions that are executed. -/
inductive LoopSpec (kernel : ReplayKernel) (adapters : Adapters) (steps : List ReplayStep)
    (actions : List ActionEnvelope) : ReplayKernel.LoopState → Prop
  | finished {results : List ReplayStepResult} {capture : StateCapture}
      (hpass : ∀ step ∈ steps, Passes kernel step (adapters.step step))
      (hrecords : List.Forall₂ (fun step => RecordOf kernel step (adapters.step step)) steps results)
      (hactions : actions = steps.map ReplayStep.action) :
      LoopSpec kernel adapters steps actions ⟨results, capture, .finished⟩
  | failed {before after : List ReplayStep} {step : ReplayStep} {passed : List ReplayStepResult}
      {result : ReplayStepResult} {capture : StateCapture} (hsteps : steps = before ++ step :: after)
      (hpass : ∀ step ∈ before, Passes kernel step (adapters.step step))
      (hfail : ¬Passes kernel step (adapters.step step))
      (hrecords : List.Forall₂ (fun step => RecordOf kernel step (adapters.step step)) before passed)
      (hrecord : RecordOf kernel step (adapters.step step) result)
      (hactions : actions = before.map ReplayStep.action ++
        if (adapters.step step).before.isOk then [step.action] else []) :
      LoopSpec kernel adapters steps actions
        ⟨passed ++ result :: skippedResults after, capture, .failed step.stepId⟩

theorem runSteps_spec (kernel : ReplayKernel) {adapters : Adapters} {steps : List ReplayStep}
    (hanswers : ∀ step ∈ steps, (adapters.step step).Recordable) (capture : StateCapture) :
    LoopSpec kernel adapters steps (executed (kernel.runSteps adapters capture steps).1)
      (kernel.runSteps adapters capture steps).2 := by
  induction steps generalizing capture with
  | nil => exact .finished (List.forall_mem_nil _) .nil rfl
  | cons step steps ih =>
      obtain ⟨hstep, hsteps⟩ := List.forall_mem_cons.mp hanswers
      obtain ⟨hcalls, result, next, hok, hrecord⟩ := executeStep_spec kernel step hstep capture
      rw [ReplayKernel.runSteps]
      rcases hexecute : kernel.executeStep step capture (adapters.step step) with ⟨calls, outcome⟩
      rw [hexecute] at hcalls hok
      obtain rfl : outcome = .ok (result, next) := hok
      dsimp only at hcalls ⊢
      by_cases hpass : Passes kernel step (adapters.step step)
      · obtain ⟨before, hbefore⟩ := hpass.before
        rw [hbefore] at hcalls
        rw [if_neg (by rw [hrecord.passed hpass]; decide)]
        dsimp only
        rw [executed_append, hcalls]
        rcases hrest : kernel.runSteps adapters next steps with ⟨calls', state⟩
        have hspec := ih hsteps next
        rw [hrest] at hspec
        cases hspec with
        | finished hall hrecords hactions =>
            exact .finished (List.forall_mem_cons.mpr ⟨hpass, hall⟩) (.cons hrecord hrecords)
              (congrArg (step.action :: ·) hactions)
        | failed hsplit hall hfail hrecords hfailed hactions =>
            exact .failed (congrArg (step :: ·) hsplit) (List.forall_mem_cons.mpr ⟨hpass, hall⟩) hfail
              (.cons hrecord hrecords) hfailed (congrArg (step.action :: ·) hactions)
      · have hsplit : step :: steps = [] ++ step :: steps := rfl
        rw [if_pos (hrecord.failed hpass)]
        exact .failed hsplit (List.forall_mem_nil _) hpass .nil hrecord hcalls

end StateWeaver.Replay
