import StateWeaver.Contracts.Writable
import StateWeaver.Replay.Reports

/-!
# Replays

Whatever the adapters do, as long as it can be recorded, a replay has a result that passes its own
validation. The result is a success exactly when the root was restored, every step passed and the cleanup
succeeded.
-/

namespace StateWeaver.Replay

open Contracts

/-! ## Calls -/

section Calls

variable {kernel : ReplayKernel}

theorem cleanup_notMem_evaluateOracles {answers : StepAnswers} (expectations : List OracleExpectation) :
    Call.cleanup ∉ (kernel.evaluateOracles answers expectations).1 := by
  induction expectations with
  | nil => exact List.not_mem_nil
  | cons expectation expectations ih =>
      rw [ReplayKernel.evaluateOracles]
      split_ifs
      · cases answers.evaluate expectation with
        | error failure => simp
        | ok result => simpa using ih
      · exact List.not_mem_nil

theorem cleanup_notMem_executeStep {answers : StepAnswers} {step : ReplayStep} {fallback : StateCapture} :
    Call.cleanup ∉ (kernel.executeStep step fallback answers).1 := by
  have hattempt : Call.cleanup ∉ (kernel.attempt step answers).1 := by
    rw [ReplayKernel.attempt]
    cases answers.before with
    | error failure => simp
    | ok before =>
        cases answers.execute with
        | error failure => simp
        | ok observations =>
            cases answers.after with
            | error failure => simp
            | ok after => simpa using cleanup_notMem_evaluateOracles step.oracleExpectations
  rw [ReplayKernel.executeStep]
  rcases h : kernel.attempt step answers with ⟨calls, attempt⟩
  rw [h] at hattempt
  cases attempt with
  | completed before observations after results => exact hattempt
  | interrupted phase failure before observations after => cases after <;> simpa using hattempt

theorem cleanup_notMem_runSteps {adapters : Adapters} {steps : List ReplayStep} (capture : StateCapture) :
    Call.cleanup ∉ (kernel.runSteps adapters capture steps).1 := by
  induction steps generalizing capture with
  | nil => exact List.not_mem_nil
  | cons step steps ih =>
      have hstep : Call.cleanup ∉ (kernel.executeStep step capture (adapters.step step)).1 :=
        cleanup_notMem_executeStep
      rw [ReplayKernel.runSteps]
      rcases h : kernel.executeStep step capture (adapters.step step) with ⟨calls, outcome⟩
      rw [h] at hstep
      cases outcome with
      | error e => exact hstep
      | ok next =>
          dsimp only
          split_ifs
          · exact hstep
          · exact fun hmem => (List.mem_append.mp hmem).elim hstep (ih _)

theorem cleanup_notMem_replayBody {plan : ReplayPlan} {root : RootSeed} {adapters : Adapters} :
    Call.cleanup ∉ (kernel.replayBody plan root adapters).1 := by
  rw [ReplayKernel.replayBody]
  split_ifs
  · exact List.not_mem_nil
  · cases adapters.reset with
    | error failure => simp
    | ok rootCapture =>
        dsimp only
        split_ifs
        · simp
        · simpa [ReplayKernel.replaySteps] using cleanup_notMem_runSteps rootCapture

end Calls

/-! ## What is known of the local variables -/

/-- The root was restored, and it is the one of the plan. -/
structure RootMatches (plan : ReplayPlan) (root : RootSeed) (adapters : Adapters) : Prop where
  identifier : plan.rootSeedId = root.rootSeedId
  restored : ∃ capture, adapters.reset = .ok capture ∧ capture.fingerprint = root.capture.fingerprint

/-- What holds of the local variables of a replay before the cleanup. -/
structure ReplayKernel.Locals.Fits (plan : ReplayPlan) (locals : ReplayKernel.Locals)
    (recorded boundaries : List ReplayStepResult) : Prop where
  shape : Shape plan locals.results recorded boundaries
  writable : ∀ r ∈ locals.results, r.Writable
  noCleanup : ∀ r ∈ boundaries, r.stepId ≠ ReplayKernel.cleanupId
  notCleanedUp : locals.runStatus ≠ .cleanupFailed
  succeeded : locals.runStatus = .succeeded → locals.results ≠ [] ∧
    (∀ r ∈ locals.results, r.status = .passed) ∧ locals.rootCapture ≠ none ∧ locals.finalCapture ≠ none ∧
      locals.failedStepId = none
  failed : locals.runStatus ≠ .succeeded → ∃ first rest,
    locals.results.filter (·.status = .failed) = first :: rest ∧ locals.failedStepId = some first.stepId ∧
      (locals.runStatus = .rootDiverged → first.stepId.val = "root" ∧
        first.failureCode.map Constrained.val = some "ROOT_FINGERPRINT_MISMATCH")

namespace ReplayKernel.Locals

variable {plan : ReplayPlan} {locals : ReplayKernel.Locals} {recorded boundaries : List ReplayStepResult}

theorem Fits.stepId_ne_cleanup (h : locals.Fits plan recorded boundaries) :
    ∀ r ∈ locals.results, r.stepId.val ≠ "cleanup" := by
  intro r hr heq
  rw [h.shape.split] at hr
  rcases List.mem_append.mp hr with hr | hr
  · exact h.shape.recorded_not_reserved r hr (by rw [heq]; decide)
  · exact h.noCleanup r hr (Constrained.val_injective heq)

theorem Fits.coherent (h : locals.Fits plan recorded boundaries) : locals.Coherent plan := by
  refine fun log => ⟨?_, iff_of_false h.notCleanedUp ?_⟩
  · rw [RunContent.checkStatus]
    split_ifs with hstatus
    · obtain ⟨hne, hpassed, hroot, hfinal, hid⟩ := h.succeeded hstatus
      refine Imp.check_bind_eq_ok.mpr ⟨Imp.require_eq_ok.mpr ⟨hne, hpassed⟩, ?_⟩
      refine Imp.check_bind_eq_ok.mpr ⟨Imp.require_eq_ok.mpr ⟨?_, ?_⟩, Imp.require_eq_ok.mpr hid⟩
      · exact fun hnone => hroot (Option.map_eq_none_iff.mp hnone)
      · exact fun hnone => hfinal (Option.map_eq_none_iff.mp hnone)
    · obtain ⟨first, rest, hfilter, hid, hdiverged⟩ := h.failed hstatus
      have hfailed : (locals.content plan log).failedSteps = first :: rest := hfilter
      rw [hfailed]
      exact Imp.check_bind_eq_ok.mpr ⟨Imp.require_eq_ok.mpr hid, Imp.require_eq_ok.mpr hdiverged⟩
  · rintro ⟨step, hstep, hid⟩
    exact h.stepId_ne_cleanup step (List.mem_of_mem_filter hstep) hid

theorem isNonEmpty_cleanupFailure : isNonEmpty "CLEANUP_FAILURE" = true := by decide +kernel

/-- The result of a cleanup that failed. -/
def cleanupResult (message : FailureMessage) : ReplayStepResult :=
  failedResult cleanupId ⟨"CLEANUP_FAILURE", isNonEmpty_cleanupFailure⟩ message

/-- The local variables after a cleanup that failed. -/
def withCleanupFailure (locals : Locals) (message : FailureMessage) : Locals :=
  { locals with
    runStatus := .cleanupFailed
    results := locals.results ++ [cleanupResult message]
    failedStepId := locals.failedStepId.or cleanupId }

theorem Fits.shape_withCleanupFailure (h : locals.Fits plan recorded boundaries) (message : FailureMessage) :
    Shape plan (locals.withCleanupFailure message).results recorded (boundaries ++ [cleanupResult message]) := by
  have hreserved : cleanupId.val ∈ reservedStepIds := by decide +kernel
  refine ⟨?_, h.shape.allOrNone, ?_, ?_⟩
  · rw [withCleanupFailure, h.shape.split, List.append_assoc]
  · exact List.forall_mem_append.mpr ⟨h.shape.reserved, List.forall_mem_singleton.mpr hreserved⟩
  · rw [List.map_append]
    refine List.nodup_append.mpr ⟨h.shape.boundariesUnique, List.nodup_singleton _, ?_⟩
    rintro id hid id' hid' rfl
    obtain ⟨r, hr, rfl⟩ := List.mem_map.mp hid
    exact h.noCleanup r hr (List.mem_singleton.mp hid')

theorem Fits.coherent_withCleanupFailure (h : locals.Fits plan recorded boundaries)
    (message : FailureMessage) : (locals.withCleanupFailure message).Coherent plan := by
  have hfilter : ∀ log, ((locals.withCleanupFailure message).content plan log).failedSteps =
      locals.results.filter (·.status = .failed) ++ [cleanupResult message] := fun log => by
    change (locals.results ++ [cleanupResult message]).filter _ = _
    rw [List.filter_append]
    rfl
  refine fun log => ⟨?_, iff_of_true rfl ⟨cleanupResult message, ?_, rfl⟩⟩
  · have hstatus : ((locals.withCleanupFailure message).content plan log).status ≠ .succeeded := nofun
    rw [RunContent.checkStatus, if_neg hstatus, hfilter]
    by_cases hsucceeded : locals.runStatus = .succeeded
    · obtain ⟨-, hpassed, -, -, hid⟩ := h.succeeded hsucceeded
      have hnone : locals.results.filter (·.status = .failed) = [] :=
        List.filter_eq_nil_iff.mpr fun r hr => by
          rw [hpassed r hr]
          decide
      rw [hnone]
      refine Imp.check_bind_eq_ok.mpr ⟨Imp.require_eq_ok.mpr ?_, Imp.require_eq_ok.mpr nofun⟩
      change locals.failedStepId.or _ = _
      rw [hid]
      rfl
    · obtain ⟨first, rest, hfirst, hid, -⟩ := h.failed hsucceeded
      rw [hfirst]
      refine Imp.check_bind_eq_ok.mpr ⟨Imp.require_eq_ok.mpr ?_, Imp.require_eq_ok.mpr nofun⟩
      change locals.failedStepId.or _ = _
      rw [hid]
      rfl
  · rw [hfilter]
    exact List.mem_append_right _ List.mem_cons_self

end ReplayKernel.Locals

/-! ## Bodies -/

/-- Everything that a replay records can be recorded. -/
structure Recordable (runId : String) (plan : ReplayPlan) (adapters : Adapters) : Prop where
  runId : isNonEmpty runId = true
  actions : ∀ step ∈ plan.steps, CanWrite step.action.toValue
  reset : Answer.Fits adapters.reset
  steps : ∀ step ∈ plan.steps, (adapters.step step).Recordable
  cleanup : Answer.Fits adapters.cleanup

/-- How a plan goes up to a step. -/
structure FirstFailure (kernel : ReplayKernel) (plan : ReplayPlan) (adapters : Adapters)
    (before : List ReplayStep) (step : ReplayStep) (after : List ReplayStep) : Prop where
  steps : plan.steps = before ++ step :: after
  passed : ∀ step ∈ before, Passes kernel step (adapters.step step)
  failed : ¬Passes kernel step (adapters.step step)

/-- The first step that fails is the first step that fails. -/
theorem FirstFailure.unique {kernel : ReplayKernel} {plan : ReplayPlan} {adapters : Adapters}
    {before before' after after' : List ReplayStep} {step step' : ReplayStep}
    (h : FirstFailure kernel plan adapters before step after)
    (h' : FirstFailure kernel plan adapters before' step' after') :
    before = before' ∧ step = step' ∧ after = after' := by
  have hsteps := h.steps.symm.trans h'.steps
  rcases List.append_eq_append_iff.mp hsteps with ⟨l, rfl, hl⟩ | ⟨l, rfl, hl⟩
  · cases l with
    | nil =>
        obtain ⟨rfl, rfl⟩ := List.cons.inj hl
        exact ⟨(List.append_nil _).symm, rfl, rfl⟩
    | cons first l =>
        obtain ⟨rfl, -⟩ := List.cons.inj hl
        exact absurd (h'.passed _ (List.mem_append_right _ List.mem_cons_self)) h.failed
  · cases l with
    | nil =>
        obtain ⟨rfl, rfl⟩ := List.cons.inj hl
        exact ⟨List.append_nil _, rfl, rfl⟩
    | cons first l =>
        obtain ⟨rfl, -⟩ := List.cons.inj hl
        exact absurd (h.passed _ (List.mem_append_right _ List.mem_cons_self)) h'.failed

/-- How a replay goes before the cleanup, by the actions that are executed. -/
inductive BodySpec (kernel : ReplayKernel) (plan : ReplayPlan) (root : RootSeed) (adapters : Adapters)
    (actions : List ActionEnvelope) (locals : ReplayKernel.Locals) : Prop
  /-- The root was not restored. -/
  | boundary (boundary : ReplayStepResult) (hroot : ¬RootMatches plan root adapters)
      (hfits : locals.Fits plan [] [boundary]) (hstatus : locals.runStatus ≠ .succeeded)
      (hactions : actions = [])
  | finished (hroot : RootMatches plan root adapters)
      (hpass : ∀ step ∈ plan.steps, Passes kernel step (adapters.step step))
      (hfits : locals.Fits plan locals.results []) (hstatus : locals.runStatus = .succeeded)
      (hactions : actions = plan.steps.map ReplayStep.action)
  | failed (before : List ReplayStep) (step : ReplayStep) (after : List ReplayStep)
      (hroot : RootMatches plan root adapters)
      (hfirst : FirstFailure kernel plan adapters before step after)
      (hfits : locals.Fits plan locals.results []) (hstatus : locals.runStatus ≠ .succeeded)
      (hid : locals.failedStepId = some step.stepId)
      (hskipped : ∀ step ∈ after, ∃ r ∈ locals.results, r.stepId = step.stepId ∧ r.status = .skipped)
      (hactions : actions = before.map ReplayStep.action ++
        if (adapters.step step).before.isOk then [step.action] else [])

section Replays

variable {kernel : ReplayKernel} {plan : ReplayPlan} {root : RootSeed} {adapters : Adapters}

theorem filter_failed_cons {result : ReplayStepResult} (h : result.status = .failed)
    (results : List ReplayStepResult) : (result :: results).filter (·.status = .failed) =
      result :: results.filter (·.status = .failed) :=
  List.filter_cons_of_pos (decide_eq_true h)

/-- A single boundary that failed. -/
theorem fits_boundary {locals : ReplayKernel.Locals} {boundary : ReplayStepResult}
    (hresults : locals.results = [boundary]) (hreserved : boundary.stepId.val ∈ reservedStepIds)
    (hfailed : boundary.status = .failed) (hwritable : boundary.Writable)
    (hcleanup : boundary.stepId ≠ ReplayKernel.cleanupId)
    (hstatus : locals.runStatus = .failed ∨ locals.runStatus = .rootDiverged ∧ boundary.stepId.val = "root" ∧
      boundary.failureCode.map Constrained.val = some "ROOT_FINGERPRINT_MISMATCH")
    (hid : locals.failedStepId = some boundary.stepId) : locals.Fits plan [] [boundary] where
  shape := ⟨hresults, .inl rfl, List.forall_mem_singleton.mpr hreserved, List.nodup_singleton _⟩
  writable := by
    rw [hresults]
    exact List.forall_mem_singleton.mpr hwritable
  noCleanup := List.forall_mem_singleton.mpr hcleanup
  notCleanedUp := by
    rcases hstatus with h | ⟨h, -⟩ <;> rw [h] <;> decide
  succeeded := by
    rcases hstatus with h | ⟨h, -⟩ <;> rw [h] <;> nofun
  failed := by
    refine fun _ => ⟨boundary, [], ?_, hid, fun hdiverged => ?_⟩
    · rw [hresults, filter_failed_cons hfailed]
      rfl
    · rcases hstatus with h | ⟨-, h⟩
      · rw [h] at hdiverged
        cases hdiverged
      · exact h

theorem RecordOf.writable {step : ReplayStep} {answers : StepAnswers} {result : ReplayStepResult}
    (h : RecordOf kernel step answers result) : result.Writable := ⟨h.observations, h.oracleResults⟩

theorem writable_skippedResults {steps : List ReplayStep} : ∀ r ∈ skippedResults steps, r.Writable := by
  intro r hr
  obtain ⟨step, -, rfl⟩ := List.mem_map.mp hr
  exact ⟨List.forall_mem_nil _, List.forall_mem_nil _⟩

theorem writable_of_records {steps : List ReplayStep} {results : List ReplayStepResult}
    (h : List.Forall₂ (fun step => RecordOf kernel step (adapters.step step)) steps results) :
    ∀ r ∈ results, r.Writable := by
  induction h with
  | nil => exact List.forall_mem_nil _
  | cons hfirst _ ih => exact List.forall_mem_cons.mpr ⟨hfirst.writable, ih⟩

theorem ids_of_records {steps : List ReplayStep} {results : List ReplayStepResult}
    (h : List.Forall₂ (fun step => RecordOf kernel step (adapters.step step)) steps results) :
    results.map ReplayStepResult.stepId = steps.map ReplayStep.stepId := by
  induction h with
  | nil => rfl
  | cons hfirst _ ih => rw [List.map_cons, List.map_cons, hfirst.stepId, ih]

theorem passed_of_records {steps : List ReplayStep} {results : List ReplayStepResult}
    (h : List.Forall₂ (fun step => RecordOf kernel step (adapters.step step)) steps results)
    (hpass : ∀ step ∈ steps, Passes kernel step (adapters.step step)) :
    ∀ r ∈ results, r.status = .passed := by
  induction h with
  | nil => exact List.forall_mem_nil _
  | cons hfirst _ ih =>
      obtain ⟨hstep, hsteps⟩ := List.forall_mem_cons.mp hpass
      exact List.forall_mem_cons.mpr ⟨hfirst.passed hstep, ih hsteps⟩

theorem ids_skippedResults (steps : List ReplayStep) :
    (skippedResults steps).map ReplayStepResult.stepId = steps.map ReplayStep.stepId := by
  rw [skippedResults, List.map_map]
  rfl

/-- The steps of a plan, from the root on. -/
theorem replaySteps_spec (hroot : RootMatches plan root adapters)
    (hanswers : ∀ step ∈ plan.steps, (adapters.step step).Recordable) (capture : StateCapture) :
    ∃ locals, (kernel.replaySteps plan adapters capture).2 = .ok locals ∧
      BodySpec kernel plan root adapters (executed (kernel.replaySteps plan adapters capture).1) locals := by
  have hspec := runSteps_spec kernel hanswers capture
  rw [ReplayKernel.replaySteps]
  dsimp only
  rcases hrun : kernel.runSteps adapters capture plan.steps with ⟨calls, state⟩
  rw [hrun] at hspec
  cases hspec with
  | @finished results final hpass hrecords hactions =>
      have hids := ids_of_records hrecords
      have hpassed := passed_of_records hrecords hpass
      have hne : results ≠ [] := fun hnil => plan.nonempty (by rw [hnil] at hids; simpa using hids.symm)
      refine ⟨_, rfl, .finished hroot hpass ⟨?_, ?_, ?_, ?_, ?_, ?_⟩ rfl hactions⟩
      · exact ⟨(List.append_nil _).symm, .inr hids, List.forall_mem_nil _, List.nodup_nil⟩
      · exact writable_of_records hrecords
      · exact List.forall_mem_nil _
      · exact nofun
      · exact fun _ => ⟨hne, hpassed, nofun, nofun, rfl⟩
      · exact fun h => absurd rfl h
  | @failed before after step passed result final hsteps hpass hfail hrecords hrecord hactions =>
      have hids : (passed ++ result :: skippedResults after).map ReplayStepResult.stepId =
          plan.steps.map ReplayStep.stepId := by
        rw [hsteps, List.map_append, List.map_cons, List.map_append, List.map_cons, ids_of_records hrecords,
          hrecord.stepId, ids_skippedResults]
      have hnone : passed.filter (·.status = .failed) = [] := List.filter_eq_nil_iff.mpr fun r hr => by
        rw [passed_of_records hrecords hpass r hr]
        decide
      refine ⟨_, rfl, .failed before step after hroot ⟨hsteps, hpass, hfail⟩ ⟨?_, ?_, ?_, ?_, ?_, ?_⟩ nofun rfl ?_
        hactions⟩
      · exact ⟨(List.append_nil _).symm, .inr hids, List.forall_mem_nil _, List.nodup_nil⟩
      · exact List.forall_mem_append.mpr ⟨writable_of_records hrecords,
          List.forall_mem_cons.mpr ⟨hrecord.writable, writable_skippedResults⟩⟩
      · exact List.forall_mem_nil _
      · exact nofun
      · exact nofun
      · refine fun _ => ⟨result, (skippedResults after).filter (·.status = .failed), ?_, ?_, nofun⟩
        · rw [List.filter_append, hnone, filter_failed_cons (hrecord.failed hfail)]
          rfl
        · exact congrArg some hrecord.stepId.symm
      · intro s hs
        exact ⟨_, List.mem_append_right _ (List.mem_cons_of_mem _ (List.mem_map_of_mem hs)), rfl, rfl⟩

/-- A replay before its cleanup. -/
theorem replayBody_spec (kernel : ReplayKernel) (root : RootSeed) {runId : String}
    (h : Recordable runId plan adapters) :
    ∃ locals, (kernel.replayBody plan root adapters).2 = .ok locals ∧
      BodySpec kernel plan root adapters (executed (kernel.replayBody plan root adapters).1) locals := by
  rw [ReplayKernel.replayBody]
  split_ifs with hidentifier
  · have hroot : ¬RootMatches plan root adapters := fun hroot => hidentifier hroot.identifier
    refine ⟨_, rfl, .boundary ReplayKernel.preflightFailure hroot ?_ nofun rfl⟩
    exact fits_boundary rfl (by decide +kernel) rfl ⟨List.forall_mem_nil _, List.forall_mem_nil _⟩
      (by decide +kernel) (.inl rfl) rfl
  · cases hreset : adapters.reset with
    | error failure =>
        have hroot : ¬RootMatches plan root adapters := fun hroot => by
          obtain ⟨capture, hcapture, -⟩ := hroot.restored
          rw [hreset] at hcapture
          cases hcapture
        obtain ⟨message, hmessage⟩ := Failure.exists_message (h.reset failure hreset)
          ReplayKernel.environmentTimeout
        have hfailure : ReplayKernel.environmentFailure .reset failure =
            .ok (failedResult ReplayKernel.environmentId (Phase.reset.code failure) message) := by
          rw [ReplayKernel.environmentFailure, hmessage]
          rfl
        dsimp only
        rw [hfailure]
        refine ⟨_, rfl, .boundary _ hroot (fits_boundary rfl ?_ rfl ?_ ?_ (.inl rfl) rfl) nofun rfl⟩
        · exact (by decide +kernel : ReplayKernel.environmentId.val ∈ reservedStepIds)
        · exact ⟨List.forall_mem_nil _, List.forall_mem_nil _⟩
        · exact (by decide +kernel : ReplayKernel.environmentId ≠ ReplayKernel.cleanupId)
    | ok capture =>
        dsimp only
        split_ifs with hfingerprint
        · have hroot : ¬RootMatches plan root adapters := fun hroot => by
            obtain ⟨restored, hrestored, heq⟩ := hroot.restored
            rw [hreset] at hrestored
            cases hrestored
            exact hfingerprint heq
          refine ⟨_, rfl, .boundary (ReplayKernel.rootFailure capture) hroot
            (fits_boundary rfl ?_ rfl ?_ ?_ (.inr ⟨rfl, rfl, rfl⟩) rfl) nofun rfl⟩
          · exact (by decide +kernel : ReplayKernel.rootId.val ∈ reservedStepIds)
          · exact ⟨List.forall_mem_nil _, List.forall_mem_nil _⟩
          · exact (by decide +kernel : ReplayKernel.rootId ≠ ReplayKernel.cleanupId)
        · have hroot : RootMatches plan root adapters :=
            ⟨not_not.mp hidentifier, capture, hreset, not_not.mp hfingerprint⟩
          exact replaySteps_spec hroot h.steps capture

/-! ## Results -/

variable [Sha256]

/-- A run fails at its first failed step. -/
theorem ReplayRunResult.failedStepId_eq (r : ReplayRunResult) :
    r.failedStepId = r.failedSteps.head?.map ReplayStepResult.stepId := by
  have hstatus := r.matches_content.status
  rw [RunContent.checkStatus] at hstatus
  split_ifs at hstatus with h
  · simp only [Imp.check_bind_eq_ok, Imp.require_eq_ok] at hstatus
    obtain ⟨⟨-, hpassed⟩, -, hid⟩ := hstatus
    have hnone : r.failedSteps = [] := List.filter_eq_nil_iff.mpr fun step hstep => by
      rw [hpassed step hstep]
      decide
    rw [hid, hnone]
    rfl
  · cases hfailed : r.failedSteps with
    | nil =>
        rw [hfailed] at hstatus
        cases hstatus
    | cons first rest =>
        rw [hfailed] at hstatus
        exact Imp.require_eq_ok.mp (Imp.check_bind_eq_ok.mp hstatus).1

omit [Sha256] in
theorem BodySpec.exists_fits {actions : List ActionEnvelope} {locals : ReplayKernel.Locals}
    (h : BodySpec kernel plan root adapters actions locals) :
    ∃ recorded boundaries, locals.Fits plan recorded boundaries := by
  cases h with
  | boundary boundary _ hfits => exact ⟨_, _, hfits⟩
  | finished _ _ hfits => exact ⟨_, _, hfits⟩
  | failed _ _ _ _ _ hfits => exact ⟨_, _, hfits⟩

/-- The local variables of a replay after its cleanup. -/
inductive CleanedUp (adapters : Adapters) (locals : ReplayKernel.Locals) : ReplayKernel.Locals → Prop
  | succeeded (h : adapters.cleanup = .ok ()) : CleanedUp adapters locals locals
  | failed (message : FailureMessage) (h : adapters.cleanup ≠ .ok ()) :
      CleanedUp adapters locals (locals.withCleanupFailure message)

/-- Every replay that can be recorded has a result. -/
theorem exists_replay (kernel : ReplayKernel) (root : RootSeed) {runId : String}
    (h : Recordable runId plan adapters) :
    ∃ locals locals' result log, (kernel.replayBody plan root adapters).2 = .ok locals ∧
      BodySpec kernel plan root adapters (executed (kernel.replay runId plan root adapters).1) locals ∧
      CleanedUp adapters locals locals' ∧ (kernel.replay runId plan root adapters).2 = .ok result ∧
      result.runId.val = runId ∧ result.toRunContent = locals'.content plan log := by
  obtain ⟨locals, hbody, hspec⟩ := replayBody_spec kernel root h
  obtain ⟨recorded, boundaries, hfits⟩ := hspec.exists_fits
  have hactions : executed (kernel.replay runId plan root adapters).1 =
      executed (kernel.replayBody plan root adapters).1 := by
    rw [ReplayKernel.replay, executed_append]
    exact List.append_nil _
  rw [hactions]
  cases hcleanup : adapters.cleanup with
  | ok u =>
      obtain ⟨result, hreport, hrunId, log, hcontent⟩ :=
        exists_report h.runId hfits.shape hfits.coherent h.actions hfits.writable
      refine ⟨locals, locals, result, log, hbody, hspec, .succeeded hcleanup, ?_, hrunId, hcontent⟩
      rw [ReplayKernel.replay, hbody, hcleanup]
      exact hreport
  | error failure =>
      have hname : isFailureMessage (ReplayKernel.Failure.className failure) = true := by
        cases failure with
        | timedOut => decide +kernel
        | raised className => exact h.cleanup _ hcleanup className rfl
      let message : FailureMessage := ⟨_, hname⟩
      have hmessage : failureMessage (ReplayKernel.Failure.className failure) = .ok message := dif_pos hname
      have hwritable : ∀ r ∈ (locals.withCleanupFailure message).results, r.Writable :=
        List.forall_mem_append.mpr ⟨hfits.writable,
          List.forall_mem_singleton.mpr ⟨List.forall_mem_nil _, List.forall_mem_nil _⟩⟩
      obtain ⟨result, hreport, hrunId, log, hcontent⟩ := exists_report h.runId
        (hfits.shape_withCleanupFailure message) (hfits.coherent_withCleanupFailure message) h.actions hwritable
      refine ⟨locals, _, result, log, hbody, hspec, .failed message ?_, ?_, hrunId, hcontent⟩
      · rw [hcleanup]
        exact nofun
      · rw [ReplayKernel.replay, hbody, hcleanup]
        refine Imp.except_bind_eq_ok.mpr ⟨_, rfl, Imp.except_bind_eq_ok.mpr
          ⟨locals.withCleanupFailure message, ?_, hreport⟩⟩
        rw [ReplayKernel.Locals.afterCleanup, hmessage]
        rfl

theorem content_of_report {runId : String} {locals : ReplayKernel.Locals} {result : ReplayRunResult}
    (h : ReplayKernel.report runId plan locals = .ok result) : ∃ log,
      ReplayKernel.buildActionLog plan locals.results = .ok log ∧
        result.toRunContent = locals.content plan (log.map Subtype.val) := by
  rw [ReplayKernel.report] at h
  obtain ⟨log, hlog, h⟩ := Imp.except_bind_eq_ok.mp h
  obtain ⟨traceHash, -, h⟩ := Imp.except_bind_eq_ok.mp h
  rw [ReplayRunResult.create] at h
  obtain ⟨text, -, h⟩ := Imp.except_bind_eq_ok.mp h
  refine ⟨log, hlog, ?_⟩
  split at h
  · cases h
  · cases h
    rfl

/-- What a replay does, does not depend on the identifier of the run. -/
theorem content_of_replay {runId runId' : String} {result result' : ReplayRunResult}
    (h : (kernel.replay runId plan root adapters).2 = .ok result)
    (h' : (kernel.replay runId' plan root adapters).2 = .ok result') :
    result.toRunContent = result'.toRunContent := by
  obtain ⟨locals, hbody, h⟩ := Imp.except_bind_eq_ok.mp h
  obtain ⟨cleaned, hcleaned, h⟩ := Imp.except_bind_eq_ok.mp h
  obtain ⟨locals', hbody', h'⟩ := Imp.except_bind_eq_ok.mp h'
  obtain ⟨cleaned', hcleaned', h'⟩ := Imp.except_bind_eq_ok.mp h'
  obtain rfl := Except.ok.inj (hbody.symm.trans hbody')
  obtain rfl := Except.ok.inj (hcleaned.symm.trans hcleaned')
  obtain ⟨log, hlog, hcontent⟩ := content_of_report h
  obtain ⟨log', hlog', hcontent'⟩ := content_of_report h'
  rw [hcontent, hcontent', Except.ok.inj (hlog.symm.trans hlog')]

end Replays

/-! ## A plan of one step -/

namespace Demo

theorem isSha256Digest_zeros :
    isSha256Digest "sha256:0000000000000000000000000000000000000000000000000000000000000000" =
      true := by
  decide +kernel

def digest : Sha256Digest :=
  ⟨"sha256:0000000000000000000000000000000000000000000000000000000000000000",
    isSha256Digest_zeros⟩

theorem isContractId_action : isContractId "action.one" = true := by decide +kernel

theorem isContractId_experiment : isContractId "experiment.one" = true := by decide +kernel

theorem isContractId_world : isContractId "world.one" = true := by decide +kernel

theorem isSelectorRef_buy : isSelectorRef "selector:buy" = true := by decide +kernel

theorem isName_tester : isName "tester" = true := by decide +kernel

theorem isContractId_decision : isContractId "decision.one" = true := by decide +kernel

theorem defaultTimeout_positive : 0 < 30000 := by decide

theorem buy_resolved : (Action.browserClick ⟨"selector:buy", isSelectorRef_buy⟩).isResolved = true := rfl

theorem buy_not_elevated : RiskClass.reversibleStateChange = .elevatedReversible →
    (none : Option ContractId) ≠ none := nofun

theorem buy_not_passive : RiskClass.reversibleStateChange = .passive →
    (Action.browserClick ⟨"selector:buy", isSelectorRef_buy⟩).mayBePassive = true := fun h => by cases h

def click : ActionEnvelope where
  actionId := ⟨"action.one", isContractId_action⟩
  experimentId := ⟨"experiment.one", isContractId_experiment⟩
  worldId := ⟨"world.one", isContractId_world⟩
  scopeAction := .browserInteraction
  action := .browserClick ⟨"selector:buy", isSelectorRef_buy⟩
  riskClass := .reversibleStateChange
  idempotencyKey := digest
  requestedBy := ⟨.human, ⟨"tester", isName_tester⟩, none⟩
  policyDecisionRef := ⟨"decision.one", isContractId_decision⟩
  timeoutPositive := defaultTimeout_positive
  scopeBound := rfl
  resolved := buy_resolved
  elevatedApproved := buy_not_elevated
  passiveReads := buy_not_passive

def isolation : OracleExpectation :=
  ⟨⟨"isolation", by decide +kernel⟩, {OracleOutcome.verdict .satisfied}, Finset.singleton_nonempty _⟩

def step : ReplayStep where
  stepId := ⟨"one", by decide +kernel⟩
  action := click
  oracleExpectations := [isolation]
  timeoutInRange := by decide +kernel
  withinAuthorization := by decide +kernel
  oraclesUnique := List.nodup_singleton _

def plan : ReplayPlan where
  planId := ⟨"plan", by decide +kernel⟩
  rootSeedId := ⟨"seed", by decide +kernel⟩
  steps := [step]
  nonempty := nofun
  notReserved := List.forall_mem_singleton.mpr (by decide +kernel)
  stepIdsUnique := List.nodup_singleton _
  keysUnique := List.nodup_singleton _
  sequences := ⟨rfl, List.nodup_singleton _⟩

def root : RootSeed := ⟨⟨"seed", by decide +kernel⟩, ⟨digest⟩⟩

def kernel : ReplayKernel := ⟨fun _ => true⟩

theorem empty_ascending : (Json.obj ([] : List (String × PlainJson))).Ascending :=
  .obj .nil (List.forall_mem_nil _)

theorem empty_finite : ∀ s ∈ (Json.obj ([] : List (String × PlainJson))).scalars, s.IsFinite :=
  List.forall_mem_nil _

def empty : JsonObject := ⟨[], empty_ascending, empty_finite⟩

/-- A verdict with evidence. -/
def satisfied : OracleResult where
  oracleResultId := ⟨"oracle.one", by decide +kernel⟩
  oracleType := .tenantIsolation
  worldId := ⟨"world.one", isContractId_world⟩
  invariant := ⟨"no leak", by decide +kernel⟩
  result := .satisfied
  observed := empty
  evidenceIds := [⟨"evidence.one", by decide +kernel⟩]
  deterministic := false
  evaluatorVersion := ⟨"builtin-v1", by decide +kernel⟩
  stripped := by decide +kernel
  evidenceUnique := List.nodup_singleton _
  conclusiveEvidenced := fun _ => List.cons_ne_nil _ _
  unknownUnevidenced := fun h => absurd h (by decide)
  deterministicObserved := fun h => absurd h (by decide)
  errorNotDeterministic := nofun

/-- Adapters of which every call returns. -/
def answering : Adapters where
  reset := .ok ⟨digest⟩
  step _ := ⟨.ok ⟨digest⟩, .ok [], .ok ⟨digest⟩, fun _ => .ok satisfied, .ok ⟨digest⟩⟩
  cleanup := .ok ()

/-- Adapters that do not reset in time. -/
def stuck : Adapters := { answering with reset := .error .timedOut }

/-- Adapters whose reset raises an exception of a class with a long name. -/
def verbose : Adapters :=
  { answering with reset := .error (.raised (String.ofList (List.replicate 501 'E'))) }

theorem canWrite_click : CanWrite click.toValue := by
  have haction : CanWrite click.action.toValue := (canWrite_record (by simp) (by simp)).mpr (by simp)
  have hrequester : CanWrite click.requestedBy.toValue :=
    (canWrite_record (by simp) (by simp)).mpr (by simp)
  have hnumber : ∀ n : Nat, n < 1000000000 → CanWrite (.scalar (.int n)) := fun n h =>
    canWrite_scalar.mpr (if_pos (length_toDigits_le h))
  refine (canWrite_record (by simp) (by simp)).mpr ?_
  simpa [click] using ⟨haction, hrequester, hnumber 0 (by decide), hnumber 30000 (by decide)⟩

theorem recordable_answering {runId : String} (h : isNonEmpty runId = true) :
    Recordable runId plan answering where
  runId := h
  actions := List.forall_mem_singleton.mpr canWrite_click
  reset := nofun
  steps := List.forall_mem_singleton.mpr
    { before := nofun
      execute := nofun
      after := nofun
      evaluate := nofun
      observations := fun _ h => by
        cases h
        exact List.forall_mem_nil _
      results := fun _ _ h => by
        cases h
        have hobserved : CanWrite satisfied.observed.toValue :=
          ⟨_, jsonReady_ofJson satisfied.observed.distinct nofun, nofun⟩
        refine (canWrite_record (by simp) (by simp)).mpr ?_
        simpa [identifiers] using ⟨hobserved, canWrite_scalar.mpr rfl⟩ }
  cleanup := nofun

theorem recordable_run : Recordable "run" plan answering := recordable_answering (by decide +kernel)

end Demo

end StateWeaver.Replay
