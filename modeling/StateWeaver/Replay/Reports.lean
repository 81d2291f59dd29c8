import StateWeaver.Replay.Steps

/-!
# What a replay reports

The action log has an entry for each step of the plan that has a result, and the result that is made of it
passes its own validation.
-/

namespace StateWeaver.Replay

open Contracts

/-! ## Lists with distinct keys -/

theorem find?_of_nodup_map {α κ : Type} [DecidableEq κ] {key : α → κ} {l : List α} (h : (l.map key).Nodup)
    {a : α} (ha : a ∈ l) : l.find? (fun b => key b = key a) = some a := by
  induction l with
  | nil => cases ha
  | cons b l ih =>
      obtain ⟨hb, hl⟩ := List.nodup_cons.mp h
      rcases List.mem_cons.mp ha with rfl | ha
      · exact List.find?_cons_of_pos (decide_eq_true rfl)
      · rw [List.find?_cons_of_neg, ih hl ha]
        exact fun heq => hb (of_decide_eq_true heq ▸ List.mem_map_of_mem ha)

/-! ## The action log -/

/-- What is recorded of a step can be written. -/
structure ReplayStepResult.Writable (result : ReplayStepResult) : Prop where
  observations : ∀ o ∈ result.observations, CanWrite o.toValue
  oracleResults : ∀ r ∈ result.oracleResults, CanWrite r.toValue

theorem ReplayStepResult.Writable.canWrite {result : ReplayStepResult} (h : result.Writable) :
    CanWrite result.toValue := by
  refine (canWrite_record (by simp) (by simp)).mpr ?_
  simpa using ⟨h.observations, h.oracleResults⟩

variable [Sha256]

/-- What the log entry of a step says. -/
structure EntryOf (plan : ReplayPlan) (result : ReplayStepResult) (entry : ReplayActionLogEntry) : Prop where
  stepId : entry.stepId = result.stepId
  status : entry.status = result.status
  before : entry.beforeFingerprint = result.beforeFingerprint
  after : entry.afterFingerprint = result.afterFingerprint
  observed : observationHash result.observations = .ok entry.observationHash
  evaluated : oracleResultsHash result.oracleResults = .ok entry.oracleResultsHash
  evidence : entry.evidenceIds = result.evidenceIds
  trace : causalTraceId plan.planId entry.stepId entry.envelopeHash = .ok entry.traceId
  written : CanWrite entry.toValue

theorem exists_logEntry (plan : ReplayPlan) {step : ReplayStep} {result : ReplayStepResult}
    (hid : result.stepId = step.stepId) (haction : CanWrite step.action.toValue) (hresult : result.Writable) :
    ∃ entry, ReplayKernel.logEntry plan step result = .ok entry ∧ EntryOf plan result entry.val := by
  have hparts := (canWrite_record (by simp) (by simp)).mp haction
  have hrequest : CanWrite step.action.action.toValue := hparts _ (List.mem_of_getElem? (i := 5) rfl)
  have hsequence : CanWrite (.scalar (.int step.action.sequence)) :=
    hparts _ (List.mem_of_getElem? (i := 13) rfl)
  obtain ⟨envelope, henvelope⟩ := exists_hashOf (by simp) haction
  obtain ⟨cause, hcause⟩ := exists_hashOf (wellKeyed_causalValue plan.planId step.stepId envelope)
    ((canWrite_record (by simp) (by simp)).mpr (by simp))
  obtain ⟨template, htemplate⟩ := exists_hashOf (by simp) hrequest
  obtain ⟨observed, hobserved⟩ := exists_hashOf
    (v := .list (result.observations.map ReplayObservation.toValue)) (by simp) (by simpa using hresult.observations)
  obtain ⟨evaluated, hevaluated⟩ := exists_hashOf
    (v := .list (result.oracleResults.map OracleResult.toValue)) (by simp) (by simpa using hresult.oracleResults)
  have htrace : causalTraceId plan.planId step.stepId envelope = .ok (traceIdOf cause) := by
    rw [causalTraceId, hcause]
    rfl
  let entry : ReplayActionLogEntry :=
    { stepId := step.stepId
      action := step.action
      actionId := ofContractId step.action.actionId
      actionType := ⟨step.action.action.type, isNonEmpty_type _⟩
      sequence := step.action.sequence
      status := result.status
      idempotencyKey := step.action.idempotencyKey
      policyDecisionRef := ofContractId step.action.policyDecisionRef
      traceId := traceIdOf cause
      parameterArtifact := bodyArtifact step.action.action
      envelopeHash := envelope
      requestTemplateHash := template
      beforeFingerprint := result.beforeFingerprint
      afterFingerprint := result.afterFingerprint
      observationHash := observed
      oracleResultsHash := evaluated
      evidenceIds := result.evidenceIds
      evidenceUnique := result.nodup_evidenceIds }
  have hmatches : entry.duplicatedActionFieldsMatchEnvelope = .ok () := by
    rw [ReplayActionLogEntry.duplicatedActionFieldsMatchEnvelope, Imp.check_bind_eq_ok, Imp.require_eq_ok]
    refine ⟨⟨rfl, rfl, rfl, rfl, rfl, rfl⟩, ?_⟩
    rw [henvelope]
    refine Imp.check_bind_eq_ok.mpr ⟨Imp.require_eq_ok.mpr rfl, ?_⟩
    rw [htemplate]
    exact Imp.require_eq_ok.mpr rfl
  have hcreate : ReplayActionLogEntry.create entry = .ok ⟨entry, hmatches⟩ := by
    rw [ReplayActionLogEntry.create]
    split
    · next e he => rw [hmatches] at he; cases he
    · rfl
  refine ⟨⟨entry, hmatches⟩, ?_, hid.symm, rfl, rfl, rfl, hobserved, hevaluated, rfl, htrace, ?_⟩
  · rw [ReplayKernel.logEntry, henvelope]
    refine Imp.except_bind_eq_ok.mpr ⟨envelope, rfl, Imp.except_bind_eq_ok.mpr ⟨_, htrace, ?_⟩⟩
    refine Imp.except_bind_eq_ok.mpr ⟨template, htemplate, Imp.except_bind_eq_ok.mpr ⟨observed, hobserved, ?_⟩⟩
    exact Imp.except_bind_eq_ok.mpr ⟨evaluated, hevaluated, hcreate⟩
  · refine (canWrite_record (by simp) (by simp)).mpr ?_
    simpa using ⟨haction, hsequence⟩

/-- The entries of steps that all have a result. -/
theorem exists_logEntries {plan : ReplayPlan} {results recorded : List ReplayStepResult}
    {steps : List ReplayStep}
    (h : List.Forall₂ (fun step result => result.stepId = step.stepId ∧ CanWrite step.action.toValue ∧
      results.reverse.find? (fun r => r.stepId = step.stepId) = some result ∧ result.Writable) steps recorded) :
    ∃ entries, ReplayKernel.logEntries plan results steps = .ok entries ∧
      List.Forall₂ (EntryOf plan) recorded (entries.map Subtype.val) := by
  induction h with
  | nil => exact ⟨[], rfl, .nil⟩
  | @cons step result steps recorded hfirst _ ih =>
      obtain ⟨hid, haction, hfind, hresult⟩ := hfirst
      obtain ⟨entries, hentries, hall⟩ := ih
      obtain ⟨entry, hentry, hof⟩ := exists_logEntry plan hid haction hresult
      refine ⟨entry :: entries, ?_, .cons hof hall⟩
      rw [ReplayKernel.logEntries, hfind]
      refine Imp.except_bind_eq_ok.mpr ⟨entry, hentry, ?_⟩
      rw [hentries]
      rfl

/-- Steps without a result have no entry. -/
theorem logEntries_of_none {plan : ReplayPlan} {results : List ReplayStepResult} {steps : List ReplayStep}
    (h : ∀ step ∈ steps, ∀ result ∈ results, result.stepId ≠ step.stepId) :
    ReplayKernel.logEntries plan results steps = .ok [] := by
  induction steps with
  | nil => rfl
  | cons step steps ih =>
      obtain ⟨hstep, hsteps⟩ := List.forall_mem_cons.mp h
      have hnone : results.reverse.find? (fun r => r.stepId = step.stepId) = none :=
        List.find?_eq_none.mpr fun r hr => by
          rw [decide_eq_true_eq]
          exact hstep r (List.mem_reverse.mp hr)
      rw [ReplayKernel.logEntries, hnone]
      exact ih hsteps

/-- An entry agrees with the result of its step. -/
theorem checkEntry_of_entryOf {plan : ReplayPlan} {content : RunContent} {result : ReplayStepResult}
    {entry : ReplayActionLogEntry} (hplan : content.planId = plan.planId)
    (hunique : (content.steps.map ReplayStepResult.stepId).Nodup) (hresult : result ∈ content.steps)
    (h : EntryOf plan result entry) : content.checkEntry entry = .ok () := by
  have hfind : content.steps.find? (fun step => step.stepId = entry.stepId) = some result := by
    rw [h.stepId]
    exact find?_of_nodup_map hunique hresult
  rw [RunContent.checkEntry, hfind]
  refine Imp.check_bind_eq_ok.mpr ⟨Imp.require_eq_ok.mpr h.status.symm, ?_⟩
  refine Imp.check_bind_eq_ok.mpr ⟨Imp.require_eq_ok.mpr ⟨h.before, h.after⟩, ?_⟩
  refine Imp.except_bind_eq_ok.mpr ⟨_, h.observed, Imp.check_bind_eq_ok.mpr ⟨Imp.require_eq_ok.mpr rfl, ?_⟩⟩
  refine Imp.except_bind_eq_ok.mpr ⟨_, h.evaluated, Imp.check_bind_eq_ok.mpr ⟨Imp.require_eq_ok.mpr rfl, ?_⟩⟩
  refine Imp.check_bind_eq_ok.mpr ⟨Imp.require_eq_ok.mpr h.evidence, ?_⟩
  rw [hplan]
  exact Imp.except_bind_eq_ok.mpr ⟨_, h.trace, Imp.require_eq_ok.mpr rfl⟩

/-! ## Reports -/

omit [Sha256] in
theorem not_reserved {plan : ReplayPlan} {results : List ReplayStepResult}
    (h : results.map ReplayStepResult.stepId = plan.steps.map ReplayStep.stepId) :
    ∀ r ∈ results, r.stepId.val ∉ reservedStepIds := by
  intro r hr
  have hmem : r.stepId ∈ plan.steps.map ReplayStep.stepId := h ▸ List.mem_map_of_mem hr
  obtain ⟨step, hstep, heq⟩ := List.mem_map.mp hmem
  rw [← heq]
  exact plan.notReserved step hstep

/-- The results of a replay: those of all steps of the plan, or of none, and then those of boundaries. -/
structure Shape (plan : ReplayPlan) (results recorded boundaries : List ReplayStepResult) : Prop where
  split : results = recorded ++ boundaries
  allOrNone : recorded = [] ∨ recorded.map ReplayStepResult.stepId = plan.steps.map ReplayStep.stepId
  reserved : ∀ r ∈ boundaries, r.stepId.val ∈ reservedStepIds
  boundariesUnique : (boundaries.map ReplayStepResult.stepId).Nodup

namespace Shape

variable {plan : ReplayPlan} {results recorded boundaries : List ReplayStepResult}

omit [Sha256] in
theorem recorded_not_reserved (h : Shape plan results recorded boundaries) :
    ∀ r ∈ recorded, r.stepId.val ∉ reservedStepIds := by
  rcases h.allOrNone with rfl | hids
  · exact List.forall_mem_nil _
  · exact not_reserved hids

omit [Sha256] in
theorem nodup (h : Shape plan results recorded boundaries) :
    (results.map ReplayStepResult.stepId).Nodup := by
  rw [h.split, List.map_append]
  refine List.nodup_append.mpr ⟨?_, h.boundariesUnique, ?_⟩
  · rcases h.allOrNone with rfl | hids
    · exact List.nodup_nil
    · rw [hids]
      have hplan : ((plan.steps.map ReplayStep.stepId).map Constrained.val).Nodup := by
        rw [List.map_map]
        exact plan.stepIdsUnique
      exact hplan.of_map _
  · rintro id hid id' hid' rfl
    obtain ⟨r, hr, rfl⟩ := List.mem_map.mp hid
    obtain ⟨b, hb, heq⟩ := List.mem_map.mp hid'
    exact h.recorded_not_reserved r hr (heq ▸ h.reserved b hb)

omit [Sha256] in
/-- The results of steps are those whose identifiers are not reserved. -/
theorem filter_ids (h : Shape plan results recorded boundaries) :
    (results.map ReplayStepResult.stepId).filter (fun id => id.val ∉ reservedStepIds) =
      recorded.map ReplayStepResult.stepId := by
  rw [h.split, List.map_append, List.filter_append]
  have hkeep : (recorded.map ReplayStepResult.stepId).filter (fun id => id.val ∉ reservedStepIds) =
      recorded.map ReplayStepResult.stepId := by
    refine List.filter_eq_self.mpr fun id hid => ?_
    obtain ⟨r, hr, rfl⟩ := List.mem_map.mp hid
    exact decide_eq_true (h.recorded_not_reserved r hr)
  have hdrop : (boundaries.map ReplayStepResult.stepId).filter (fun id => id.val ∉ reservedStepIds) = [] := by
    refine List.filter_eq_nil_iff.mpr fun id hid hmem => ?_
    obtain ⟨b, hb, rfl⟩ := List.mem_map.mp hid
    exact of_decide_eq_true hmem (h.reserved b hb)
  rw [hkeep, hdrop, List.append_nil]

/-- The action log of a replay. -/
theorem exists_actionLog (h : Shape plan results recorded boundaries)
    (hactions : ∀ step ∈ plan.steps, CanWrite step.action.toValue)
    (hwritable : ∀ r ∈ results, r.Writable) :
    ∃ entries, ReplayKernel.buildActionLog plan results = .ok entries ∧
      List.Forall₂ (EntryOf plan) recorded (entries.map Subtype.val) := by
  rw [ReplayKernel.buildActionLog]
  have hresults := h.split
  have hnodup := h.nodup
  rcases h.allOrNone with rfl | hids
  · refine ⟨[], logEntries_of_none fun step hstep result hresult heq => ?_, .nil⟩
    rw [h.split, List.nil_append] at hresult
    exact plan.notReserved step hstep (heq ▸ h.reserved result hresult)
  · refine exists_logEntries (List.forall₂_iff_get.mpr ⟨?_, fun i hi hi' => ?_⟩)
    · simpa using (congrArg List.length hids).symm
    · have hid : (recorded.get ⟨i, hi'⟩).stepId = (plan.steps.get ⟨i, hi⟩).stepId := by
        have hget := List.getElem_of_eq hids (i := i) (by simpa using hi')
        simpa using hget
      have hmem : recorded.get ⟨i, hi'⟩ ∈ results := by
        rw [hresults]
        exact List.mem_append_left _ (List.get_mem _ _)
      refine ⟨hid, hactions _ (List.get_mem _ _), ?_, hwritable _ hmem⟩
      rw [← hid]
      refine find?_of_nodup_map ?_ (List.mem_reverse.mpr hmem)
      rw [List.map_reverse]
      exact List.nodup_reverse.mpr hnodup

end Shape

/-- A status that fits the results. -/
def ReplayKernel.Locals.Coherent (plan : ReplayPlan) (locals : ReplayKernel.Locals) : Prop :=
  ∀ log, (locals.content plan log).checkStatus = .ok () ∧
    (locals.runStatus = .cleanupFailed ↔
      ∃ step ∈ (locals.content plan log).failedSteps, step.stepId.val = "cleanup")

/-- A replay whose results have their shape and can be written has a result. -/
theorem exists_report {plan : ReplayPlan} {runId : String} {locals : ReplayKernel.Locals}
    {recorded boundaries : List ReplayStepResult} (hrunId : isNonEmpty runId = true)
    (hshape : Shape plan locals.results recorded boundaries) (hcoherent : locals.Coherent plan)
    (hactions : ∀ step ∈ plan.steps, CanWrite step.action.toValue)
    (hwritable : ∀ r ∈ locals.results, r.Writable) :
    ∃ result, ReplayKernel.report runId plan locals = .ok result ∧ result.runId.val = runId ∧
      ∃ log, result.toRunContent = locals.content plan log := by
  obtain ⟨entries, hentries, hall⟩ := hshape.exists_actionLog hactions hwritable
  let log := entries.map Subtype.val
  have hids : log.map ReplayActionLogEntry.stepId = recorded.map ReplayStepResult.stepId := by
    rw [← List.forall₂_eq_eq_eq, List.forall₂_map_left_iff, List.forall₂_map_right_iff]
    exact (List.forall₂_iff_get.mpr ⟨hall.length_eq.symm, fun i hi hi' =>
      ((List.forall₂_iff_get.mp hall).2 i hi' hi).stepId⟩)
  have hwritten : CanWrite (locals.content plan log).traceValue := by
    have hlog : ∀ entry ∈ log, CanWrite entry.toValue := by
      intro entry hentry
      obtain ⟨i, hi, rfl⟩ := List.getElem_of_mem hentry
      exact ((List.forall₂_iff_get.mp hall).2 i (hall.length_eq ▸ hi) hi).written
    have hsteps : ∀ r ∈ locals.results, CanWrite r.toValue := fun r hr => (hwritable r hr).canWrite
    refine (canWrite_record (by simp) (by simp)).mpr ?_
    simpa using ⟨hsteps, hlog⟩
  obtain ⟨traceHash, hhash⟩ := exists_hashOf (by simp) hwritten
  have hmatches : (locals.content plan log).Matches traceHash := by
    refine ⟨hshape.nodup, (hcoherent log).1, (hcoherent log).2, ?_, ?_, fun entry hentry => ?_, hhash⟩
    · change (log.map ReplayActionLogEntry.stepId).Nodup
      rw [hids, ← hshape.filter_ids]
      exact hshape.nodup.filter _
    · exact hids.trans hshape.filter_ids.symm
    · obtain ⟨i, hi, rfl⟩ := List.getElem_of_mem hentry
      have hi' : i < recorded.length := hall.length_eq ▸ hi
      refine checkEntry_of_entryOf rfl hshape.nodup ?_ ((List.forall₂_iff_get.mp hall).2 i hi' hi)
      change recorded.get ⟨i, hi'⟩ ∈ locals.results
      rw [hshape.split]
      exact List.mem_append_left _ (List.get_mem _ _)
  have haccepted := RunContent.actionLogMatchesStepResults_eq_ok.mpr hmatches
  have hentriesMatch : ∀ entry ∈ log, entry.duplicatedActionFieldsMatchEnvelope = .ok () := by
    intro entry hentry
    obtain ⟨checked, -, rfl⟩ := List.mem_map.mp hentry
    exact checked.property
  refine ⟨⟨locals.content plan log, ⟨runId, hrunId⟩, traceHash, hentriesMatch, haccepted⟩, ?_, rfl, log, rfl⟩
  refine Imp.except_bind_eq_ok.mpr ⟨entries, hentries, Imp.except_bind_eq_ok.mpr ⟨traceHash, hhash, ?_⟩⟩
  have htext : nonEmpty runId = .ok ⟨runId, hrunId⟩ := nonEmpty_eq_ok.mpr rfl
  refine Imp.except_bind_eq_ok.mpr ⟨_, htext, ?_⟩
  split
  · next e he =>
      rw [haccepted] at he
      cases he
  · rfl

end StateWeaver.Replay
