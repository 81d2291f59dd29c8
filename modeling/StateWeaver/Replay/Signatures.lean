import StateWeaver.Replay.Results

/-!
# What the hash of a result covers

The trace hash of a result is the hash of all that it says, so where the hash function does not collide,
results with equal hashes say the same.
-/

namespace StateWeaver.Replay

open Contracts

/-! ## Results that are written alike -/

theorem ReplayStepStatus.value_inj {a b : ReplayStepStatus} (h : a.value = b.value) : a = b := by
  cases a <;> cases b <;> first | rfl | exact absurd h (by decide)

theorem ReplayRunStatus.value_inj {a b : ReplayRunStatus} (h : a.value = b.value) : a = b := by
  cases a <;> cases b <;> first | rfl | exact absurd h (by decide)

theorem texts_inj {pattern : String → Bool} {l l' : List (Constrained pattern)}
    (h : Alike (.list (l.map Constrained.toValue)) (.list (l'.map Constrained.toValue))) : l = l' :=
  Alike.list_inj (fun h => text_inj h) h

theorem ReplayObservation.eq_of_alike {a b : ReplayObservation} (h : Alike a.toValue b.toValue) : a = b := by
  have hid := text_inj (h.entry 0 rfl rfl)
  have hkind := text_inj (h.entry 1 rfl rfl)
  have hpayload := JsonObject.eq_of_alike (h.entry 2 rfl rfl)
  have hevidence := texts_inj (h.entry 3 rfl rfl)
  cases a
  cases b
  exact (ReplayObservation.mk.injEq ..).mpr ⟨hid, hkind, hpayload, hevidence⟩

theorem ReplayStepResult.eq_of_alike {a b : ReplayStepResult} (h : Alike a.toValue b.toValue) : a = b := by
  have hid := text_inj (h.entry 0 rfl rfl)
  have hstatus := ReplayStepStatus.value_inj (h.entry 1 rfl rfl).enum
  have hbefore := optionalConstrained_inj (h.entry 2 rfl rfl)
  have hafter := optionalConstrained_inj (h.entry 3 rfl rfl)
  have hobservations := Alike.list_inj ReplayObservation.eq_of_alike (h.entry 4 rfl rfl)
  have horacles := Alike.list_inj OracleResult.eq_of_alike (h.entry 5 rfl rfl)
  have hcode := optionalConstrained_inj (h.entry 6 rfl rfl)
  have hmessage := optionalConstrained_inj (h.entry 7 rfl rfl)
  have hdetails : a.toFailureDetails = b.toFailureDetails :=
    (FailureDetails.mk.injEq ..).mpr ⟨hcode, hmessage⟩
  cases a
  cases b
  exact (ReplayStepResult.mk.injEq ..).mpr
    ⟨hdetails, hid, hstatus, hbefore, hafter, hobservations, horacles⟩

theorem ReplayActionLogEntry.eq_of_alike {a b : ReplayActionLogEntry} (h : Alike a.toValue b.toValue) :
    a = b := by
  have hstep := text_inj (h.entry 0 rfl rfl)
  have haction := ActionEnvelope.eq_of_alike (h.entry 1 rfl rfl)
  have hid := text_inj (h.entry 2 rfl rfl)
  have htype := text_inj (h.entry 3 rfl rfl)
  have hsequence := nat_inj (h.entry 4 rfl rfl)
  have hstatus := ReplayStepStatus.value_inj (h.entry 5 rfl rfl).enum
  have hkey := text_inj (h.entry 6 rfl rfl)
  have hdecision := text_inj (h.entry 7 rfl rfl)
  have htrace := text_inj (h.entry 8 rfl rfl)
  have hartifact := optionalConstrained_inj (h.entry 9 rfl rfl)
  have henvelope := text_inj (h.entry 10 rfl rfl)
  have htemplate := text_inj (h.entry 11 rfl rfl)
  have hbefore := optionalConstrained_inj (h.entry 12 rfl rfl)
  have hafter := optionalConstrained_inj (h.entry 13 rfl rfl)
  have hobserved := text_inj (h.entry 14 rfl rfl)
  have hevaluated := text_inj (h.entry 15 rfl rfl)
  have hevidence := texts_inj (h.entry 16 rfl rfl)
  cases a
  cases b
  exact (ReplayActionLogEntry.mk.injEq ..).mpr ⟨hstep, haction, hid, htype, hsequence, hstatus, hkey, hdecision,
    htrace, hartifact, henvelope, htemplate, hbefore, hafter, hobserved, hevaluated, hevidence⟩

theorem RunContent.eq_of_alike {a b : RunContent} (h : Alike a.traceValue b.traceValue) : a = b := by
  have hplan := text_inj (h.entry 0 rfl rfl)
  have hstatus := ReplayRunStatus.value_inj (h.entry 1 rfl rfl).enum
  have hroot := optionalConstrained_inj (h.entry 2 rfl rfl)
  have hfinal := optionalConstrained_inj (h.entry 3 rfl rfl)
  have hsteps := Alike.list_inj ReplayStepResult.eq_of_alike (h.entry 4 rfl rfl)
  have hlog := Alike.list_inj ReplayActionLogEntry.eq_of_alike (h.entry 5 rfl rfl)
  have hfailed := optionalConstrained_inj (h.entry 6 rfl rfl)
  cases a
  cases b
  exact (RunContent.mk.injEq ..).mpr ⟨hplan, hstatus, hroot, hfinal, hsteps, hlog, hfailed⟩

/-! ## The keys of what is written -/

@[simp]
theorem wellKeyed_jsonObject (o : JsonObject) : WellKeyed o.toValue := wellKeyed_ofJson o.distinct

@[simp]
theorem wellKeyed_actionTarget (t : ActionTarget) : WellKeyed t.toValue :=
  .record (by simp) (by simp) (by simp)

@[simp]
theorem wellKeyed_httpParameter (p : HttpParameter) : WellKeyed p.toValue :=
  .record (by simp) (by simp) (by simp)

@[simp]
theorem wellKeyed_httpHeader (h : HttpHeader) : WellKeyed h.toValue :=
  .record (by simp) (by simp) (by simp)

@[simp]
theorem wellKeyed_action (a : Action) : WellKeyed a.toValue := by
  cases a <;> exact .record (by simp) (by simp) (by simp)

@[simp]
theorem wellKeyed_actionGuard (g : ActionGuard) : WellKeyed g.toValue :=
  .record (by simp) (by simp) (by simp)

@[simp]
theorem wellKeyed_expectedEffect (e : ExpectedEffect) : WellKeyed e.toValue :=
  .record (by simp) (by simp) (by simp)

@[simp]
theorem wellKeyed_requestedBy (r : RequestedBy) : WellKeyed r.toValue :=
  .record (by simp) (by simp) (by simp)

@[simp]
theorem wellKeyed_actionEnvelope (e : ActionEnvelope) : WellKeyed e.toValue :=
  .record (by simp) (by simp) (by simp)

@[simp]
theorem wellKeyed_oracleResult (r : OracleResult) : WellKeyed r.toValue :=
  .record (by simp) (by simp) (by simp [identifiers])

@[simp]
theorem wellKeyed_replayObservation (o : ReplayObservation) : WellKeyed o.toValue :=
  .record (by simp) (by simp) (by simp)

@[simp]
theorem wellKeyed_replayStepResult (r : ReplayStepResult) : WellKeyed r.toValue :=
  .record (by simp) (by simp) (by simp)

@[simp]
theorem wellKeyed_replayActionLogEntry (e : ReplayActionLogEntry) : WellKeyed e.toValue :=
  .record (by simp) (by simp) (by simp)

theorem wellKeyed_causalValue (planId stepId : NonEmpty) (envelopeHash : Sha256Digest) :
    WellKeyed (causalValue planId stepId envelopeHash) :=
  .record (by simp) (by simp) (by simp)

@[simp]
theorem RunContent.wellKeyed_traceValue (r : RunContent) : WellKeyed r.traceValue :=
  .record (by simp) (by simp) (by simp)

/-! ## What is checked -/

variable [Sha256]

/-- What `action_log_matches_step_results` asks for. -/
structure RunContent.Matches (r : RunContent) (traceHash : Sha256Digest) : Prop where
  stepIdsUnique : (r.steps.map ReplayStepResult.stepId).Nodup
  status : r.checkStatus = .ok ()
  cleanup : r.status = .cleanupFailed ↔ ∃ step ∈ r.failedSteps, step.stepId.val = "cleanup"
  logIdsUnique : (r.actionLog.map ReplayActionLogEntry.stepId).Nodup
  logIds : r.actionLog.map ReplayActionLogEntry.stepId =
    (r.steps.map ReplayStepResult.stepId).filter fun id => id.val ∉ reservedStepIds
  entries : ∀ entry ∈ r.actionLog, r.checkEntry entry = .ok ()
  hashed : hashOf r.traceValue = .ok traceHash

theorem RunContent.actionLogMatchesStepResults_eq_ok {r : RunContent} {traceHash : Sha256Digest} :
    r.actionLogMatchesStepResults traceHash = .ok () ↔ r.Matches traceHash := by
  rw [actionLogMatchesStepResults]
  simp only [Imp.check_bind_eq_ok, Imp.require_eq_ok, Imp.forEach_eq_ok]
  simp only [Imp.except_bind_eq_ok, Imp.require_eq_ok]
  constructor
  · rintro ⟨hsteps, hstatus, hcleanup, hunique, hids, hentries, expected, hhash, rfl⟩
    exact ⟨hsteps, hstatus, hcleanup, hunique, hids, hentries, hhash⟩
  · rintro ⟨hsteps, hstatus, hcleanup, hunique, hids, hentries, hhash⟩
    exact ⟨hsteps, hstatus, hcleanup, hunique, hids, hentries, traceHash, hhash, rfl⟩

namespace ReplayRunResult

theorem matches_content (r : ReplayRunResult) : r.Matches r.traceHash :=
  RunContent.actionLogMatchesStepResults_eq_ok.mp r.logMatches

theorem deterministicSignature_eq (r : ReplayRunResult) : r.deterministicSignature = .ok r.traceHash :=
  r.matches_content.hashed

/-- All but the identifier of the run is equal. -/
def SameApartFromRunId (a b : ReplayRunResult) : Prop :=
  a.toRunContent = b.toRunContent ∧ a.traceHash = b.traceHash

/-- The trace hash tells all but the identifier of the run. -/
theorem sameApartFromRunId_iff {a b : ReplayRunResult} {values : Set Value} (hfree : CollisionFree values)
    (ha : a.traceValue ∈ values) (hb : b.traceValue ∈ values) :
    a.SameApartFromRunId b ↔ a.traceHash = b.traceHash := by
  refine ⟨And.right, fun h => ⟨?_, h⟩⟩
  have hhash := (hashOf_eq_ok a.wellKeyed_traceValue).mp a.matches_content.hashed
  have hhash' := (hashOf_eq_ok b.wellKeyed_traceValue).mp b.matches_content.hashed
  rw [h] at hhash
  exact RunContent.eq_of_alike (hfree.alike ha hb hhash hhash')

end ReplayRunResult

end StateWeaver.Replay
