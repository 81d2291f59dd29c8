import Mathlib
import StateWeaver.Contracts.Actions

/-!
# Replay plans

A step has an envelope and a timeout within the one that the envelope authorizes. The steps of a plan have
distinct identifiers and idempotency keys, and their sequence numbers ascend.
-/

namespace StateWeaver.Replay

open Contracts

/-- The constraint of `NonEmpty`. -/
def isNonEmpty (s : String) : Bool := hasLength 1 256 s

abbrev NonEmpty := Constrained isNonEmpty

/-- Validate a text, which is not stripped. -/
def nonEmpty (s : String) : Except String NonEmpty :=
  if h : isNonEmpty s = true then .ok ⟨s, h⟩ else .error "String should have 1 to 256 characters"

structure OracleExpectation where
  oracleId : NonEmpty
  allowedResults : Finset NonEmpty
  allowedNonempty : allowedResults.Nonempty
  deriving DecidableEq

/-- `timeout_seconds * 1_000 > timeout_ms`. -/
def exceeds (timeoutSeconds : Float) (timeoutMs : Nat) : Bool :=
  match Py.Number.arith (· * ·) (· * ·) (.float timeoutSeconds) (.int 1000) with
  | some milliseconds => milliseconds.toScalar.compare? (.int timeoutMs) = some (some .gt)
  | none => false

structure ReplayStep where
  stepId : NonEmpty
  action : ActionEnvelope
  oracleExpectations : List OracleExpectation := []
  timeoutSeconds : Float := 10.0
  timeoutInRange : 0 < timeoutSeconds ∧ timeoutSeconds ≤ 60
  withinAuthorization : exceeds timeoutSeconds action.timeoutMs = false
  oraclesUnique : (oracleExpectations.map OracleExpectation.oracleId).Nodup

/-- `ReplayStep(..)`. -/
def ReplayStep.create (stepId : String) (action : ActionEnvelope)
    (oracleExpectations : List OracleExpectation) (timeoutSeconds : Float) : Except String ReplayStep := do
  let stepId ← nonEmpty stepId
  if hrange : 0 < timeoutSeconds ∧ timeoutSeconds ≤ 60 then
    if hwithin : exceeds timeoutSeconds action.timeoutMs = false then
      if hunique : (oracleExpectations.map OracleExpectation.oracleId).Nodup then
        return ⟨stepId, action, oracleExpectations, timeoutSeconds, hrange, hwithin, hunique⟩
      else .error "oracle expectations must be unique by oracle_id"
    else .error "step timeout cannot exceed the authorized action timeout"
  else .error "Input should be greater than 0 and less than or equal to 60"

/-- The step identifiers of boundaries. -/
def reservedStepIds : List String := ["root", "preflight", "environment", "cleanup"]

structure ReplayPlan where
  schemaVersion : String := "1.0"
  planId : NonEmpty
  rootSeedId : NonEmpty
  steps : List ReplayStep
  nonempty : steps ≠ []
  notReserved : ∀ step ∈ steps, step.stepId.val ∉ reservedStepIds
  stepIdsUnique : (steps.map fun step => step.stepId.val).Nodup
  keysUnique : (steps.map fun step => step.action.idempotencyKey).Nodup
  sequences : (steps.map fun step => step.action.sequence) =
      (steps.map fun step => step.action.sequence).insertionSort (· ≤ ·) ∧
    (steps.map fun step => step.action.sequence).Nodup

/-- `ReplayPlan(..)`. -/
def ReplayPlan.create (planId rootSeedId : String) (steps : List ReplayStep) : Except String ReplayPlan := do
  let planId ← nonEmpty planId
  let rootSeedId ← nonEmpty rootSeedId
  if hnonempty : steps ≠ [] then
    if hreserved : ∀ step ∈ steps, step.stepId.val ∉ reservedStepIds then
      if hids : (steps.map fun step => step.stepId.val).Nodup then
        if hkeys : (steps.map fun step => step.action.idempotencyKey).Nodup then
          if hsequences : (steps.map fun step => step.action.sequence) =
                (steps.map fun step => step.action.sequence).insertionSort (· ≤ ·) ∧
              (steps.map fun step => step.action.sequence).Nodup then
            return ⟨"1.0", planId, rootSeedId, steps, hnonempty, hreserved, hids, hkeys, hsequences⟩
          else .error "action sequence values must be unique and monotonically increasing"
        else .error "idempotency_key values must be unique within a replay plan"
      else .error "step_id values must be unique"
    else .error "replay step IDs cannot use reserved boundary names"
  else .error "Tuple should have at least 1 item after validation, not 0"

/-! ## Timeouts -/

/-- The default timeout exceeds what authorizes less than ten seconds. -/
theorem exceeds_default {timeoutMs : Nat} : exceeds 10.0 timeoutMs = true ↔ timeoutMs < 10000 := by
  have hproduct : Py.Number.arith (· * ·) (· * ·) (.float 10.0) (.int 1000) = some (.float 10000.0) := by
    decide +kernel
  have hplace : Py.floatPosition 10000.0 = .at (10000 * 2 ^ 1074) := by decide +kernel
  rw [exceeds, hproduct]
  simp only [Py.Number.toScalar, Py.Scalar.compare?, Py.Scalar.key, hplace, Py.intPosition,
    Py.Position.compare?, decide_eq_true_eq, Option.some.injEq, compare_gt_iff_gt]
  have hunit : (0 : Int) < 2 ^ 1074 := Int.pow_pos (by decide)
  generalize (2 : Int) ^ 1074 = unit at hunit
  rw [Int.mul_lt_mul_right hunit]
  exact Int.ofNat_lt (m := 10000)

/-! ## What is accepted -/

theorem nonEmpty_eq_ok {s : String} {text : NonEmpty} :
    nonEmpty s = .ok text ↔ text.val = s := by
  rw [nonEmpty]
  split_ifs with h
  · rw [Except.ok.injEq]
    exact ⟨fun heq => heq ▸ rfl, fun heq => Constrained.val_injective heq.symm⟩
  · refine iff_of_false nofun ?_
    rintro rfl
    exact h text.matchesPattern

/-- The steps of an envelope. -/
theorem ReplayStep.create_eq_ok {stepId : String} {action : ActionEnvelope}
    {oracleExpectations : List OracleExpectation} {timeoutSeconds : Float} {step : ReplayStep}
    (h : ReplayStep.create stepId action oracleExpectations timeoutSeconds = .ok step) :
    step.stepId.val = stepId ∧ step.action = action ∧ exceeds timeoutSeconds action.timeoutMs = false := by
  rw [ReplayStep.create] at h
  obtain ⟨text, htext, h⟩ := Imp.except_bind_eq_ok.mp h
  split_ifs at h with hrange hwithin hunique
  cases h
  exact ⟨nonEmpty_eq_ok.mp htext, rfl, hwithin⟩

/-- An envelope that authorizes ten seconds has a step with the default timeout. -/
theorem ReplayStep.exists_create {stepId : String} {action : ActionEnvelope}
    (hid : isNonEmpty stepId = true) (htimeout : 10000 ≤ action.timeoutMs) :
    ∃ step, ReplayStep.create stepId action [] 10.0 = .ok step := by
  have htext : nonEmpty stepId = .ok ⟨stepId, hid⟩ := nonEmpty_eq_ok.mpr rfl
  have hrange : (0 : Float) < 10.0 ∧ (10.0 : Float) ≤ 60 := by decide +kernel
  have hwithin : exceeds 10.0 action.timeoutMs = false := by
    rw [← Bool.not_eq_true, exceeds_default]
    exact not_lt.mpr htimeout
  refine ⟨⟨⟨stepId, hid⟩, action, [], 10.0, hrange, hwithin, List.nodup_nil⟩, ?_⟩
  refine Imp.except_bind_eq_ok.mpr ⟨_, htext, ?_⟩
  have hunique : (([] : List OracleExpectation).map OracleExpectation.oracleId).Nodup := List.nodup_nil
  rw [dif_pos hrange, dif_pos hwithin, dif_pos hunique]
  rfl

/-- What a plan asks of its steps. -/
structure Coherent (steps : List ReplayStep) : Prop where
  nonempty : steps ≠ []
  notReserved : ∀ step ∈ steps, step.stepId.val ∉ reservedStepIds
  stepIdsUnique : (steps.map fun step => step.stepId.val).Nodup
  keysUnique : (steps.map fun step => step.action.idempotencyKey).Nodup
  sequences : (steps.map fun step => step.action.sequence) =
      (steps.map fun step => step.action.sequence).insertionSort (· ≤ ·) ∧
    (steps.map fun step => step.action.sequence).Nodup

theorem ReplayPlan.create_eq_ok {planId rootSeedId : String} {steps : List ReplayStep} {plan : ReplayPlan}
    (h : ReplayPlan.create planId rootSeedId steps = .ok plan) : plan.steps = steps ∧ Coherent steps := by
  rw [ReplayPlan.create] at h
  obtain ⟨planText, -, h⟩ := Imp.except_bind_eq_ok.mp h
  obtain ⟨rootText, -, h⟩ := Imp.except_bind_eq_ok.mp h
  split_ifs at h with hnonempty hreserved hids hkeys hsequences
  cases h
  exact ⟨rfl, hnonempty, hreserved, hids, hkeys, hsequences⟩

theorem ReplayPlan.exists_create {planId rootSeedId : String} {steps : List ReplayStep}
    (hplan : isNonEmpty planId = true) (hroot : isNonEmpty rootSeedId = true) (h : Coherent steps) :
    ∃ plan, ReplayPlan.create planId rootSeedId steps = .ok plan ∧ plan.steps = steps := by
  have hplanText : nonEmpty planId = .ok ⟨planId, hplan⟩ := nonEmpty_eq_ok.mpr rfl
  have hrootText : nonEmpty rootSeedId = .ok ⟨rootSeedId, hroot⟩ := nonEmpty_eq_ok.mpr rfl
  refine ⟨⟨"1.0", ⟨planId, hplan⟩, ⟨rootSeedId, hroot⟩, steps, h.nonempty, h.notReserved, h.stepIdsUnique,
    h.keysUnique, h.sequences⟩, ?_, rfl⟩
  refine Imp.except_bind_eq_ok.mpr ⟨_, hplanText, Imp.except_bind_eq_ok.mpr ⟨_, hrootText, ?_⟩⟩
  rw [dif_pos h.nonempty, dif_pos h.notReserved, dif_pos h.stepIdsUnique, dif_pos h.keysUnique,
    dif_pos h.sequences]
  rfl

end StateWeaver.Replay
