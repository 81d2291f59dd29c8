import Mathlib
import StateWeaver.StateChainBench.Models

/-!
# The solvers

A one-pass baseline, and a solver that expands a frontier of paths level by level and promotes some of
the expansions. Both charge a budget ledger before each step and stop when a charge does not fit.
-/

namespace StateWeaver.StateChainBench

open Contracts

/-! ## Digests of states and operations -/

/-- The items of a state, sorted by their keys. -/
def sortedItems (state : State) : State :=
  ⟨state.entries.insertionSort fun a b => a.1 ≤ b.1,
    ((List.perm_insertionSort _ _).map Prod.fst).nodup_iff.mpr state.nodup⟩

variable [Sha256]

/-- `state_fingerprint`. -/
def stateFingerprint (state : State) : Sha256Digest :=
  (Writable.list ((sortedItems state).entries.map fun item =>
    .list [.text item.1.val, .flag item.2])).digest

omit [Sha256] in
theorem isOperationKey_taggedDigits (kind : BudgetEventKind) (digest : Sha256Digest) :
    isOperationKey (taggedDigits kind.prefix_ 24 digest) = true := by
  have h := isTaggedHex_taggedDigits kind.prefix_ (by decide : 24 ≤ 64) digest
  rw [isOperationKey, Bool.or_eq_true, Bool.or_eq_true]
  cases kind with
  | plan => exact .inl (.inl h)
  | action => exact .inl (.inr h)
  | world => exact .inr h

/-- `_operation`, for the prefix of a kind of event. -/
def operation (kind : BudgetEventKind) (parts : List String) : OperationKey :=
  ⟨taggedDigits kind.prefix_ 24 (Writable.texts parts).digest, isOperationKey_taggedDigits _ _⟩

/-! ## Charges -/

/-- A reservation, or `none` after `except BudgetExceededError`. -/
def BudgetLedger.reserve? (ledger : BudgetLedger) (kind : BudgetEventKind) (parts : List String)
    (action : PublicAction) (actionCost worldCost latencyUnits : Nat) : Except Exc (Option BudgetLedger) :=
  match ledger.reserve kind (operation kind parts) (some action.token) actionCost worldCost latencyUnits with
  | .ok ledger => .ok (some ledger)
  | .error .budgetExceeded => .ok none
  | .error e => .error e

/-- Charge for planning an action, or say which attempt exhausted the budget. -/
def chargePlan (ledger : BudgetLedger) (parts : List String) (action : PublicAction) :
    Except Exc (Except BudgetExhaustion BudgetLedger) := do
  match ← ledger.reserve? .plan parts action 0 0 1 with
  | none => return .error (.ofPlan ledger.usage action)
  | some ledger => return .ok ledger

/-- Charge for executing an action, in a world or without one. -/
def chargeExecution (ledger : BudgetLedger) (parts : List String) (action : PublicAction) (inWorld : Bool) :
    Except Exc (Except BudgetExhaustion BudgetLedger) := do
  match ← ledger.reserve? .action parts action action.actionCost 0 action.actionCost with
  | none => return .error (.ofAction ledger.usage action)
  | some actionProposed =>
      if inWorld then
        match ← actionProposed.reserve? .world parts action 0 1 2 with
        | none => return .error (.ofActionWorld ledger.usage action)
        | some proposed => return .ok proposed
      else return .ok actionProposed

/-! ## Runs -/

def CandidateSubmission.create (challengeId : ChallengeId) (actionTokens : List ActionToken) :
    Except Exc CandidateSubmission :=
  if h : actionTokens.Nodup then .ok ⟨challengeId, actionTokens, h⟩
  else .error (.validationError .candidateSubmission "candidate submissions cannot repeat actions")

def SystemRun.create (systemId : SystemId) (systemConfigDigest : Sha256Digest)
    (submission : CandidateSubmission) (ledger : BudgetLedger) (anchorRequested : Bool)
    (stopReason : StopReason) (budgetExhaustion : Option BudgetExhaustion)
    (searchFingerprints : List Sha256Digest) : Except Exc SystemRun :=
  if hunique : searchFingerprints.Nodup then
    if hretained : stopReason = .budgetExhausted ↔ budgetExhaustion.isSome = true then
      .ok ⟨systemId, systemConfigDigest, submission, ledger, anchorRequested, stopReason,
        budgetExhaustion, searchFingerprints, hunique, hretained⟩
    else .error (.validationError .systemRun "budget stop reason and retained exhaustion must agree")
  else .error (.validationError .systemRun "search result fingerprints must be unique")

/-! ## The baseline -/

/-- The variables of the pass over the catalog. -/
structure LinearState where
  ledger : BudgetLedger
  state : State
  selected : List ActionToken

/-- The pass of `LinearBaseline.solve` over the catalog. -/
def linearPass (challenge : PublicChallenge) : List PublicAction → LinearState →
    Except Exc (LinearState × StopReason × Option BudgetExhaustion)
  | [], s => return (s, .noProgress, none)
  | action :: rest, s => do
      match ← chargePlan s.ledger [challenge.challengeId.val, "linear", (stateFingerprint s.state).val,
          action.token.val] action with
      | .error exhaustion => return (s, .budgetExhausted, some exhaustion)
      | .ok ledger =>
          let s := { s with ledger }
          if actionIsApplicable action s.state = false then linearPass challenge rest s
          else
            match ← chargeExecution s.ledger [challenge.challengeId.val, "linear", action.token.val] action
                true with
            | .error exhaustion => return (s, .budgetExhausted, some exhaustion)
            | .ok ledger =>
                let s : LinearState :=
                  ⟨ledger, applyEffects action s.state, s.selected ++ [action.token]⟩
                if goalIsReached challenge s.state then return (s, .goalReached, none)
                else linearPass challenge rest s

def linearSystemId : SystemId := ⟨"system.linear_baseline_v1", by decide⟩

/-- `system_config_digest` of the baseline. -/
def linearConfigDigest : Sha256Digest :=
  (Writable.mapping [("solver", .text "linear_baseline"), ("version", .number 1 (by decide))]
    (by decide)).digest

/-- `LinearBaseline.solve`. -/
def LinearBaseline.solve (challenge : PublicChallenge) (budget : BudgetLimits) : Except Exc SystemRun := do
  let (s, stop, exhaustion) ← linearPass challenge challenge.actions
    ⟨.empty budget, challenge.initialMapping, []⟩
  let submission ← CandidateSubmission.create challenge.challengeId s.selected
  SystemRun.create linearSystemId linearConfigDigest submission s.ledger true stop exhaustion []

end StateWeaver.StateChainBench
