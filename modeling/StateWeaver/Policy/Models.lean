import StateWeaver.Contracts.Scope

/-!
# Inputs and outputs of policy evaluation

A request may be incomplete: its parts are optional, so that incomplete context is denied by the
evaluator. A decision is checked when it is built; `PolicyDecision.create` is its constructor.
-/

namespace StateWeaver.Policy

open Contracts

inductive PolicyOutcome where
  | allow | deny | requireApproval
  deriving DecidableEq

inductive PolicyReasonCode where
  | policyAllowed | malformedRequest | contextMissing | scopeNotYetValid | scopeExpired
  | actionExplicitlyDenied | actionNotListed | approvalMissing | identityMissing
  | identityNotAllowed | targetMissing | targetNotIncluded | targetExcluded
  | requestBudgetExhausted | writeBudgetExhausted | timeoutLimitExceeded | riskClassDisallowed
  | riskUnderclassified
  deriving DecidableEq

/-- The checks, in the order in which they are evaluated. -/
inductive PolicyConstraint where
  | contextComplete | scopeValidity | actionAuthorization | approval | identity | target
  | requestBudget | writeBudget | timeout | riskClass
  deriving DecidableEq

inductive ConstraintStatus where
  | passed | failed | notApplicable
  deriving DecidableEq

structure ConstraintResult where
  constraint : PolicyConstraint
  status : ConstraintStatus
  reasonCode : Option PolicyReasonCode := none
  /-- A failed constraint carries a reason code, and no other does. -/
  coherent : status = .failed ↔ reasonCode ≠ none
  deriving DecidableEq

structure BudgetSnapshot where
  requestsInWindow : Nat
  requestWindowSeconds : Float
  writeRequestsUsed : Nat
  windowPositive : 0 < requestWindowSeconds
  windowAtMost : requestWindowSeconds ≤ 60

def BudgetSnapshot.fields (budget : BudgetSnapshot) : Nat × Float × Nat :=
  (budget.requestsInWindow, budget.requestWindowSeconds, budget.writeRequestsUsed)

theorem BudgetSnapshot.fields_injective : Function.Injective fields := by
  rintro ⟨⟩ ⟨⟩ h
  simpa [fields] using h

instance instDecidableEqBudgetSnapshot : DecidableEq BudgetSnapshot :=
  BudgetSnapshot.fields_injective.decidableEq

/-- The server's own ceilings. -/
structure EvaluationConstraints where
  maxTimeoutMs : Nat := 30000
  allowedRiskClasses : List RiskClass :=
    [.passive, .readOnly, .reversibleStateChange, .elevatedReversible]
  approvalRequiredRiskClasses : List RiskClass := [.elevatedReversible]
  timeoutInRange : 0 < maxTimeoutMs ∧ maxTimeoutMs ≤ 120000
  allowedNonempty : allowedRiskClasses ≠ []
  allowedUnique : allowedRiskClasses.Nodup
  approvalUnique : approvalRequiredRiskClasses.Nodup
  approvalAllowed : ∀ risk ∈ approvalRequiredRiskClasses, risk ∈ allowedRiskClasses
  deriving DecidableEq

structure PolicyRequest where
  scopeManifest : Option ScopeManifest := none
  actionEnvelope : Option ActionEnvelope := none
  budget : Option BudgetSnapshot := none
  evaluatedAt : Option Instant := none
  constraints : EvaluationConstraints
  deriving DecidableEq

/-- The reason codes of the failed constraints, in order. -/
def failedCodes (constraints : List ConstraintResult) : List PolicyReasonCode :=
  constraints.filterMap fun item => if item.status = .failed then item.reasonCode else none

/-- `decision_shape_is_coherent`. -/
structure DecisionShape (outcome : PolicyOutcome) (reasonCodes : List PolicyReasonCode)
    (constraints : List ConstraintResult) : Prop where
  nonempty : reasonCodes ≠ []
  unique : reasonCodes.Nodup
  allowed : outcome = .allow → reasonCodes = [.policyAllowed] ∧ failedCodes constraints = []
  notAllowed : outcome ≠ .allow → reasonCodes = failedCodes constraints
  onlyApproval : outcome = .requireApproval → reasonCodes = [.approvalMissing]

instance (outcome : PolicyOutcome) (reasonCodes : List PolicyReasonCode)
    (constraints : List ConstraintResult) : Decidable (DecisionShape outcome reasonCodes constraints) :=
  decidable_of_iff
    (reasonCodes ≠ [] ∧ reasonCodes.Nodup ∧
      (outcome = .allow → reasonCodes = [.policyAllowed] ∧ failedCodes constraints = []) ∧
      (outcome ≠ .allow → reasonCodes = failedCodes constraints) ∧
      (outcome = .requireApproval → reasonCodes = [.approvalMissing]))
    ⟨fun ⟨h₁, h₂, h₃, h₄, h₅⟩ => ⟨h₁, h₂, h₃, h₄, h₅⟩, fun ⟨h₁, h₂, h₃, h₄, h₅⟩ => ⟨h₁, h₂, h₃, h₄, h₅⟩⟩

structure PolicyDecision where
  outcome : PolicyOutcome
  reasonCodes : List PolicyReasonCode
  constraints : List ConstraintResult
  coherent : DecisionShape outcome reasonCodes constraints
  deriving DecidableEq

/-- The constructor, which raises the first failing check of the validator. -/
def PolicyDecision.create (outcome : PolicyOutcome) (reasonCodes : List PolicyReasonCode)
    (constraints : List ConstraintResult) : Except String PolicyDecision :=
  if h : DecisionShape outcome reasonCodes constraints then
    .ok ⟨outcome, reasonCodes, constraints, h⟩
  else if reasonCodes = [] then .error "a policy decision requires at least one reason code"
  else if ¬ reasonCodes.Nodup then .error "policy reason codes must not contain duplicates"
  else if outcome = .allow then .error "ALLOW requires all constraints to pass"
  else if reasonCodes ≠ failedCodes constraints then
    .error "non-ALLOW reasons must match failed constraints"
  else .error "REQUIRE_APPROVAL may only report a missing approval"

end StateWeaver.Policy
