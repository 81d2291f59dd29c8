import StateWeaver.Policy.Models

/-!
# The policy evaluator

`evaluateTyped` makes ten checks and decides from their results: nothing failed, only the approval is
missing, or anything else. Each check is a definition of its own here; what is not applicable does not
count.
-/

namespace StateWeaver.Policy

open Contracts

/-! ## Classifications of actions -/

/-- `_SAFE_HTTP_METHODS`. -/
def safeHttpMethods : List HttpMethod := [.get, .head, .options]

/-- Whether a method that may be absent is a safe one. -/
def isSafeMethod : Option HttpMethod → Bool
  | some method => safeHttpMethods.contains method
  | none => false

/-- `_RISK_RANK`. -/
def riskRank : RiskClass → Nat
  | .passive => 0
  | .readOnly => 1
  | .reversibleStateChange => 2
  | .elevatedReversible => 3

/-- Whether the type of an action is in `_WRITE_ACTION_TYPES`. -/
def isWriteActionType : Action → Bool
  | .browserClick _ | .browserFill _ _ _ | .queueReorder _ | .queueRelease _ _ | .timeAdvance _
  | .timeSet _ | .sessionRotate _ => true
  | .httpRequest _ | .browserNavigate _ _ => false

/-- `_is_write_action`. -/
def isWriteAction (action : Action) : Bool :=
  match action with
  | .httpRequest request => !isSafeMethod request.method
  | action => isWriteActionType action

/-- `_minimum_risk_rank`. -/
def minimumRiskRank (action : Action) : Option Nat :=
  match action with
  | .httpRequest request => some (if isSafeMethod request.method then 0 else 2)
  | .browserNavigate _ _ => some 0
  | action => if isWriteActionType action then some 2 else none

/-- The `identity_handle` field of an action, if it has one. -/
def identityField : Action → Option (Option IdentityHandle)
  | .httpRequest request => some request.identityHandle
  | .browserNavigate _ identity => some identity
  | .sessionRotate identity => some (some identity)
  | _ => none

/-- The `target` field of an action, if it has one. -/
def targetField : Action → Option (Option ActionTarget)
  | .httpRequest request => some request.target
  | .browserNavigate target _ => some (some target)
  | _ => none

/-! ## Identities and targets -/

/-- `text.removeprefix(affix)`. -/
def removePrefix (affix text : String) : String :=
  if affix.toList <+: text.toList then String.ofList (text.toList.drop affix.toList.length) else text

/-- `_identity_is_allowed`. -/
def identityIsAllowed (identity : IdentityHandle) (allowed : List Name) : Bool :=
  let names := allowed.map Constrained.val
  names.contains identity.val || names.contains (removePrefix "identity:" identity.val)

/-- What a pattern of paths is made of. -/
inductive Glob where
  | literal (c : Char)
  /-- `*`, which stays in one segment. -/
  | segment
  /-- `**`, which may cross segments, but no line break. -/
  | any
  deriving DecidableEq

/-- Read a pattern; asterisks pair up from the left. -/
def globs : List Char → List Glob
  | '*' :: '*' :: rest => .any :: globs rest
  | '*' :: rest => .segment :: globs rest
  | c :: rest => .literal c :: globs rest
  | [] => []

/-- Whether a whole text matches. -/
def matchGlobs : List Glob → List Char → Bool
  | [], path => path.isEmpty
  | .literal c :: rest, path =>
      match path with
      | [] => false
      | d :: path => c == d && matchGlobs rest path
  | .segment :: rest, path =>
      (List.range (path.length + 1)).any fun n =>
        (path.take n).all (· != '/') && matchGlobs rest (path.drop n)
  | .any :: rest, path =>
      (List.range (path.length + 1)).any fun n =>
        (path.take n).all (· != '\n') && matchGlobs rest (path.drop n)

/-- `_path_matches`. -/
def pathMatches (pattern path : String) : Bool := matchGlobs (globs pattern.toList) path.toList

/-- `_selector_matches`. -/
def selectorMatches (selector : TargetSelector) (target : ActionTarget) : Bool :=
  if selector.host ≠ none ∧ selector.host ≠ some target.host then false
  else if selector.ports ≠ [] ∧ target.port ∉ selector.ports then false
  else selector.paths.isEmpty || selector.paths.any fun pattern => pathMatches pattern.val target.path.val

/-! ## The checks -/

def passed (constraint : PolicyConstraint) : ConstraintResult :=
  ⟨constraint, .passed, none, by decide⟩

def failed (constraint : PolicyConstraint) (reasonCode : PolicyReasonCode) : ConstraintResult :=
  ⟨constraint, .failed, some reasonCode, ⟨nofun, fun _ => rfl⟩⟩

def notApplicable (constraint : PolicyConstraint) : ConstraintResult :=
  ⟨constraint, .notApplicable, none, by decide⟩

variable (request : PolicyRequest)

def checkContext : ConstraintResult :=
  if request.scopeManifest.isSome ∧ request.actionEnvelope.isSome ∧ request.budget.isSome ∧
      request.evaluatedAt.isSome then passed .contextComplete
  else failed .contextComplete .contextMissing

def checkScopeValidity : ConstraintResult :=
  match request.scopeManifest, request.evaluatedAt with
  | some manifest, some evaluatedAt =>
      if ∃ start ∈ manifest.spec.validity.notBefore, evaluatedAt < start then
        failed .scopeValidity .scopeNotYetValid
      else if manifest.spec.validity.expiresAt < evaluatedAt then failed .scopeValidity .scopeExpired
      else passed .scopeValidity
  | _, _ => notApplicable .scopeValidity

/-- What the manifest requires for the action. -/
def requirement : Option AuthorizationRequirement :=
  match request.scopeManifest, request.actionEnvelope with
  | some manifest, some envelope => some (manifest.authorizationRequirement envelope.scopeAction)
  | _, _ => none

def checkAuthorization : ConstraintResult :=
  match requirement request with
  | none => notApplicable .actionAuthorization
  | some .denied => failed .actionAuthorization .actionExplicitlyDenied
  | some .unspecified => failed .actionAuthorization .actionNotListed
  | some _ => passed .actionAuthorization

def checkApproval : ConstraintResult :=
  match request.actionEnvelope, requirement request with
  | some envelope, some requirement =>
      if (requirement = .approvalRequired ∨
          envelope.riskClass ∈ request.constraints.approvalRequiredRiskClasses) ∧
          envelope.approvalRef = none then failed .approval .approvalMissing
      else passed .approval
  | _, _ => notApplicable .approval

def checkIdentity : ConstraintResult :=
  match request.scopeManifest, request.actionEnvelope with
  | some manifest, some envelope =>
      match identityField envelope.action with
      | none => notApplicable .identity
      | some none => failed .identity .identityMissing
      | some (some identity) =>
          if identityIsAllowed identity manifest.spec.identities.allowed then passed .identity
          else failed .identity .identityNotAllowed
  | _, _ => notApplicable .identity

def checkTarget : ConstraintResult :=
  match request.scopeManifest, request.actionEnvelope with
  | some manifest, some envelope =>
      match targetField envelope.action with
      | none => notApplicable .target
      | some none => failed .target .targetMissing
      | some (some target) =>
          if manifest.spec.targets.exclude.any (selectorMatches · target) then
            failed .target .targetExcluded
          else if !manifest.spec.targets.include_.any (selectorMatches · target) then
            failed .target .targetNotIncluded
          else passed .target
  | _, _ => notApplicable .target

/-- How many requests a window has room for: the product of the two printed numbers, computed with
the 28 digits that `Decimal` keeps. -/
def requestCapacity (limits : ScopeLimits) (budget : BudgetSnapshot) : ℚ :=
  Decimal.roundTo 28 (Py.decimal limits.requestsPerSecond * Py.decimal budget.requestWindowSeconds)

def checkRequestBudget : ConstraintResult :=
  match request.scopeManifest, request.budget with
  | some manifest, some budget =>
      if requestCapacity manifest.spec.limits budget < (budget.requestsInWindow + 1 : Nat) then
        failed .requestBudget .requestBudgetExhausted
      else passed .requestBudget
  | _, _ => notApplicable .requestBudget

def checkWriteBudget : ConstraintResult :=
  match request.scopeManifest, request.actionEnvelope, request.budget with
  | some manifest, some envelope, some budget =>
      if !isWriteAction envelope.action then notApplicable .writeBudget
      else if budget.writeRequestsUsed + 1 > manifest.spec.limits.maxWriteRequests then
        failed .writeBudget .writeBudgetExhausted
      else passed .writeBudget
  | _, _, _ => notApplicable .writeBudget

def checkTimeout : ConstraintResult :=
  match request.actionEnvelope with
  | none => notApplicable .timeout
  | some envelope =>
      if envelope.timeoutMs > request.constraints.maxTimeoutMs then
        failed .timeout .timeoutLimitExceeded
      else passed .timeout

def checkRiskClass : ConstraintResult :=
  match request.actionEnvelope with
  | none => notApplicable .riskClass
  | some envelope =>
      if envelope.riskClass ∉ request.constraints.allowedRiskClasses then
        failed .riskClass .riskClassDisallowed
      else
        match minimumRiskRank envelope.action with
        | none => failed .riskClass .riskClassDisallowed
        | some minimum =>
            if riskRank envelope.riskClass < minimum then failed .riskClass .riskUnderclassified
            else passed .riskClass

/-! ## The decision -/

/-- The results of all checks. -/
def checks : List ConstraintResult :=
  [checkContext request, checkScopeValidity request, checkAuthorization request,
    checkApproval request, checkIdentity request, checkTarget request, checkRequestBudget request,
    checkWriteBudget request, checkTimeout request, checkRiskClass request]

/-- `_evaluate_typed`. -/
def evaluateTyped : Except String PolicyDecision :=
  let results := checks request
  let reasonCodes := failedCodes results
  let denyCodes := reasonCodes.filter (· ≠ .approvalMissing)
  if denyCodes ≠ [] then PolicyDecision.create .deny reasonCodes results
  else if reasonCodes = [.approvalMissing] then
    PolicyDecision.create .requireApproval reasonCodes results
  else if reasonCodes ≠ [] then PolicyDecision.create .deny reasonCodes results
  else PolicyDecision.create .allow [.policyAllowed] results

/-- `_malformed_decision`. -/
def malformedDecision : PolicyDecision where
  outcome := .deny
  reasonCodes := [.malformedRequest]
  constraints := [failed .contextComplete .malformedRequest]
  coherent := by decide

/-- `evaluate`: what is not a `PolicyRequest` is `none`. -/
def evaluate (request : Option PolicyRequest) : PolicyDecision :=
  match request with
  | none => malformedDecision
  | some request =>
      match evaluateTyped request with
      | .ok decision => decision
      | .error _ => malformedDecision

end StateWeaver.Policy
