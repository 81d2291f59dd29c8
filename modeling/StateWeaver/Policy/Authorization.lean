import StateWeaver.Policy.Grants

/-!
# Authorizations

`bind` ties a decision of the evaluator to the action, the scope, the slot of the budget and the time it
was made for. It decides on its own whether the action is a write; it only knows writes over HTTP.
-/

namespace StateWeaver.Policy

open Contracts

/-! ## Equality of envelopes -/

/-- `a == b` for scalars of a contract: as Python values. -/
def sameScalar (a b : JsonScalar) : Bool := a.val.eq b.val

/-- `a == b` for lists whose elements are compared by `same`. -/
def sameList {α : Type*} (same : α → α → Bool) (l l' : List α) : Bool :=
  l.length == l'.length && (l.zip l').all fun e => same e.1 e.2

def HttpParameter.same (a b : HttpParameter) : Bool := a.name == b.name && sameScalar a.value b.value

/-- `a == b` for HTTP actions: all fields are equal, the values of parameters as Python values. -/
def HttpRequestAction.same (a b : HttpRequestAction) : Bool :=
  a.method == b.method && a.target == b.target && sameList HttpParameter.same a.query b.query &&
    a.headers == b.headers && a.bodyArtifact == b.bodyArtifact &&
    a.identityHandle == b.identityHandle && a.templateRef == b.templateRef &&
    a.expectedStatuses == b.expectedStatuses

def Action.same : Action → Action → Bool
  | .httpRequest a, .httpRequest b => HttpRequestAction.same a b
  | a, b => a == b

def ActionGuard.same (a b : ActionGuard) : Bool := a.path == b.path && sameScalar a.expected b.expected

def ExpectedEffect.same (a b : ExpectedEffect) : Bool :=
  a.path == b.path && a.operation == b.operation && sameScalar a.value b.value

/-- `a == b` for envelopes. -/
def ActionEnvelope.same (a b : ActionEnvelope) : Bool :=
  a.actionId == b.actionId && a.experimentId == b.experimentId && a.worldId == b.worldId &&
    a.scopeAction == b.scopeAction && Action.same a.action b.action &&
    sameList ActionGuard.same a.preconditions b.preconditions &&
    sameList ExpectedEffect.same a.expectedEffects b.expectedEffects &&
    a.riskClass == b.riskClass && a.idempotencyKey == b.idempotencyKey &&
    a.requestedBy == b.requestedBy && a.policyDecisionRef == b.policyDecisionRef &&
    a.approvalRef == b.approvalRef && a.sequence == b.sequence && a.timeoutMs == b.timeoutMs

/-! ## Binding -/

/-- The slot of the budget that an authorization reserves. -/
structure BudgetSlot where
  envelopeHash : Sha256Digest
  scopeManifestHash : Sha256Digest
  requestsBefore : Nat
  writeRequestsBefore : Nat
  deriving DecidableEq

/-- `sha256_digest` of what an authorization refers to. It raises a `ValueError` for a value that has
no JSON text. -/
class PolicyDigest where
  envelope : ActionEnvelope → Except String Sha256Digest
  manifest : ScopeManifest → Except String Sha256Digest
  request : PolicyRequest → Except String Sha256Digest
  slot : BudgetSlot → Except String Sha256Digest

/-- One evaluator result, bound to its action, scope, slot of the budget and window of validity. -/
structure PolicyAuthorization where
  policyDecisionRef : ContractId
  actionId : ContractId
  idempotencyKey : Sha256Digest
  envelopeHash : Sha256Digest
  policyRequestHash : Sha256Digest
  scopeManifestHash : Sha256Digest
  budgetReservationId : Sha256Digest
  evaluatedAt : Instant
  notBefore : Option Instant
  expiresAt : Instant
  requestsBefore : Nat
  writeRequestsBefore : Nat
  isWrite : Bool
  decision : PolicyDecision
  started : ∀ start ∈ notBefore, start ≤ evaluatedAt
  notExpired : evaluatedAt ≤ expiresAt
  deriving DecidableEq

/-- What `bind` takes for a write. -/
def isHttpWrite : Action → Bool
  | .httpRequest request => !isSafeMethod request.method
  | _ => false

/-- `PolicyAuthorization.bind`. -/
def bind [PolicyDigest] (envelope : ActionEnvelope) (request : PolicyRequest)
    (decision : PolicyDecision) : Except String PolicyAuthorization :=
  match request.actionEnvelope, request.scopeManifest, request.budget, request.evaluatedAt with
  | some bound, some manifest, some budget, some evaluatedAt => do
      Imp.require (ActionEnvelope.same bound envelope = true)
        "policy request is incomplete or bound to another action"
      Imp.require (evaluate (some request) = decision)
        "policy decision does not match deterministic evaluation"
      let envelopeHash ← PolicyDigest.envelope envelope
      let scopeManifestHash ← PolicyDigest.manifest manifest
      let policyRequestHash ← PolicyDigest.request request
      let budgetReservationId ← PolicyDigest.slot
        ⟨envelopeHash, scopeManifestHash, budget.requestsInWindow, budget.writeRequestsUsed⟩
      if hstarted : ∀ start ∈ manifest.spec.validity.notBefore, start ≤ evaluatedAt then
        if hnotExpired : evaluatedAt ≤ manifest.spec.validity.expiresAt then
          .ok
            { policyDecisionRef := envelope.policyDecisionRef
              actionId := envelope.actionId
              idempotencyKey := envelope.idempotencyKey
              envelopeHash := envelopeHash
              policyRequestHash := policyRequestHash
              scopeManifestHash := scopeManifestHash
              budgetReservationId := budgetReservationId
              evaluatedAt := evaluatedAt
              notBefore := manifest.spec.validity.notBefore
              expiresAt := manifest.spec.validity.expiresAt
              requestsBefore := budget.requestsInWindow
              writeRequestsBefore := budget.writeRequestsUsed
              isWrite := isHttpWrite envelope.action
              decision := decision
              started := hstarted
              notExpired := hnotExpired }
        else .error "policy evaluation is outside scope validity"
      else .error "policy evaluation predates scope validity"
  | _, _, _, _ => .error "policy request is incomplete or bound to another action"

/-- What a bound authorization says: it comes from the evaluator's own decision about an equal envelope,
and carries `isHttpWrite` of the action. -/
structure Bound (envelope : ActionEnvelope) (request : PolicyRequest) (decision : PolicyDecision)
    (auth : PolicyAuthorization) : Prop where
  sameEnvelope : ∃ bound, request.actionEnvelope = some bound ∧
    ActionEnvelope.same bound envelope = true
  evaluated : evaluate (some request) = decision ∧ auth.decision = decision
  isWrite : auth.isWrite = isHttpWrite envelope.action

theorem bound_of_bind [PolicyDigest] {envelope : ActionEnvelope} {request : PolicyRequest}
    {decision : PolicyDecision} {auth : PolicyAuthorization}
    (h : bind envelope request decision = .ok auth) : Bound envelope request decision auth := by
  rw [bind] at h
  split at h
  · next bound manifest budget evaluatedAt hbound hmanifest hbudget hat =>
      obtain ⟨hsame, h⟩ := Imp.check_bind_eq_ok.mp h
      rw [Imp.require_eq_ok] at hsame
      obtain ⟨hdecision, h⟩ := Imp.check_bind_eq_ok.mp h
      rw [Imp.require_eq_ok] at hdecision
      obtain ⟨envelopeHash, -, h⟩ := Imp.except_bind_eq_ok.mp h
      obtain ⟨scopeManifestHash, -, h⟩ := Imp.except_bind_eq_ok.mp h
      obtain ⟨policyRequestHash, -, h⟩ := Imp.except_bind_eq_ok.mp h
      obtain ⟨budgetReservationId, -, h⟩ := Imp.except_bind_eq_ok.mp h
      split at h
      · split at h
        · cases h
          exact ⟨⟨bound, hbound, hsame⟩, ⟨hdecision, rfl⟩, rfl⟩
        · cases h
      · cases h
  · cases h

/-! ## The two classifications of writes -/

theorem isHttpWrite_eq_iff (action : Action) :
    isHttpWrite action = isWriteAction action ↔ isWriteActionType action = false := by
  cases action <;> simp [isHttpWrite, isWriteAction, isWriteActionType]

/-- Equal actions are classified alike. -/
theorem isWriteAction_of_same {a b : Action} (h : Action.same a b = true) :
    isWriteAction a = isWriteAction b := by
  cases a with
  | httpRequest request =>
      cases b with
      | httpRequest request' =>
          simp only [Action.same, HttpRequestAction.same, Bool.and_eq_true, beq_iff_eq] at h
          rw [isWriteAction, isWriteAction, h.1.1.1.1.1.1.1]
      | _ => cases (beq_iff_eq.mp h)
  | _ => rw [beq_iff_eq.mp h]

/-- The flag of an authorization is the classification of the evaluator, for the action that was bound
and for the one that was evaluated, exactly if the type of the action is not a type of writes. -/
theorem isWrite_eq_iff [PolicyDigest] {envelope : ActionEnvelope} {request : PolicyRequest}
    {decision : PolicyDecision} {auth : PolicyAuthorization}
    (h : bind envelope request decision = .ok auth) :
    (auth.isWrite = isWriteAction envelope.action ∧
      ∀ evaluated ∈ request.actionEnvelope, auth.isWrite = isWriteAction evaluated.action) ↔
        isWriteActionType envelope.action = false := by
  have hbound := bound_of_bind h
  rw [hbound.isWrite, ← isHttpWrite_eq_iff]
  refine ⟨And.left, fun hagrees => ⟨hagrees, fun evaluated hevaluated => ?_⟩⟩
  obtain ⟨evaluated', hsome, hsame⟩ := hbound.sameEnvelope
  rw [hsome] at hevaluated
  cases hevaluated
  simp only [ActionEnvelope.same, Bool.and_eq_true] at hsame
  rw [hagrees, isWriteAction_of_same hsame.1.1.1.1.1.1.1.1.1.2]

/-! ## A click that is not charged -/

namespace Demo

theorem isSha256Digest_zeros :
    isSha256Digest "sha256:0000000000000000000000000000000000000000000000000000000000000000" =
      true := by
  decide +kernel

def digest : Sha256Digest :=
  ⟨"sha256:0000000000000000000000000000000000000000000000000000000000000000",
    isSha256Digest_zeros⟩

@[reducible] def policyDigest : PolicyDigest :=
  ⟨fun _ => .ok digest, fun _ => .ok digest, fun _ => .ok digest, fun _ => .ok digest⟩

/-- The context of an action of Alice without a target. -/
def clickContext : Context := grant click aliceName host [] .nil

def navigationContext : Context :=
  grant (navigation ⟨"/", by decide +kernel⟩) aliceName host [] .nil

/-- What `bind` makes of a context and the evaluator's decision on it. -/
def authorize (c : Context) : Except String PolicyAuthorization :=
  letI := policyDigest
  bind c.envelope c.request (evaluate (some c.request))

theorem exists_authorization {c : Context} (h : (authorize c).toOption.isSome = true) :
    ∃ auth, authorize c = .ok auth := by
  cases hauth : authorize c with
  | ok auth => exact ⟨auth, rfl⟩
  | error e =>
      rw [hauth] at h
      cases h

/-- The click is allowed and charged as a write by the evaluator, but not by its authorization. -/
theorem not_agrees : ∃ auth, authorize clickContext = .ok auth ∧ auth.decision.outcome = .allow ∧
    isWriteAction clickContext.envelope.action = true ∧ auth.isWrite = false := by
  obtain ⟨auth, hauth⟩ := exists_authorization (c := clickContext) (by decide +kernel)
  let _ := policyDigest
  have hbound := bound_of_bind hauth
  refine ⟨auth, hauth, ?_, rfl, hbound.isWrite⟩
  rw [hbound.evaluated.2]
  decide +kernel

theorem agrees_navigation : ∃ auth, authorize navigationContext = .ok auth ∧
    auth.isWrite = isWriteAction navigationContext.envelope.action := by
  obtain ⟨auth, hauth⟩ := exists_authorization (c := navigationContext) (by decide +kernel)
  let _ := policyDigest
  exact ⟨auth, hauth, ((isWrite_eq_iff hauth).mpr rfl).1⟩

end Demo

end StateWeaver.Policy
