import Mathlib
import StateWeaver.Lab.ProviderCheckpoint
import StateWeaver.Lib.Calendar
import StateWeaver.Lib.Machine

/-!
# The state of the lab

A lab with two tenants: a document of tenant B may not be read by tenant A. The vulnerable lab gives it away to an old
session of tenant A whose role was taken away while the change was still queued and an old decision was still cached.
Actions are recorded as evidence, and the clock moves by actions only. Datetimes are microseconds since the year 1. A
run keeps the actions that returned since the last reset.
-/

namespace StateWeaver.Lab

open Py (Text text)
open Imp (lift require)

/-! ## Fixtures -/

inductive TenantId where
  | a | b | platform
  deriving DecidableEq

def TenantId.value : TenantId → Text
  | .a => text "tenant-a"
  | .b => text "tenant-b"
  | .platform => text "platform"

inductive PrincipalId where
  | aEditor | bViewer | admin
  deriving DecidableEq

def PrincipalId.value : PrincipalId → Text
  | .aEditor => text "principal-a"
  | .bViewer => text "principal-b"
  | .admin => text "principal-admin"

inductive Role where
  | editor | viewer | admin
  deriving DecidableEq

def Role.value : Role → Text
  | .editor => text "editor"
  | .viewer => text "viewer"
  | .admin => text "admin"

inductive DocumentId where
  | tenantAOwned | tenantBProtected
  deriving DecidableEq

def DocumentId.value : DocumentId → Text
  | .tenantAOwned => text "doc-a-owned"
  | .tenantBProtected => text "doc-b-protected"

inductive QueueJobId where
  | roleSyncA
  deriving DecidableEq

def QueueJobId.value : QueueJobId → Text
  | .roleSyncA => text "job-role-sync-a"

inductive ReferenceId where
  | bToA
  deriving DecidableEq

def ReferenceId.value : ReferenceId → Text
  | .bToA => text "ref-b-to-a"

inductive Provenance where
  | observed | mocked
  deriving DecidableEq

def Provenance.value : Provenance → Text
  | .observed => text "OBSERVED"
  | .mocked => text "MOCKED"

inductive FixtureBearer where
  | tenantAOldEditor | tenantAFreshViewer | tenantBViewer | labAdmin
  deriving DecidableEq

def FixtureBearer.value : FixtureBearer → Text
  | .tenantAOldEditor => text "fixture_session_a_old"
  | .tenantAFreshViewer => text "fixture_session_a_fresh"
  | .tenantBViewer => text "fixture_session_b_viewer"
  | .labAdmin => text "fixture_session_admin"

inductive FixtureSessionId where
  | tenantAOld | tenantAFresh | tenantBViewer | labAdmin
  deriving DecidableEq

def FixtureSessionId.value : FixtureSessionId → Text
  | .tenantAOld => text "session-a-old"
  | .tenantAFresh => text "session-a-fresh"
  | .tenantBViewer => text "session-b-viewer"
  | .labAdmin => text "session-lab-admin"

def FixtureBearer.sessionId : FixtureBearer → FixtureSessionId
  | .tenantAOldEditor => .tenantAOld
  | .tenantAFreshViewer => .tenantAFresh
  | .tenantBViewer => .tenantBViewer
  | .labAdmin => .labAdmin

/-- `BEARER_TO_SESSION.get`. -/
def bearerToSession (bearerValue : Text) : Option FixtureSessionId :=
  ([FixtureBearer.tenantAOldEditor, .tenantAFreshViewer, .tenantBViewer, .labAdmin].find? fun bearer =>
    bearer.value == bearerValue).map FixtureBearer.sessionId

def syntheticTenantABody : Text := text "SYNTHETIC_TENANT_A_DOCUMENT"

def syntheticTenantBMarker : Text := text "SYNTHETIC_TENANT_B_MARKER_7F3A"

def syntheticMockPlaceholder : Text := text "MOCK_ONLY_NOT_RUNTIME_DATA"

/-- The body of a masked document. -/
def maskedBody : Text := text "[MASKED]"

structure PrincipalFixture where
  principalId : PrincipalId
  tenantId : TenantId
  role : Role
  deriving DecidableEq

structure SessionFixture where
  sessionId : FixtureSessionId
  principalId : PrincipalId
  issuedRole : Role
  policyGeneration : ℕ
  issuedAt : ℕ
  expiresAt : ℕ
  deriving DecidableEq

structure AuthContext where
  sessionId : FixtureSessionId
  principalId : PrincipalId
  tenantId : TenantId
  issuedRole : Role
  policyGeneration : ℕ

structure DocumentFixture where
  documentId : DocumentId
  tenantId : TenantId
  body : Text

structure AuthorizationCacheEntry where
  principalId : PrincipalId
  permission : Text
  allowed : Bool
  primedDocumentId : DocumentId
  tenantScope : TenantId
  policyGeneration : ℕ
  deriving DecidableEq

inductive QueueJobStatus where
  | pending | completed
  deriving DecidableEq

def QueueJobStatus.value : QueueJobStatus → Text
  | .pending => text "pending"
  | .completed => text "completed"

structure QueueJobFixture where
  jobId : QueueJobId
  principalId : PrincipalId
  dueAt : ℕ
  status : QueueJobStatus := .pending
  deliberatelyDelayed : Bool := false
  deriving DecidableEq

structure ReferenceFixture where
  referenceId : ReferenceId
  documentId : DocumentId
  publisherId : PrincipalId
  recipientId : PrincipalId
  published : Bool := false
  claimedBySessionId : Option FixtureSessionId := none
  deriving DecidableEq

structure InternalEvidence where
  actionId : Text
  evidenceId : Text
  actionType : Text
  actorPrincipalId : PrincipalId
  outcome : Text
  at_ : ℕ
  resourceId : Text
  provenance : Provenance
  deriving DecidableEq

structure DisclosureObservation where
  evidenceId : Text
  requesterTenant : TenantId
  ownerTenant : TenantId
  documentId : DocumentId
  responseStatus : ℕ
  bodyMarker : Text
  provenance : Provenance
  deriving DecidableEq

/-- `LabActionError`. -/
structure LabActionError where
  statusCode : ℕ
  code : String
  deriving DecidableEq

/-! ## The clock -/

/-- `timedelta(seconds=..)`. -/
def seconds (n : ℕ) : ℕ := n * 1000000

/-- `CANONICAL_EPOCH`, the 29th of July 2026 at noon. -/
def canonicalEpoch : ℕ := 63920923200 * 1000000

example : Py.isoText canonicalEpoch = "2026-07-29T12:00:00Z".toList := by decide +kernel

/-! ## States -/

/-- The documents of the lab. -/
def documents : DocumentId → DocumentFixture
  | .tenantAOwned => ⟨.tenantAOwned, .a, syntheticTenantABody⟩
  | .tenantBProtected => ⟨.tenantBProtected, .b, syntheticTenantBMarker⟩

structure LabState where
  mode : LabMode
  now : ℕ
  sequence : ℕ
  policyGeneration : ℕ
  principals : PrincipalId → PrincipalFixture
  sessions : FixtureSessionId → Option SessionFixture
  reference : ReferenceFixture
  authorizationCache : Option AuthorizationCacheEntry
  queueJob : Option QueueJobFixture
  retainedSessions : Finset FixtureSessionId
  roleDowngradedAt : Option ℕ
  replayWindowOpensAt : Option ℕ
  replayWindowClosesAt : Option ℕ
  evidence : List InternalEvidence
  lastDisclosure : Option DisclosureObservation

def canonicalPrincipals : PrincipalId → PrincipalFixture
  | .aEditor => ⟨.aEditor, .a, .editor⟩
  | .bViewer => ⟨.bViewer, .b, .viewer⟩
  | .admin => ⟨.admin, .platform, .admin⟩

def canonicalSessions : FixtureSessionId → Option SessionFixture
  | .tenantAOld => some ⟨.tenantAOld, .aEditor, .editor, 1, canonicalEpoch - seconds 300, canonicalEpoch + seconds 3600⟩
  | .tenantBViewer => some
      ⟨.tenantBViewer, .bViewer, .viewer, 1, canonicalEpoch - seconds 120, canonicalEpoch + seconds 3600⟩
  | .labAdmin => some ⟨.labAdmin, .admin, .admin, 1, canonicalEpoch - seconds 600, canonicalEpoch + seconds 86400⟩
  | .tenantAFresh => none

/-- `canonical`. -/
def LabState.canonical (mode : LabMode) : LabState where
  mode := mode
  now := canonicalEpoch
  sequence := 0
  policyGeneration := 1
  principals := canonicalPrincipals
  sessions := canonicalSessions
  reference := { referenceId := .bToA, documentId := .tenantBProtected, publisherId := .bViewer, recipientId := .aEditor }
  authorizationCache := none
  queueJob := none
  retainedSessions := ∅
  roleDowngradedAt := none
  replayWindowOpensAt := none
  replayWindowClosesAt := none
  evidence := []
  lastDisclosure := none

/-- `authenticate`. -/
def LabState.authenticate (self : LabState) (bearerValue : Text) : Option AuthContext := do
  let sessionId ← bearerToSession bearerValue
  let session ← self.sessions sessionId
  if session.expiresAt ≤ self.now then none
  else
    let principal := self.principals session.principalId
    some ⟨session.sessionId, session.principalId, principal.tenantId, session.issuedRole, session.policyGeneration⟩

/-- `_process_due_jobs`. -/
def LabState.processDueJobs (self : LabState) : LabState :=
  match self.queueJob with
  | none => self
  | some job =>
      if job.status = .pending ∧ job.dueAt ≤ self.now then
        { self with queueJob := some { job with status := .completed }, authorizationCache := none }
      else self

/-! ## The chain -/

structure ChainStateResponse where
  oldSessionRetained : Bool
  roleDowngraded : Bool
  queueSyncDelayed : Bool
  queueSyncPending : Bool
  staleAuthorizationCache : Bool
  foreignReferenceObtained : Bool
  replayWindowOpen : Bool
  oldSessionGenerationStale : Bool
  deriving DecidableEq

/-- `all(..)` of the conditions. -/
def ChainStateResponse.complete (c : ChainStateResponse) : Bool :=
  c.oldSessionRetained && c.roleDowngraded && c.queueSyncDelayed && c.queueSyncPending && c.staleAuthorizationCache &&
    c.foreignReferenceObtained && c.replayWindowOpen && c.oldSessionGenerationStale

/-- `_chain_state_unlocked`. The old session is never removed. -/
def LabState.chainState (self : LabState) : ChainStateResponse where
  oldSessionRetained := .tenantAOld ∈ self.retainedSessions
  roleDowngraded := self.roleDowngradedAt.isSome && (self.principals .aEditor).role = .viewer
  queueSyncDelayed := self.queueJob.any fun job => job.deliberatelyDelayed
  queueSyncPending := self.queueJob.any fun job => job.status = .pending
  staleAuthorizationCache := self.authorizationCache.any fun cache =>
    cache.allowed && cache.principalId = .aEditor && cache.policyGeneration < self.policyGeneration
  foreignReferenceObtained := self.reference.published && self.reference.claimedBySessionId = some .tenantAOld
  replayWindowOpen := self.replayWindowOpensAt.any (· ≤ self.now) && self.replayWindowClosesAt.any (self.now < ·)
  oldSessionGenerationStale := (self.sessions .tenantAOld).any fun session =>
    session.policyGeneration < self.policyGeneration

/-! ## Evidence -/

/-- A tag and a number of at least three digits. -/
def numbered (tag : String) (n : ℕ) : Text := text tag ++ (Py.padded 3 n).map Py.CodePoint.ofChar

/-- The record of an action. -/
def LabState.nextEvidence (self : LabState) (actionType : String) (context : AuthContext) (outcome : String)
    (resourceId : Text) (provenance : Provenance := .observed) : InternalEvidence where
  actionId := numbered "act-" (self.sequence + 1)
  evidenceId := numbered "ev-" (self.sequence + 1)
  actionType := text actionType
  actorPrincipalId := context.principalId
  outcome := text outcome
  at_ := self.now
  resourceId := resourceId
  provenance := provenance

/-- A state with another record. -/
def LabState.recorded (self : LabState) (item : InternalEvidence) : LabState :=
  { self with sequence := self.sequence + 1, evidence := self.evidence ++ [item] }

/-- `_record`. -/
def record (actionType : String) (context : AuthContext) (outcome : String) (resourceId : Text)
    (provenance : Provenance := .observed) : Imp LabState LabActionError InternalEvidence := do
  let self ← get
  let item := self.nextEvidence actionType context outcome resourceId provenance
  modify fun self => self.recorded item
  return item

structure ActionReceipt where
  actionId : Text
  actionType : Text
  outcome : Text
  at_ : ℕ
  deriving DecidableEq

/-- `_receipt`. -/
def receipt (evidence : InternalEvidence) : ActionReceipt :=
  ⟨evidence.actionId, evidence.actionType, evidence.outcome, evidence.at_⟩

structure DocumentResponse where
  documentId : DocumentId
  ownerTenant : TenantId
  body : Text
  provenance : Provenance
  evidenceId : Text
  deriving DecidableEq

/-- `LabActionResult`: what an action returns. The body of a masked document and that of a simulated decision are
fixed. -/
inductive LabActionResult where
  | receipt (receipt : ActionReceipt)
  | roleDowngrade (receipt : ActionReceipt) (principalId : PrincipalId) (currentRole : Role) (queueJobId : QueueJobId)
  | reference (receipt : ActionReceipt) (referenceId : ReferenceId) (documentId : DocumentId)
  | clock (receipt : ActionReceipt) (now : ℕ)
  | document (response : DocumentResponse)
  | maskedDocument (documentId : DocumentId) (evidenceId : Text)
  | mockPolicy (documentId : DocumentId) (evidenceId : Text)
  deriving DecidableEq

/-- The body that a response has. -/
def LabActionResult.body : LabActionResult → Option Text
  | .document response => some response.body
  | .maskedDocument _ _ => some maskedBody
  | .mockPolicy _ _ => some syntheticMockPlaceholder
  | _ => none

/-! ## Actions -/

/-- `require_admin`. -/
def requireAdmin (context : AuthContext) : Except LabActionError Unit :=
  require (context.principalId = .admin) ⟨403, "admin_fixture_required"⟩

/-- `retain_old_session`. -/
def retainOldSession (context : AuthContext) : Imp LabState LabActionError LabActionResult := do
  let self ← get
  lift (require (context.sessionId = .tenantAOld) ⟨403, "old_editor_session_required"⟩)
  lift (require (self.roleDowngradedAt = none) ⟨409, "session_must_be_retained_before_downgrade"⟩)
  lift (require (context.sessionId ∉ self.retainedSessions) ⟨409, "session_already_retained"⟩)
  modify fun self => { self with retainedSessions := insert context.sessionId self.retainedSessions }
  let evidence ← record "session.retain" context "retained" context.sessionId.value
  return .receipt (receipt evidence)

/-- `prime_authorization_cache`. -/
def primeAuthorizationCache (context : AuthContext) (documentId : DocumentId) :
    Imp LabState LabActionError LabActionResult := do
  let self ← get
  let current := self.principals context.principalId
  lift (require (context.sessionId = .tenantAOld) ⟨403, "old_editor_session_required"⟩)
  lift (require (current.role = .editor ∧ (documents documentId).tenantId = current.tenantId)
    ⟨403, "owned_editor_document_required"⟩)
  lift (require (self.roleDowngradedAt = none) ⟨409, "cache_must_be_primed_before_downgrade"⟩)
  modify fun self =>
    { self with
      authorizationCache := some
        { principalId := context.principalId
          permission := text "document:read"
          allowed := true
          primedDocumentId := documentId
          tenantScope := current.tenantId
          policyGeneration := self.policyGeneration } }
  let evidence ← record "authorization_cache.prime" context "allowed_cached" documentId.value
  return .receipt (receipt evidence)

/-- What a downgrade changes. -/
def LabState.downgraded (self : LabState) (principalId : PrincipalId) : LabState :=
  { self with
    policyGeneration := 2
    principals := fun id => if id = principalId then { self.principals principalId with role := .viewer }
      else self.principals id
    roleDowngradedAt := some self.now
    replayWindowOpensAt := some (self.now + seconds 60)
    replayWindowClosesAt := some (self.now + seconds 180)
    queueJob := some { jobId := .roleSyncA, principalId := principalId, dueAt := self.now + seconds 30 }
    sessions := fun id => if id = .tenantAFresh then
        some ⟨.tenantAFresh, principalId, .viewer, 2, self.now, self.now + seconds 3600⟩
      else self.sessions id
    authorizationCache := if self.mode = .patched then none else self.authorizationCache }

/-- `downgrade_role`. -/
def downgradeRole (context : AuthContext) (principalId : PrincipalId) (newRole : Role) :
    Imp LabState LabActionError LabActionResult := do
  let self ← get
  lift (requireAdmin context)
  lift (require (principalId = .aEditor ∧ newRole = .viewer) ⟨422, "canonical_downgrade_only"⟩)
  lift (require ((self.principals principalId).role = .editor ∧ self.roleDowngradedAt = none)
    ⟨409, "role_already_downgraded"⟩)
  modify fun self => self.downgraded principalId
  let evidence ← record "role.downgrade" context "queued" principalId.value
  return .roleDowngrade (receipt evidence) principalId .viewer .roleSyncA

/-- Whether a job was created. -/
def LabState.hasJob (self : LabState) (jobId : QueueJobId) : Bool := self.queueJob.any fun job => job.jobId = jobId

/-- What is checked of a job before it is put off, and when it is due then. -/
def LabState.checkDelay (self : LabState) : Except LabActionError (QueueJobFixture × ℕ) :=
  match self.queueJob with
  | none => .error ⟨409, "role_sync_job_not_created"⟩
  | some job => do
      require (job.status = .pending) ⟨409, "role_sync_job_not_pending"⟩
      require (job.deliberatelyDelayed = false) ⟨409, "role_sync_job_already_delayed"⟩
      match self.roleDowngradedAt with
      | none => .error ⟨409, "role_downgrade_not_recorded"⟩
      | some downgradedAt => return (job, downgradedAt)

/-- `delay_queue_job`. -/
def delayQueueJob (context : AuthContext) (jobId : QueueJobId) (delaySeconds : ℤ) :
    Imp LabState LabActionError LabActionResult := do
  let self ← get
  lift (requireAdmin context)
  lift (require (delaySeconds = 240) ⟨422, "canonical_delay_only"⟩)
  lift (require (self.hasJob jobId) ⟨409, "role_sync_job_not_created"⟩)
  modify LabState.processDueJobs
  let self ← get
  let (job, downgradedAt) ← lift self.checkDelay
  modify fun self =>
    { self with queueJob := some { job with dueAt := downgradedAt + seconds 240, deliberatelyDelayed := true } }
  let evidence ← record "queue.defer" context "delayed" jobId.value
  return .receipt (receipt evidence)

/-- `publish_reference`. -/
def publishReference (context : AuthContext) (documentId : DocumentId) (recipientId : PrincipalId) :
    Imp LabState LabActionError LabActionResult := do
  let self ← get
  lift (require (context.principalId = .bViewer) ⟨403, "tenant_b_viewer_required"⟩)
  lift (require (documentId = self.reference.documentId ∧ (documents documentId).tenantId = context.tenantId ∧
    recipientId = self.reference.recipientId) ⟨422, "canonical_reference_only"⟩)
  lift (require (self.reference.published = false) ⟨409, "reference_already_published"⟩)
  modify fun self => { self with reference := { self.reference with published := true } }
  let evidence ← record "reference.publish" context "opaque_reference_published" self.reference.referenceId.value
  return .reference (receipt evidence) self.reference.referenceId self.reference.documentId

/-- `claim_reference`. -/
def claimReference (context : AuthContext) (referenceId : ReferenceId) :
    Imp LabState LabActionError LabActionResult := do
  let self ← get
  lift (require (context.principalId = self.reference.recipientId) ⟨403, "reference_recipient_required"⟩)
  lift (require (referenceId = self.reference.referenceId) ⟨422, "canonical_reference_only"⟩)
  lift (require (self.reference.published = true) ⟨409, "reference_not_published"⟩)
  lift (require (self.reference.claimedBySessionId = none) ⟨409, "reference_already_claimed"⟩)
  modify fun self => { self with reference := { self.reference with claimedBySessionId := some context.sessionId } }
  let evidence ← record "reference.claim" context "foreign_reference_obtained" referenceId.value
  return .reference (receipt evidence) self.reference.referenceId self.reference.documentId

/-- `AdvanceClockRequest`. -/
structure AdvanceClockRequest where
  seconds : ℕ
  positive : 1 ≤ seconds
  bounded : seconds ≤ 300

/-- `advance_clock`. -/
def advanceClock (context : AuthContext) (payload : AdvanceClockRequest) :
    Imp LabState LabActionError LabActionResult := do
  lift (requireAdmin context)
  modify fun self => { self with now := self.now + seconds payload.seconds }
  modify LabState.processDueJobs
  let self ← get
  let evidence ← record "clock.advance" context "advanced"
    (text "seconds:" ++ (Nat.toDigits 10 payload.seconds).map Py.CodePoint.ofChar)
  return .clock (receipt evidence) self.now

/-- `complete_vulnerable_chain`. -/
def LabState.completeVulnerableChain (self : LabState) (context : AuthContext) : Bool :=
  self.mode = .vulnerable && context.sessionId = .tenantAOld && self.chainState.complete

/-- `read_document`. -/
def readDocument (context : AuthContext) (documentId : DocumentId) : Imp LabState LabActionError LabActionResult := do
  let document := documents documentId
  modify LabState.processDueJobs
  let self ← get
  if document.tenantId = context.tenantId then do
    let evidence ← record "document.read" context "same_tenant_allowed" documentId.value
    return .document ⟨documentId, document.tenantId, document.body, .observed, evidence.evidenceId⟩
  else if self.completeVulnerableChain context then do
    let evidence ← record "document.read" context "cross_tenant_body_disclosed" documentId.value
    modify fun self =>
      { self with
        lastDisclosure := some ⟨evidence.evidenceId, context.tenantId, document.tenantId, documentId, 200, document.body,
          .observed⟩ }
    return .document ⟨documentId, document.tenantId, document.body, .observed, evidence.evidenceId⟩
  else do
    let _ ← record "document.read" context "tenant_boundary_blocked" documentId.value
    throw ⟨403, "tenant_boundary_enforced"⟩

/-- `masked_decoy`. -/
def maskedDecoy (context : AuthContext) (documentId : DocumentId) : Imp LabState LabActionError LabActionResult := do
  let evidence ← record "decoy.masked_read" context "masked_200" documentId.value
  return .maskedDocument documentId evidence.evidenceId

/-- `mock_policy_decoy`. -/
def mockPolicyDecoy (context : AuthContext) (documentId : DocumentId) :
    Imp LabState LabActionError LabActionResult := do
  let evidence ← record "decoy.mock_policy" context "simulated_allow_only" documentId.value .mocked
  return .mockPolicy documentId evidence.evidenceId

/-- What can be asked of the lab. -/
inductive LabAction where
  | retainSession
  | primeAuthorizationCache (documentId : DocumentId)
  | downgradeRole (principalId : PrincipalId) (newRole : Role)
  | deferQueue (jobId : QueueJobId) (delaySeconds : ℤ)
  | publishReference (documentId : DocumentId) (recipientId : PrincipalId)
  | claimReference (referenceId : ReferenceId)
  | advanceClock (payload : AdvanceClockRequest)
  | readDocument (documentId : DocumentId)
  | maskedRead (documentId : DocumentId)
  | mockPolicy (documentId : DocumentId)

/-- An action of someone who is known. -/
def perform (context : AuthContext) : LabAction → Imp LabState LabActionError LabActionResult
  | .retainSession => retainOldSession context
  | .primeAuthorizationCache documentId => primeAuthorizationCache context documentId
  | .downgradeRole principalId newRole => downgradeRole context principalId newRole
  | .deferQueue jobId delaySeconds => delayQueueJob context jobId delaySeconds
  | .publishReference documentId recipientId => publishReference context documentId recipientId
  | .claimReference referenceId => claimReference context referenceId
  | .advanceClock payload => advanceClock context payload
  | .readDocument documentId => readDocument context documentId
  | .maskedRead documentId => maskedDecoy context documentId
  | .mockPolicy documentId => mockPolicyDecoy context documentId

/-- `_context`. -/
def LabState.context (self : LabState) (bearerValue : Text) : Except LabActionError AuthContext :=
  match self.authenticate bearerValue with
  | none => .error ⟨401, "unknown_or_expired_fixture"⟩
  | some context => .ok context

/-- `execute`. -/
def execute (bearerValue : Text) (action : LabAction) : Imp LabState LabActionError LabActionResult := do
  let self ← get
  let context ← lift (self.context bearerValue)
  perform context action

/-! ## The oracle -/

structure OracleResultResponse where
  mode : LabMode
  violated : Bool
  checks : List (String × Bool)
  evidenceIds : List Text
  deriving DecidableEq

/-- `evaluate_disclosure`. -/
def evaluateDisclosure (mode : LabMode) (observation : Option DisclosureObservation) : OracleResultResponse :=
  let checks :=
    [("runtime_response_status_is_200", observation.any fun o => o.responseStatus = 200),
      ("requester_and_owner_tenants_differ", observation.any fun o => o.requesterTenant ≠ o.ownerTenant),
      ("protected_document_id_matches", observation.any fun o => o.documentId = .tenantBProtected),
      ("synthetic_protected_marker_matches_exactly", observation.any fun o => o.bodyMarker = syntheticTenantBMarker),
      ("evidence_provenance_is_observed", observation.any fun o => o.provenance = .observed)]
  let violated := checks.all fun check => check.2
  { mode, violated, checks
    evidenceIds := if violated then observation.toList.map DisclosureObservation.evidenceId else [] }

/-- `oracle_result`. -/
def LabState.oracleResult (self : LabState) : OracleResultResponse := evaluateDisclosure self.mode self.lastDisclosure

variable {context : AuthContext} {s s' : LabState} {result : LabActionResult} {e : LabActionError}

/-! ## What the actions need and change -/

@[simp]
theorem record_bind {α : Type} {actionType outcome : String} {resourceId : Text} {provenance : Provenance}
    {f : InternalEvidence → Imp LabState LabActionError α} :
    (record actionType context outcome resourceId provenance >>= f) s =
      f (s.nextEvidence actionType context outcome resourceId provenance)
        (s.recorded (s.nextEvidence actionType context outcome resourceId provenance)) := rfl

theorem retainOldSession_eq_ok : retainOldSession context s = .ok result s' ↔
    context.sessionId = .tenantAOld ∧ s.roleDowngradedAt = none ∧ context.sessionId ∉ s.retainedSessions ∧
      let item := s.nextEvidence "session.retain" context "retained" context.sessionId.value
      result = .receipt (receipt item) ∧
        s' = { s with retainedSessions := insert context.sessionId s.retainedSessions }.recorded item := by
  rw [retainOldSession]
  simp only [Imp.get_bind, Imp.lift_check_bind_eq_ok, Imp.require_eq_ok, Imp.modify_bind, record_bind, Imp.pure_eq_ok]
  exact Iff.rfl

theorem primeAuthorizationCache_eq_ok {documentId : DocumentId} :
    primeAuthorizationCache context documentId s = .ok result s' ↔
      context.sessionId = .tenantAOld ∧
      ((s.principals context.principalId).role = .editor ∧
        (documents documentId).tenantId = (s.principals context.principalId).tenantId) ∧
      s.roleDowngradedAt = none ∧
        let item := s.nextEvidence "authorization_cache.prime" context "allowed_cached" documentId.value
        let cache := ⟨context.principalId, text "document:read", true, documentId,
          (s.principals context.principalId).tenantId, s.policyGeneration⟩
        result = .receipt (receipt item) ∧ s' = { s with authorizationCache := some cache }.recorded item := by
  rw [primeAuthorizationCache]
  simp only [Imp.get_bind, Imp.lift_check_bind_eq_ok, Imp.require_eq_ok, Imp.modify_bind, record_bind, Imp.pure_eq_ok]
  exact Iff.rfl

theorem downgradeRole_eq_ok {principalId : PrincipalId} {newRole : Role} :
    downgradeRole context principalId newRole s = .ok result s' ↔
      context.principalId = .admin ∧ (principalId = .aEditor ∧ newRole = .viewer) ∧
      ((s.principals principalId).role = .editor ∧ s.roleDowngradedAt = none) ∧
        let item := s.nextEvidence "role.downgrade" context "queued" principalId.value
        result = .roleDowngrade (receipt item) principalId .viewer .roleSyncA ∧
          s' = (s.downgraded principalId).recorded item := by
  rw [downgradeRole]
  simp only [Imp.get_bind, requireAdmin, Imp.lift_check_bind_eq_ok, Imp.require_eq_ok, Imp.modify_bind, record_bind,
    Imp.pure_eq_ok]
  exact Iff.rfl

theorem checkDelay_eq_ok {job : QueueJobFixture} {downgradedAt : ℕ} : s.checkDelay = .ok (job, downgradedAt) ↔
    s.queueJob = some job ∧ job.status = .pending ∧ job.deliberatelyDelayed = false ∧
      s.roleDowngradedAt = some downgradedAt := by
  rw [LabState.checkDelay]
  cases s.queueJob with
  | none => exact iff_of_false nofun nofun
  | some job' =>
      simp only [Imp.check_bind_eq_ok, Imp.require_eq_ok]
      cases s.roleDowngradedAt with
      | none => exact iff_of_false (by rintro ⟨-, -, h⟩; cases h) (by rintro ⟨-, -, -, h⟩; cases h)
      | some t =>
          constructor
          · rintro ⟨hpending, hdelayed, heq⟩
            cases heq
            exact ⟨rfl, hpending, hdelayed, rfl⟩
          · rintro ⟨heq, hpending, hdelayed, ht⟩
            cases heq
            cases ht
            exact ⟨hpending, hdelayed, rfl⟩

theorem delayQueueJob_eq_ok {jobId : QueueJobId} {delaySeconds : ℤ} :
    delayQueueJob context jobId delaySeconds s = .ok result s' ↔
      context.principalId = .admin ∧ delaySeconds = 240 ∧ s.hasJob jobId = true ∧
      ∃ job downgradedAt, s.processDueJobs.checkDelay = .ok (job, downgradedAt) ∧
        let item := s.processDueJobs.nextEvidence "queue.defer" context "delayed" jobId.value
        result = .receipt (receipt item) ∧ s' = { s.processDueJobs with
          queueJob := some { job with dueAt := downgradedAt + seconds 240, deliberatelyDelayed := true } }.recorded item := by
  rw [delayQueueJob]
  simp only [Imp.get_bind, requireAdmin, Imp.lift_check_bind_eq_ok, Imp.require_eq_ok, Imp.modify_bind]
  simp only [Imp.lift_bind_eq_ok, Imp.modify_bind, record_bind, Imp.pure_eq_ok, Prod.exists]
  exact Iff.rfl

theorem publishReference_eq_ok {documentId : DocumentId} {recipientId : PrincipalId} :
    publishReference context documentId recipientId s = .ok result s' ↔
      context.principalId = .bViewer ∧ (documentId = s.reference.documentId ∧
        (documents documentId).tenantId = context.tenantId ∧ recipientId = s.reference.recipientId) ∧
      s.reference.published = false ∧
        let item := s.nextEvidence "reference.publish" context "opaque_reference_published" s.reference.referenceId.value
        result = .reference (receipt item) s.reference.referenceId s.reference.documentId ∧
          s' = { s with reference := { s.reference with published := true } }.recorded item := by
  rw [publishReference]
  simp only [Imp.get_bind, Imp.lift_check_bind_eq_ok, Imp.require_eq_ok, Imp.modify_bind, record_bind, Imp.pure_eq_ok]
  exact Iff.rfl

theorem claimReference_eq_ok {referenceId : ReferenceId} : claimReference context referenceId s = .ok result s' ↔
    context.principalId = s.reference.recipientId ∧ referenceId = s.reference.referenceId ∧
    s.reference.published = true ∧ s.reference.claimedBySessionId = none ∧
      let item := s.nextEvidence "reference.claim" context "foreign_reference_obtained" referenceId.value
      result = .reference (receipt item) s.reference.referenceId s.reference.documentId ∧
        s' = { s with reference := { s.reference with claimedBySessionId := some context.sessionId } }.recorded item := by
  rw [claimReference]
  simp only [Imp.get_bind, Imp.lift_check_bind_eq_ok, Imp.require_eq_ok, Imp.modify_bind, record_bind, Imp.pure_eq_ok]
  exact Iff.rfl

/-- A state at another time. -/
def LabState.later (s : LabState) (duration : ℕ) : LabState :=
  ({ s with now := s.now + seconds duration } : LabState).processDueJobs

theorem advanceClock_eq_ok {payload : AdvanceClockRequest} : advanceClock context payload s = .ok result s' ↔
    context.principalId = .admin ∧
      let item := (s.later payload.seconds).nextEvidence "clock.advance" context "advanced"
        (text "seconds:" ++ (Nat.toDigits 10 payload.seconds).map Py.CodePoint.ofChar)
      result = .clock (receipt item) (s.later payload.seconds).now ∧ s' = (s.later payload.seconds).recorded item := by
  rw [advanceClock]
  simp only [requireAdmin, Imp.get_bind, Imp.lift_check_bind_eq_ok, Imp.require_eq_ok, Imp.modify_bind, record_bind,
    Imp.pure_eq_ok]
  exact Iff.rfl

/-- The response with a document. -/
def documentResponse (documentId : DocumentId) (item : InternalEvidence) : LabActionResult :=
  .document ⟨documentId, (documents documentId).tenantId, (documents documentId).body, .observed, item.evidenceId⟩

/-- A state in which a document was disclosed. -/
def LabState.disclosed (s : LabState) (context : AuthContext) (documentId : DocumentId) (item : InternalEvidence) :
    LabState :=
  { s.recorded item with
    lastDisclosure := some ⟨item.evidenceId, context.tenantId, (documents documentId).tenantId, documentId, 200,
      (documents documentId).body, .observed⟩ }

/-- A read ends in one of three ways. -/
theorem readDocument_eq (documentId : DocumentId) : readDocument context documentId s =
    let item := fun outcome => s.processDueJobs.nextEvidence "document.read" context outcome documentId.value
    if (documents documentId).tenantId = context.tenantId then
      .ok (documentResponse documentId (item "same_tenant_allowed")) (s.processDueJobs.recorded (item "same_tenant_allowed"))
    else if s.processDueJobs.completeVulnerableChain context then
      .ok (documentResponse documentId (item "cross_tenant_body_disclosed"))
        (s.processDueJobs.disclosed context documentId (item "cross_tenant_body_disclosed"))
    else .error ⟨403, "tenant_boundary_enforced"⟩ (s.processDueJobs.recorded (item "tenant_boundary_blocked")) := by
  rw [readDocument]
  simp only [Imp.modify_bind, Imp.get_bind]
  by_cases htenant : (documents documentId).tenantId = context.tenantId
  · rw [if_pos htenant, if_pos htenant]
    rfl
  · rw [if_neg htenant, if_neg htenant]
    by_cases hchain : s.processDueJobs.completeVulnerableChain context = true
    · rw [if_pos hchain, if_pos hchain]
      rfl
    · rw [if_neg hchain, if_neg hchain]
      rfl

/-! ## Actions that fail -/

/-- An action that fails writes nothing, except that due jobs may be processed and that a refused read is recorded. -/
theorem perform_eq_error {action : LabAction} (h : perform context action s = .error e s') :
    s' = s ∨ s' = s.processDueJobs ∨ ∃ documentId, action = .readDocument documentId ∧
      e = ⟨403, "tenant_boundary_enforced"⟩ ∧ s' = s.processDueJobs.recorded
        (s.processDueJobs.nextEvidence "document.read" context "tenant_boundary_blocked" documentId.value) := by
  cases action with
  | retainSession =>
      refine .inl (Imp.atomic_get_bind ?_ e s' h)
      exact Imp.atomic_lift_bind fun _ _ => Imp.atomic_lift_bind fun _ _ => Imp.atomic_lift_bind fun _ _ =>
        Imp.atomic_of_eq_ok rfl
  | primeAuthorizationCache documentId =>
      refine .inl (Imp.atomic_get_bind ?_ e s' h)
      exact Imp.atomic_lift_bind fun _ _ => Imp.atomic_lift_bind fun _ _ => Imp.atomic_lift_bind fun _ _ =>
        Imp.atomic_of_eq_ok rfl
  | downgradeRole principalId newRole =>
      refine .inl (Imp.atomic_get_bind ?_ e s' h)
      exact Imp.atomic_lift_bind fun _ _ => Imp.atomic_lift_bind fun _ _ => Imp.atomic_lift_bind fun _ _ =>
        Imp.atomic_of_eq_ok rfl
  | deferQueue jobId delaySeconds =>
      rw [perform, delayQueueJob, Imp.get_bind] at h
      rcases Imp.lift_bind_eq_error.mp h with h | ⟨_, -, h⟩
      · exact .inl h.2
      rcases Imp.lift_bind_eq_error.mp h with h | ⟨_, -, h⟩
      · exact .inl h.2
      rcases Imp.lift_bind_eq_error.mp h with h | ⟨_, -, h⟩
      · exact .inl h.2
      rw [Imp.modify_bind, Imp.get_bind] at h
      rcases Imp.lift_bind_eq_error.mp h with h | ⟨⟨job, t⟩, -, h⟩
      · exact .inr (.inl h.2)
      · cases h
  | publishReference documentId recipientId =>
      refine .inl (Imp.atomic_get_bind ?_ e s' h)
      exact Imp.atomic_lift_bind fun _ _ => Imp.atomic_lift_bind fun _ _ => Imp.atomic_lift_bind fun _ _ =>
        Imp.atomic_of_eq_ok rfl
  | claimReference referenceId =>
      refine .inl (Imp.atomic_get_bind ?_ e s' h)
      exact Imp.atomic_lift_bind fun _ _ => Imp.atomic_lift_bind fun _ _ => Imp.atomic_lift_bind fun _ _ =>
        Imp.atomic_lift_bind fun _ _ => Imp.atomic_of_eq_ok rfl
  | advanceClock payload =>
      refine .inl ((Imp.atomic_lift_bind fun _ _ => ?_ : Imp.Atomic (advanceClock context payload) s) e s' h)
      exact Imp.atomic_of_eq_ok rfl
  | readDocument documentId =>
      rw [perform, readDocument_eq] at h
      dsimp only at h
      split_ifs at h
      cases h
      exact .inr (.inr ⟨documentId, rfl, rfl, rfl⟩)
  | maskedRead documentId => cases h
  | mockPolicy documentId => cases h

/-! ## The machine -/

/-- An action that returned: whose it was, what it returned and when. -/
structure Deed where
  context : AuthContext
  action : LabAction
  result : LabActionResult
  at_ : ℕ

/-- The lab and what was done since it was reset. -/
structure LabRun where
  state : LabState
  history : List Deed

/-- A call of the lab that changes something. -/
inductive LabCall where
  | execute (bearerValue : Text) (action : LabAction)
  /-- `chain_state` and `capture_layers`, which process due jobs. -/
  | observe
  | reset

/-- The lab after a call, and what the call returned. -/
def LabRun.call (run : LabRun) : LabCall → Except LabActionError (Option LabActionResult) × LabRun
  | .execute bearerValue action =>
      match execute bearerValue action run.state with
      | .ok result state =>
          let deeds := (run.state.authenticate bearerValue).toList.map fun context => ⟨context, action, result, state.now⟩
          (.ok (some result), ⟨state, run.history ++ deeds⟩)
      | .error e state => (.error e, ⟨state, run.history⟩)
  | .observe => (.ok none, ⟨run.state.processDueJobs, run.history⟩)
  | .reset => (.ok none, ⟨LabState.canonical run.state.mode, []⟩)

def labMachine : Machine LabRun LabCall (Except LabActionError (Option LabActionResult)) where
  step run call := some (run.call call)

/-- The runs of a lab that was just created. -/
def Runs (mode : LabMode) (run : LabRun) : Prop :=
  labMachine.Reaches Machine.anyStep ⟨LabState.canonical mode, []⟩ run

/-- The lab after some calls. -/
def LabRun.calls (mode : LabMode) (calls : List LabCall) : LabRun :=
  calls.foldl (fun run call => (run.call call).2) ⟨LabState.canonical mode, []⟩

theorem runs_calls (mode : LabMode) (calls : List LabCall) : Runs mode (LabRun.calls mode calls) := by
  induction calls using List.reverseRecOn with
  | nil => exact Machine.Reaches.refl _
  | append_singleton calls call ih =>
      rw [LabRun.calls, List.foldl_append]
      exact ih.step (i := call) trivial rfl

/-! ## What was done -/

def Retained (history : List Deed) : Prop := ∃ d ∈ history, d.action = .retainSession

def Primed (history : List Deed) : Prop := ∃ d ∈ history, ∃ documentId, d.action = .primeAuthorizationCache documentId

def DowngradedAt (history : List Deed) (t : ℕ) : Prop :=
  ∃ d ∈ history, (∃ principalId newRole, d.action = .downgradeRole principalId newRole) ∧ d.at_ = t

def PutOff (history : List Deed) : Prop := ∃ d ∈ history, ∃ jobId delay, d.action = .deferQueue jobId delay

def Published (history : List Deed) : Prop :=
  ∃ d ∈ history, ∃ documentId recipientId, d.action = .publishReference documentId recipientId

def ClaimedBy (history : List Deed) (sessionId : FixtureSessionId) : Prop :=
  ∃ d ∈ history, (∃ referenceId, d.action = .claimReference referenceId) ∧ d.context.sessionId = sessionId

/-- The document of tenant B that an action of somebody else returned, as the oracle looks at it. -/
def Deed.disclosure (d : Deed) : Option DisclosureObservation :=
  match d.result with
  | .document r =>
      if r.ownerTenant = d.context.tenantId then none
      else some ⟨r.evidenceId, d.context.tenantId, r.ownerTenant, r.documentId, 200, r.body, r.provenance⟩
  | _ => none

section Deeds

variable {history : List Deed} {d : Deed} {t : ℕ} {sessionId : FixtureSessionId}

theorem exists_mem_concat {p : Deed → Prop} : (∃ d' ∈ history ++ [d], p d') ↔ (∃ d' ∈ history, p d') ∨ p d := by
  simp only [List.mem_append, List.mem_singleton, or_and_right, exists_or, exists_eq_left]

theorem not_exists_mem_nil {p : Deed → Prop} : ¬∃ d ∈ ([] : List Deed), p d := fun ⟨_, hd, _⟩ => List.not_mem_nil hd

theorem retained_concat : Retained (history ++ [d]) ↔ Retained history ∨ d.action = .retainSession := exists_mem_concat

theorem primed_concat : Primed (history ++ [d]) ↔
    Primed history ∨ ∃ documentId, d.action = .primeAuthorizationCache documentId := exists_mem_concat

theorem primed_concat_of_ne (h : ∀ documentId, d.action ≠ .primeAuthorizationCache documentId) :
    Primed (history ++ [d]) ↔ Primed history := primed_concat.trans (or_iff_left fun ⟨_, heq⟩ => h _ heq)

theorem downgradedAt_concat : DowngradedAt (history ++ [d]) t ↔ DowngradedAt history t ∨
    (∃ principalId newRole, d.action = .downgradeRole principalId newRole) ∧ d.at_ = t := exists_mem_concat

theorem putOff_concat : PutOff (history ++ [d]) ↔
    PutOff history ∨ ∃ jobId delay, d.action = .deferQueue jobId delay := exists_mem_concat

theorem published_concat : Published (history ++ [d]) ↔
    Published history ∨ ∃ documentId recipientId, d.action = .publishReference documentId recipientId :=
  exists_mem_concat

theorem claimedBy_concat : ClaimedBy (history ++ [d]) sessionId ↔ ClaimedBy history sessionId ∨
    (∃ referenceId, d.action = .claimReference referenceId) ∧ d.context.sessionId = sessionId := exists_mem_concat

end Deeds

end StateWeaver.Lab
