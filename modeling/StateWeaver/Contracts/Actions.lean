import StateWeaver.Contracts.Base

/-!
# The action vocabulary

The closed set of typed actions and the envelope that binds one to its authorization. A frozen model
carries what its validator checked as fields, so only valid actions and envelopes can be built.
-/

namespace StateWeaver.Contracts

/-! ## Constrained texts of actions -/

/-- One label of a host name: letters, digits and inner hyphens, at most 63 characters. -/
def isHostLabel (label : List Char) : Bool :=
  1 ≤ label.length && label.length ≤ 63 && label.all (fun c => isLowerAlnum c || c == '-') &&
    label.head? != some '-' && label.getLast? != some '-'

/-- The pattern of `Host`. -/
def isHost (s : String) : Bool := hasLength 1 253 s && (s.toList.splitOn '.').all isHostLabel

/-- The pattern of `PathPattern`. -/
def isPathPattern (s : String) : Bool :=
  hasLength 1 512 s && s.toList.head? == some '/' && s.toList.all fun c => c != '?' && c != '#'

/-- The pattern of `SelectorRef`. -/
def isSelectorRef (s : String) : Bool := hasLength 3 160 s && isTagged "selector:" isNameChar s

/-- The pattern of `QueueRef`. -/
def isQueueRef (s : String) : Bool := hasLength 3 160 s && isTagged "queue:" isNameChar s

/-- The pattern of `JobRef`. -/
def isJobRef (s : String) : Bool := hasLength 3 160 s && isTagged "job:" isNameChar s

/-- The pattern of a header name. -/
def isHeaderName (s : String) : Bool :=
  hasLength 1 128 s &&
    s.toList.all fun c => c.isAlphanum || "!#$%&\x27*+.^_\x60|~-".toList.contains c

abbrev Host := Constrained isHost
abbrev PathPattern := Constrained isPathPattern
abbrev SelectorRef := Constrained isSelectorRef
abbrev QueueRef := Constrained isQueueRef
abbrev JobRef := Constrained isJobRef

/-! ## Enumerations -/

inductive ScopeAction where
  | passiveObservation | httpRequest | browserInteraction | testAccountWrite | sessionRotation
  | cacheDelay | queueReorder | controlledTime | concurrencyTest | fileUploadTest | denialOfService
  | persistence | credentialExfiltration | destructiveDataDelete
  deriving DecidableEq

inductive RiskClass where
  | passive | readOnly | reversibleStateChange | elevatedReversible
  deriving DecidableEq

inductive RequesterType where
  | human | model | workflow | adapter
  deriving DecidableEq

inductive HttpMethod where
  | get | head | options | post | put | patch | delete
  deriving DecidableEq

inductive QueueOrder where
  | front | back | before | after
  deriving DecidableEq

inductive Scheme where
  | http | https
  deriving DecidableEq

/-! ## Actions -/

structure ActionTarget where
  scheme : Scheme
  host : Host
  port : Nat
  path : PathPattern
  portInRange : 1 ≤ port ∧ port ≤ 65535
  deriving DecidableEq

structure HttpParameter where
  name : Name
  value : JsonScalar
  deriving DecidableEq

structure HttpHeader where
  name : Constrained isHeaderName
  value : String
  valueLength : value.toList.length ≤ 1024
  /-- Credentials are supplied through an identity handle. -/
  noCredentials : name.val.toLower ∉
    ["authorization", "cookie", "proxy-authorization", "x-api-key"]
  noLineBreaks : '\r' ∉ value.toList ∧ '\n' ∉ value.toList
  deriving DecidableEq

structure HttpRequestAction where
  method : Option HttpMethod
  target : Option ActionTarget
  query : List HttpParameter := []
  headers : List HttpHeader := []
  bodyArtifact : Option ArtifactHandle := none
  identityHandle : Option IdentityHandle := none
  templateRef : Option Name := none
  expectedStatuses : List Nat := []
  statusesInRange : ∀ status ∈ expectedStatuses, 100 ≤ status ∧ status ≤ 599
  targetOrTemplate : target ≠ none ∨ templateRef ≠ none
  methodOfTarget : target ≠ none → method ≠ none
  queryUnique : (query.map HttpParameter.name).Nodup
  headersUnique : (headers.map fun header => header.name.val.toLower).Nodup
  statusesUnique : expectedStatuses.Nodup
  deriving DecidableEq

structure QueueReorderAction where
  queueRef : QueueRef
  jobRef : JobRef
  order : QueueOrder
  relativeToJobRef : Option JobRef := none
  anchored : (order = .before ∨ order = .after) ↔ relativeToJobRef ≠ none
  notItself : relativeToJobRef ≠ some jobRef
  deriving DecidableEq

/-- A span of controlled time, at most a day. -/
structure TimeAdvanceAction where
  milliseconds : Nat
  inRange : 0 < milliseconds ∧ milliseconds ≤ 86400000
  deriving DecidableEq

/-- An instant, in microseconds since 1970. Two timestamps with an offset are the same value when they
are the same instant. -/
structure Instant where
  microseconds : Int
  deriving DecidableEq

inductive Action where
  | httpRequest (action : HttpRequestAction)
  | browserNavigate (target : ActionTarget) (identityHandle : Option IdentityHandle)
  | browserClick (selectorRef : SelectorRef)
  | browserFill (selectorRef : SelectorRef) (valueArtifact : ArtifactHandle) (isSecret : Bool)
  | queueReorder (action : QueueReorderAction)
  | queueRelease (queueRef : QueueRef) (jobRef : JobRef)
  | timeAdvance (action : TimeAdvanceAction)
  | timeSet (epoch : Instant)
  | sessionRotate (identityHandle : IdentityHandle)
  deriving DecidableEq

/-- `_ACTION_SCOPE`. -/
def Action.scope : Action → ScopeAction
  | .httpRequest _ => .httpRequest
  | .browserNavigate _ _ | .browserClick _ | .browserFill _ _ _ => .browserInteraction
  | .queueReorder _ | .queueRelease _ _ => .queueReorder
  | .timeAdvance _ | .timeSet _ => .controlledTime
  | .sessionRotate _ => .sessionRotation

/-- Whether an HTTP action has a concrete target. -/
def Action.isResolved : Action → Bool
  | .httpRequest action => action.target.isSome
  | _ => true

/-- Whether an action may have the passive risk class. -/
def Action.mayBePassive : Action → Bool
  | .httpRequest _ | .browserNavigate _ _ => true
  | _ => false

/-! ## Envelopes -/

structure ActionGuard where
  path : StatePath
  expected : JsonScalar
  deriving DecidableEq

structure ExpectedEffect where
  path : StatePath
  operation : EffectOperation
  value : JsonScalar := .none
  coherent : validateEffectOperationValue operation value = .ok ()
  deriving DecidableEq

structure RequestedBy where
  type : RequesterType
  role : Name
  actorId : Option Name := none
  deriving DecidableEq

structure ActionEnvelope where
  actionId : ContractId
  experimentId : ContractId
  worldId : ContractId
  scopeAction : ScopeAction
  action : Action
  preconditions : List ActionGuard := []
  expectedEffects : List ExpectedEffect := []
  riskClass : RiskClass
  idempotencyKey : Sha256Digest
  requestedBy : RequestedBy
  policyDecisionRef : ContractId
  approvalRef : Option ContractId := none
  sequence : Nat := 0
  timeoutMs : Nat := 30000
  timeoutPositive : 0 < timeoutMs
  scopeBound : scopeAction = action.scope
  resolved : action.isResolved = true
  elevatedApproved : riskClass = .elevatedReversible → approvalRef ≠ none
  passiveReads : riskClass = .passive → action.mayBePassive = true
  deriving DecidableEq

end StateWeaver.Contracts
