import StateWeaver.Contracts.Actions
import StateWeaver.Lib.FloatDecimal

/-!
# Scope manifests

What an experiment may do: the targets, the identities, the actions, the limits and the time. A
manifest describes permission and executes nothing.
-/

namespace StateWeaver.Contracts

/-- Instants are ordered by time. -/
instance : LinearOrder Instant :=
  LinearOrder.lift' Instant.microseconds fun a b h => by
    cases a
    cases b
    cases h
    rfl

inductive AuthorizationRequirement where
  | allowed | approvalRequired | denied | unspecified
  deriving DecidableEq

/-- `paths_are_absolute_and_safe`, for one path. -/
def isSafePath (path : String) : Bool :=
  path.toList.take 2 ≠ "//".toList && !(path.toList.splitOn '/').contains "..".toList

structure TargetSelector where
  host : Option Host := none
  ports : List Nat := []
  paths : List PathPattern := []
  portsInRange : ∀ port ∈ ports, 1 ≤ port ∧ port ≤ 65535
  pathsSafe : ∀ path ∈ paths, isSafePath path.val = true
  constrained : host ≠ none ∨ ports ≠ [] ∨ paths ≠ []
  portsOfHost : ports ≠ [] → host ≠ none
  portsUnique : ports.Nodup
  pathsUnique : paths.Nodup

def TargetSelector.fields (s : TargetSelector) : Option Host × List Nat × List PathPattern :=
  (s.host, s.ports, s.paths)

theorem TargetSelector.fields_injective : Function.Injective fields := by
  rintro ⟨⟩ ⟨⟩ h
  simpa [fields] using h

instance instDecidableEqTargetSelector : DecidableEq TargetSelector :=
  TargetSelector.fields_injective.decidableEq

structure ScopeTargets where
  include_ : List TargetSelector
  exclude : List TargetSelector := []
  includeExplicit : include_ ≠ []
  includeHosts : ∀ selector ∈ include_, selector.host ≠ none
  includeUnique : include_.Nodup
  excludeUnique : exclude.Nodup
  deriving DecidableEq

structure ScopeIdentities where
  allowed : List Name
  allowedExplicit : allowed ≠ []
  allowedUnique : allowed.Nodup
  deriving DecidableEq

structure ScopeActions where
  allow : List ScopeAction := []
  requireApproval : List ScopeAction := []
  deny : List ScopeAction := []
  allowNotApproval : ∀ action ∈ allow, action ∉ requireApproval
  allowNotDenied : ∀ action ∈ allow, action ∉ deny
  approvalNotDenied : ∀ action ∈ requireApproval, action ∉ deny
  allowUnique : allow.Nodup
  requireApprovalUnique : requireApproval.Nodup
  denyUnique : deny.Nodup
  someAction : allow ≠ [] ∨ requireApproval ≠ []
  deriving DecidableEq

/-- `requirement_for`. -/
def ScopeActions.requirementFor (actions : ScopeActions) (action : ScopeAction) :
    AuthorizationRequirement :=
  if action ∈ actions.deny then .denied
  else if action ∈ actions.requireApproval then .approvalRequired
  else if action ∈ actions.allow then .allowed
  else .unspecified

structure ScopeLimits where
  requestsPerSecond : Float
  concurrentMaterializedWorlds : Nat
  maxWriteRequests : Nat
  requestsPositive : 0 < requestsPerSecond
  requestsAtMost : requestsPerSecond ≤ 1000
  worldsPositive : 0 < concurrentMaterializedWorlds

def ScopeLimits.fields (limits : ScopeLimits) : Float × Nat × Nat :=
  (limits.requestsPerSecond, limits.concurrentMaterializedWorlds, limits.maxWriteRequests)

theorem ScopeLimits.fields_injective : Function.Injective fields := by
  rintro ⟨⟩ ⟨⟩ h
  simpa [fields] using h

instance instDecidableEqScopeLimits : DecidableEq ScopeLimits := ScopeLimits.fields_injective.decidableEq

structure ScopeValidity where
  notBefore : Option Instant := none
  expiresAt : Instant
  forward : ∀ start ∈ notBefore, start < expiresAt
  deriving DecidableEq

inductive EnvironmentMode where
  | blackBox | grayBox | sourceBacked
  deriving DecidableEq

structure ScopeSpec where
  environmentMode : EnvironmentMode
  targets : ScopeTargets
  identities : ScopeIdentities
  actions : ScopeActions
  limits : ScopeLimits
  validity : ScopeValidity
  deriving DecidableEq

structure ScopeManifest where
  name : Name
  spec : ScopeSpec
  deriving DecidableEq

/-- `authorization_requirement`. -/
def ScopeManifest.authorizationRequirement (manifest : ScopeManifest) (action : ScopeAction) :
    AuthorizationRequirement :=
  manifest.spec.actions.requirementFor action

end StateWeaver.Contracts
