import StateWeaver.Contracts.StateIr

/-!
# Inputs and outputs of the compiler

A fragment is a transition with the envelope that authorizes its action. `CompiledChain` is built from
parts and checked when it is built, so its validator is a function, `CompiledChain.modelValidate`.
-/

namespace StateWeaver.Compiler

open Contracts

/-- The pattern of `SessionHandle`. -/
def isSessionHandle (s : String) : Bool := hasLength 10 160 s && isTagged "session:" isNameChar s

abbrev SessionHandle := Constrained isSessionHandle

/-- `CompilationError` codes. -/
inductive Code where
  | noFragments | duplicateFragmentId | goalUnreachable | mutuallyExclusiveEffect | dependencyCycle
  | worldMismatch | identityBindingMismatch | artifactBindingMismatch | sessionIdentityConflict
  | unknownOrderingDependency | rootStateConflict | missingPrecondition | orderingBlocked
  | timeWindowMissed | invalidNumericEffect
  deriving DecidableEq

/-- The exceptions that can leave `compile`. -/
inductive Exc where
  | compilationError (code : Code) (fragmentId : Option ContractId)
  | overflowError (message : String)
  /-- A `pydantic.ValidationError`, with the text of the first failing check. -/
  | validationError (message : String)
  | valueError (message : String)
  deriving DecidableEq

/-- Whether the exception is the compiler's verdict on the request. -/
def Exc.isCompilationError : Exc → Bool
  | .compilationError _ _ => true
  | _ => false

/-- An inclusive window of the controlled clock. -/
structure TimeWindow where
  opensAtMs : Nat := 0
  closesAtMs : Nat := 86400000
  forward : opensAtMs ≤ closesAtMs
  deriving DecidableEq

structure FragmentBinding where
  identityHandle : Option IdentityHandle := none
  sessionHandle : Option SessionHandle := none
  artifactHandle : Option ArtifactHandle := none
  sessionRequiresIdentity : sessionHandle ≠ none → identityHandle ≠ none
  deriving DecidableEq

structure CompilerFragment where
  fragment : TransitionFragment
  envelope : ActionEnvelope
  worldId : ContractId
  binding : FragmentBinding
  window : TimeWindow
  after : List ContractId := []
  cost : Nat := 1
  costInRange : 1 ≤ cost ∧ cost ≤ 100
  envelopeWorld : envelope.worldId = worldId
  envelopeAction : fragment.action = envelope.action
  afterOthers : fragment.transitionId ∉ after
  afterUnique : after.Nodup

theorem CompilerFragment.fields_eq_iff (f g : CompilerFragment) :
    (f.fragment = g.fragment ∧ f.envelope = g.envelope ∧ f.worldId = g.worldId ∧ f.binding = g.binding ∧
      f.window = g.window ∧ f.after = g.after ∧ f.cost = g.cost) ↔ f = g := by
  cases f
  cases g
  rw [mk.injEq]

instance instDecidableEqCompilerFragment : DecidableEq CompilerFragment := fun f g =>
  decidable_of_iff _ (f.fields_eq_iff g)

/-- `fragment_id`. -/
def CompilerFragment.fragmentId (f : CompilerFragment) : ContractId := f.fragment.transitionId

structure RootState where
  rootSeedId : ContractId
  worldId : ContractId
  conditions : List StateCondition := []
  clockMs : Nat := 0
  deriving DecidableEq

structure TerminalGoal where
  goalId : ContractId
  conditions : List StateCondition
  conditionsNonempty : conditions ≠ []

def TerminalGoal.fields (goal : TerminalGoal) : ContractId × List StateCondition :=
  (goal.goalId, goal.conditions)

theorem TerminalGoal.fields_injective : Function.Injective fields := by
  rintro ⟨⟩ ⟨⟩ h
  simpa [fields] using h

instance instDecidableEqTerminalGoal : DecidableEq TerminalGoal := TerminalGoal.fields_injective.decidableEq

/-- `causal_projection`: what the causal hash of a chain is taken of. -/
structure CausalProjection where
  rootSeedId : ContractId
  worldId : ContractId
  fragmentIds : List ContractId
  actionEnvelopes : List ActionEnvelope
  rootStateHash : Sha256Digest
  fragmentSemanticHashes : List Sha256Digest
  terminalGoal : TerminalGoal
  requiresPolicyReauthorization : Bool
  deriving DecidableEq

/-- `sha256_digest` of the values the compiler hashes: the tagged digest of their canonical JSON, or
the text of the `ValueError` that serializing them raises. -/
class ModelDigest where
  rootState : RootState → Except String Sha256Digest
  fragment : CompilerFragment → Except String Sha256Digest
  projection : CausalProjection → Except String Sha256Digest

/-- A digest, or the `ValueError`. -/
def digested (digest : Except String Sha256Digest) : Except Exc Sha256Digest :=
  digest.mapError .valueError

structure CompiledChain where
  chainId : ContractId
  rootSeedId : ContractId
  worldId : ContractId
  fragmentIds : List ContractId
  actionEnvelopes : List ActionEnvelope
  rootStateHash : Sha256Digest
  fragmentSemanticHashes : List Sha256Digest
  terminalGoal : TerminalGoal
  requiresPolicyReauthorization : Bool := true
  causalHash : Sha256Digest
  deriving DecidableEq

namespace CompiledChain

variable [ModelDigest] (c : CompiledChain)

/-- `causal_projection`. -/
def causalProjection : CausalProjection :=
  ⟨c.rootSeedId, c.worldId, c.fragmentIds, c.actionEnvelopes, c.rootStateHash,
    c.fragmentSemanticHashes, c.terminalGoal, c.requiresPolicyReauthorization⟩

/-- `chain_shape_is_consistent`. -/
def modelValidate : Except Exc CompiledChain := do
  Imp.require (c.fragmentIds ≠ [] ∧ c.fragmentIds.length = c.actionEnvelopes.length ∧
      c.fragmentIds.length = c.fragmentSemanticHashes.length)
    (.validationError "compiled chain must contain aligned fragment and action steps")
  Imp.require c.fragmentIds.Nodup (.validationError "compiled chain fragment IDs must be unique")
  let expected ← digested (ModelDigest.projection c.causalProjection)
  Imp.require (c.causalHash = expected)
    (.validationError "causal_hash does not match compiled chain semantics")
  return c

end CompiledChain

end StateWeaver.Compiler
