import StateWeaver.Contracts.Actions

/-!
# Conditions, effects and transitions

What a transition needs and what it changes, as conditions and effects on paths of a state.
-/

namespace StateWeaver.Contracts

inductive ComparisonOperator where
  | eq | ne | lt | le | gt | ge | contains | notContains | exists_ | notExists
  deriving DecidableEq

/-- Whether an operator only asks if the path is there. -/
def ComparisonOperator.isExistence : ComparisonOperator → Bool
  | .exists_ | .notExists => true
  | _ => false

structure StateCondition where
  path : StatePath
  operator : ComparisonOperator
  value : JsonScalar := .none
  reference : Option StatePath := none
  /-- An existence condition takes no operand. -/
  existenceShape : operator.isExistence = true → value = .none ∧ reference = none
  /-- A comparison takes a value or a reference, and not both. -/
  comparisonShape : operator.isExistence = false → (value = .none ↔ reference ≠ none)
  deriving DecidableEq

/-- An existence condition without an operand has the shape of one. -/
theorem StateCondition.bare_existence : ComparisonOperator.exists_.isExistence = true →
    JsonScalar.none = .none ∧ (none : Option StatePath) = none :=
  fun _ => ⟨rfl, rfl⟩

theorem StateCondition.bare_comparison : ComparisonOperator.exists_.isExistence = false →
    (JsonScalar.none = .none ↔ (none : Option StatePath) ≠ none) := nofun

structure StateEffect where
  path : StatePath
  operation : EffectOperation
  value : JsonScalar := .none
  coherent : validateEffectOperationValue operation value = .ok ()

def StateEffect.fields (effect : StateEffect) : StatePath × EffectOperation × JsonScalar :=
  (effect.path, effect.operation, effect.value)

theorem StateEffect.fields_injective : Function.Injective fields := by
  rintro ⟨⟩ ⟨⟩ h
  simpa [fields] using h

instance instDecidableEqStateEffect : DecidableEq StateEffect :=
  StateEffect.fields_injective.decidableEq

inductive ProvenanceKind where
  | hypothesized | inferred | observed | mocked | unknown | declared
  deriving DecidableEq

inductive FidelityLevel where
  | exact | observed | partial_ | inferred | unknown
  deriving DecidableEq

structure FidelityProfile where
  code : FidelityLevel := .unknown
  identity : FidelityLevel := .unknown
  database : FidelityLevel := .unknown
  cache : FidelityLevel := .unknown
  queue : FidelityLevel := .unknown
  timing : FidelityLevel := .unknown
  deriving DecidableEq

/-- The levels of all aspects. -/
def FidelityProfile.levels (f : FidelityProfile) : List FidelityLevel :=
  [f.code, f.identity, f.database, f.cache, f.queue, f.timing]

/-- Whether some aspect is claimed to be exact or observed. -/
def FidelityProfile.claimsObservation (f : FidelityProfile) : Bool :=
  f.levels.any fun level => level = .exact ∨ level = .observed

structure TransitionFragment where
  transitionId : ContractId
  name : String
  source : ProvenanceKind
  preconditions : List StateCondition
  action : Action
  effects : List StateEffect
  observables : List StateCondition
  evidenceIds : List ContractId := []
  fidelity : FidelityProfile
  consistentReplays : Nat := 0
  preconditionsNonempty : preconditions ≠ []
  effectsNonempty : effects ≠ []
  observablesNonempty : observables ≠ []
  evidenceUnique : evidenceIds.Nodup
  inferredReplayed : source = .inferred → 2 ≤ consistentReplays
  evidenced : source ∈ [.inferred, .declared, .mocked, .observed] → evidenceIds ≠ []
  unevidenced : source ∈ [.hypothesized, .unknown] → evidenceIds = []
  unobservedFidelity : source ∈ [.hypothesized, .mocked] → fidelity.claimsObservation = false
  unknownFidelity : source = .unknown → fidelity.levels.all (· = .unknown) = true
  observedFidelity : source = .observed → fidelity.claimsObservation = true
  deriving DecidableEq

end StateWeaver.Contracts
