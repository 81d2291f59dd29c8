import Mathlib
import StateWeaver.Compiler.Models
import StateWeaver.Lib.Combinations
import StateWeaver.Lib.Dict

/-!
# The chain compiler

`compile` tries the subsets of the fragments that can contribute anything, the smaller ones first, and
simulates each with a greedy scheduler; the first subset whose simulation reaches the goal becomes the
chain. A Python dictionary that is only read and written by key is a function from paths here.
-/

namespace StateWeaver.Compiler

open Contracts

/-- A simulated state. -/
abbrev State := StatePath → Option Py.Value

/-- A condition's or an effect's operand. -/
def operand (value : JsonScalar) : Py.Value := .scalar value.val

/-! ## Conditions and effects -/

/-- How a comparison judges an ordering. -/
def ordered (judge : Ordering → Bool) (comparison : Option (Option Ordering)) : Bool :=
  match comparison with
  | some (some o) => judge o
  | _ => false

/-- A comparison of two values; what raises `TypeError` does not hold. -/
def compareValues (operator : ComparisonOperator) (left right : Py.Value) : Bool :=
  match operator with
  | .eq => left.eq right
  | .ne => !left.eq right
  | .lt => ordered Ordering.isLT (left.compare? right)
  | .le => ordered Ordering.isLE (left.compare? right)
  | .gt => ordered Ordering.isGT (left.compare? right)
  | .ge => ordered Ordering.isGE (left.compare? right)
  | .contains => (left.contains? right).getD false
  | .notContains => ((left.contains? right).map not).getD false
  | .exists_ | .notExists => false

/-- `_condition_matches`. -/
def conditionMatches (condition : StateCondition) (state : State) : Bool :=
  match condition.operator, state condition.path with
  | .exists_, left => left.isSome
  | .notExists, left => left.isNone
  | _, none => false
  | operator, some left =>
      let right := match condition.reference with
        | some reference => (state reference).getD (.scalar .none_)
        | none => operand condition.value
      compareValues operator left right

/-- `_all_conditions`. -/
def allConditions (conditions : List StateCondition) (state : State) : Bool :=
  conditions.all fun condition => conditionMatches condition state

/-- `_number`. -/
def number (value : Py.Value) : Except Exc Py.Number :=
  match value.number? with
  | some n => .ok n
  | none => .error (.compilationError .invalidNumericEffect none)

/-- An arithmetic effect on the value of a path. -/
def arithmetic (op : Py.Number → Py.Number → Option Py.Number) (effect : StateEffect)
    (state : State) : Except Exc State := do
  let current ← number ((state effect.path).getD (.scalar (.int 0)))
  let change ← number (operand effect.value)
  match op current change with
  | some result => return Function.update state effect.path (some (.scalar result.toScalar))
  | none => .error (.overflowError "int too large to convert to float")

/-- One effect. -/
def applyEffect (state : State) (effect : StateEffect) : Except Exc State :=
  match effect.operation with
  | .set => .ok (Function.update state effect.path (some (operand effect.value)))
  | .add =>
      let values := match state effect.path with
        | none => []
        | some (.tuple l) => l
        | some (.scalar s) => [s]
      .ok (Function.update state effect.path (some (.tuple (values ++ [effect.value.val]))))
  | .remove => .ok (Function.update state effect.path none)
  | .increment => arithmetic Py.Number.add effect state
  | .decrement => arithmetic Py.Number.sub effect state

/-- `_apply_effects`. -/
def applyEffects (state : State) (effects : List StateEffect) : Except Exc State :=
  effects.foldlM applyEffect state

/-- One root condition. -/
def assumeCondition (state : State) (condition : StateCondition) : Except Exc State :=
  match condition.operator, condition.reference with
  | .eq, none =>
      let current := (state condition.path).getD (operand condition.value)
      if current.eq (operand condition.value) then
        .ok (Function.update state condition.path (some current))
      else .error (.compilationError .rootStateConflict none)
  | .exists_, _ =>
      .ok (Function.update state condition.path
        (some ((state condition.path).getD (.scalar (.bool true)))))
  | .notExists, _ => .ok (Function.update state condition.path none)
  | _, _ => .ok state

/-- `_state_from_conditions`. -/
def stateFromConditions (conditions : List StateCondition) : Except Exc State := do
  let state ← conditions.foldlM assumeCondition fun _ => none
  Imp.require (allConditions conditions state = true) (.compilationError .rootStateConflict none)
  return state

/-! ## Relevance -/

/-- `_effect_supports`. -/
def effectSupports (effect : StateEffect) (condition : StateCondition) : Bool :=
  if effect.path ≠ condition.path ∨ condition.reference ≠ none then false
  else
    match effect.operation with
    | .set => condition.operator = .eq ∧ effect.value.val.eq condition.value.val
    | .add => condition.operator = .contains ∨ condition.operator = .exists_
    | .remove => condition.operator = .notExists ∨ condition.operator = .notContains
    | .increment | .decrement => false

/-- `_can_contribute`. -/
def canContribute (fragment : TransitionFragment) (goals : List StateCondition)
    (allNodes : List CompilerFragment) : Bool :=
  let needed := goals ++ allNodes.flatMap fun node => node.fragment.preconditions
  fragment.effects.any fun effect => needed.any fun condition => effectSupports effect condition

/-! ## Checks of the request -/

/-- `_action_bindings`. -/
def actionBindings (fragment : TransitionFragment) :
    Option IdentityHandle × Option ArtifactHandle :=
  match fragment.action with
  | .httpRequest action => (action.identityHandle, action.bodyArtifact)
  | .browserNavigate _ identity => (identity, none)
  | .browserFill _ artifact _ => (none, some artifact)
  | .sessionRotate identity => (some identity, none)
  | _ => (none, none)

/-- The checks of one fragment, with the identity that each session is bound to. -/
def validateNode (root : RootState) (nodes : List CompilerFragment)
    (sessions : Dict SessionHandle IdentityHandle) (node : CompilerFragment) :
    Except Exc (Dict SessionHandle IdentityHandle) := do
  Imp.require (node.worldId = root.worldId)
    (.compilationError .worldMismatch (some node.fragmentId))
  let (identity, artifact) := actionBindings node.fragment
  Imp.require (node.binding.identityHandle = identity)
    (.compilationError .identityBindingMismatch (some node.fragmentId))
  Imp.require (node.binding.artifactHandle = artifact)
    (.compilationError .artifactBindingMismatch (some node.fragmentId))
  let sessions ← match node.binding.sessionHandle, node.binding.identityHandle with
    | some session, some identity => do
        let sessions := sessions.setdefault session identity
        Imp.require (sessions.get? session = some identity)
          (.compilationError .sessionIdentityConflict (some node.fragmentId))
        pure sessions
    | _, _ => pure sessions
  Imp.require (∀ parent ∈ node.after, parent ∈ nodes.map CompilerFragment.fragmentId)
    (.compilationError .unknownOrderingDependency (some node.fragmentId))
  return sessions

/-- `_validate_nodes`. -/
def validateNodes (root : RootState) (nodes : List CompilerFragment) : Except Exc Unit := do
  let _ ← nodes.foldlM (validateNode root nodes) .empty
  return ()

/-- One effect against the values that are set so far. -/
def assertEffect (fragmentId : ContractId) (values : Dict StatePath Py.Scalar)
    (effect : StateEffect) : Except Exc (Dict StatePath Py.Scalar) :=
  match effect.operation with
  | .set => do
      let values := values.setdefault effect.path effect.value.val
      Imp.require (∀ previous ∈ values.get? effect.path, previous.eq effect.value.val = true)
        (.compilationError .mutuallyExclusiveEffect (some fragmentId))
      return values
  | _ => return values

/-- `_assert_effects_compatible`. -/
def assertEffectsCompatible (selected : List CompilerFragment) : Except Exc Unit := do
  let _ ← selected.foldlM (fun values node =>
    node.fragment.effects.foldlM (assertEffect node.fragmentId) values) .empty
  return ()

/-! ## Scheduling -/

/-- `_Simulation`. -/
structure Simulation where
  state : State
  clockMs : Nat
  ordered : List CompilerFragment

/-- Whether everything a fragment comes after has been executed. -/
def afterMet (ordered : List CompilerFragment) (node : CompilerFragment) : Bool :=
  node.after.all fun parent => parent ∈ ordered.map CompilerFragment.fragmentId

/-- Whether a fragment can be executed next. -/
def isReady (simulation : Simulation) (node : CompilerFragment) : Bool :=
  afterMet simulation.ordered node && allConditions node.fragment.preconditions simulation.state &&
    node.window.opensAtMs ≤ simulation.clockMs && simulation.clockMs ≤ node.window.closesAtMs

/-- `min(nodes, key=lambda item: item.fragment_id)`. -/
def leastNode (node : CompilerFragment) (rest : List CompilerFragment) : CompilerFragment :=
  rest.foldl (fun least item => if item.fragmentId < least.fragmentId then item else least) node

/-- Why no fragment is ready. -/
def blocked (simulation : Simulation) (candidate : CompilerFragment) : Exc :=
  if allConditions candidate.fragment.preconditions simulation.state = false then
    .compilationError .missingPrecondition (some candidate.fragmentId)
  else if afterMet simulation.ordered candidate = false then
    .compilationError .orderingBlocked (some candidate.fragmentId)
  else .compilationError .timeWindowMissed (some candidate.fragmentId)

/-- The clock after an action. -/
def advanceClock (clockMs : Nat) (action : Action) : Nat :=
  match action with
  | .timeAdvance advance => clockMs + advance.milliseconds
  | _ => clockMs

/-- Execute one fragment. -/
def executeNode (simulation : Simulation) (node : CompilerFragment) : Except Exc Simulation := do
  let state ← applyEffects simulation.state node.fragment.effects
  return ⟨state, advanceClock simulation.clockMs node.fragment.action, simulation.ordered ++ [node]⟩

/-- The loop of `_schedule`, for as many rounds as there are fragments. -/
def scheduleLoop : Nat → Simulation → List CompilerFragment → Except Exc Simulation
  | 0, simulation, _ => .ok simulation
  | _ + 1, simulation, [] => .ok simulation
  | rounds + 1, simulation, node :: rest =>
      match (node :: rest).filter (isReady simulation) with
      | [] => .error (blocked simulation (leastNode node rest))
      | candidate :: others => do
          let least := leastNode candidate others
          let simulation ← executeNode simulation least
          scheduleLoop rounds simulation ((node :: rest).erase least)

/-- `_schedule`. -/
def schedule (selected : List CompilerFragment) (initial : State) (clockMs : Nat)
    (goal : List StateCondition) : Except Exc Simulation := do
  let simulation ← scheduleLoop selected.length ⟨initial, clockMs, []⟩ selected
  Imp.require (allConditions goal simulation.state = true) (.compilationError .goalUnreachable none)
  return simulation

/-! ## Dependency cycles -/

/-- The order in which Python iterates over a set of identifiers: some order. -/
class SetOrder where
  order : List ContractId → List ContractId
  mem_order : ∀ l id, id ∈ order l ↔ id ∈ l

/-- The nodes a depth-first search has seen, and those it is below. -/
structure Visit where
  visited : List ContractId
  active : List ContractId

/-- `any(visit(child) for child in children)`. -/
def anyVisit (visit : Visit → ContractId → Bool × Visit) : Visit → List ContractId → Bool × Visit
  | v, [] => (false, v)
  | v, child :: rest =>
      match visit v child with
      | (true, v) => (true, v)
      | (false, v) => anyVisit visit v rest

/-- `visit`, to a depth of at most the number of nodes. -/
def visit (edges : ContractId → List ContractId) : Nat → Visit → ContractId → Bool × Visit
  | 0, v, _ => (false, v)
  | depth + 1, v, identifier =>
      if identifier ∈ v.active then (true, v)
      else if identifier ∈ v.visited then (false, v)
      else
        let below : Visit := ⟨identifier :: v.visited, identifier :: v.active⟩
        let (cyclic, v) := anyVisit (visit edges depth) below (edges identifier)
        (cyclic, { v with active := v.active.erase identifier })

/-- The fragments with an effect that supports a precondition which the initial state does not
meet. -/
def producers (nodes : List CompilerFragment) (initial : State) (node : CompilerFragment) :
    List ContractId :=
  (node.fragment.preconditions.filter fun condition => !conditionMatches condition initial).flatMap
    fun condition =>
      (nodes.filter fun candidate => candidate.fragment.effects.any fun effect =>
        effectSupports effect condition).map CompilerFragment.fragmentId

/-- The edges out of an identifier. -/
def dependencyEdges [SetOrder] (nodes : List CompilerFragment) (initial : State)
    (identifier : ContractId) : List ContractId :=
  SetOrder.order ((nodes.filter fun node => node.fragmentId = identifier).flatMap
    (producers nodes initial)).dedup

/-- `_has_dependency_cycle`. -/
def hasDependencyCycle [SetOrder] (nodes : List CompilerFragment) (initial : State) : Bool :=
  let identifiers := (nodes.map CompilerFragment.fragmentId).dedup
  (anyVisit (visit (dependencyEdges nodes initial) (identifiers.length + 1)) ⟨[], []⟩
    (identifiers.insertionSort (· ≤ ·))).1

/-! ## Compiling -/

/-- `_resequenced_envelope`. -/
def resequencedEnvelope (envelope : ActionEnvelope) (sequence : Nat) : ActionEnvelope :=
  { envelope with sequence := sequence }

/-- The checks of the request, the fragments in order and the root state. -/
def admitRoot (root : RootState) (fragments : List CompilerFragment) :
    Except Exc (List CompilerFragment × State) := do
  let nodes := fragments.insertionSort fun a b => a.fragmentId ≤ b.fragmentId
  Imp.require (nodes ≠ []) (.compilationError .noFragments none)
  Imp.require (nodes.map CompilerFragment.fragmentId).Nodup
    (.compilationError .duplicateFragmentId none)
  validateNodes root nodes
  let initial ← stateFromConditions root.conditions
  return (nodes, initial)

/-- The fragments that can contribute to the goal or to each other. -/
def relevantNodes (nodes : List CompilerFragment) (goal : TerminalGoal) : List CompilerFragment :=
  nodes.filter fun node => canContribute node.fragment goal.conditions nodes

/-- The errors of the subsets that were tried: the first one, and the last conflict. -/
structure Failures where
  first : Option Exc := none
  conflict : Option Exc := none

/-- Note the error of a subset. -/
def Failures.note (failures : Failures) (error : Exc) : Failures where
  first := failures.first <|> some error
  conflict := match error with
    | .compilationError .mutuallyExclusiveEffect _ => some error
    | _ => failures.conflict

/-- One subset: check it and simulate it. -/
def attempt (initial : State) (clockMs : Nat) (goal : TerminalGoal)
    (selected : List CompilerFragment) : Except Exc Simulation := do
  assertEffectsCompatible selected
  schedule selected initial clockMs goal.conditions

/-- Try the subsets in turn until the simulation of one reaches the goal. A compilation error is noted,
any other exception leaves the loop. -/
def firstPlan (initial : State) (clockMs : Nat) (goal : TerminalGoal) :
    Failures → List (List CompilerFragment) → Except Exc (Simulation ⊕ Failures)
  | failures, [] => .ok (.inr failures)
  | failures, selected :: rest =>
      match attempt initial clockMs goal selected with
      | .ok simulation =>
          if allConditions goal.conditions simulation.state then .ok (.inl simulation)
          else firstPlan initial clockMs goal failures rest
      | .error error =>
          if error.isCompilationError then firstPlan initial clockMs goal (failures.note error) rest
          else .error error

/-- All subsets but the empty one, the smaller ones first. -/
def candidateSets (relevant : List CompilerFragment) : List (List CompilerFragment) :=
  (List.range' 1 relevant.length).flatMap fun size => List.combinations size relevant

/-- The chain of a simulation. -/
def assemble [ModelDigest] (chainId : String) (root : RootState) (goal : TerminalGoal)
    (simulation : Simulation) : Except Exc CompiledChain := do
  let envelopes := simulation.ordered.mapIdx fun index item =>
    resequencedEnvelope item.envelope index
  let fragmentIds := simulation.ordered.map CompilerFragment.fragmentId
  let rootStateHash ← digested (ModelDigest.rootState root)
  let fragmentSemanticHashes ← simulation.ordered.mapM fun item =>
    digested (ModelDigest.fragment item)
  let causalHash ← digested <| ModelDigest.projection
    ⟨root.rootSeedId, root.worldId, fragmentIds, envelopes, rootStateHash, fragmentSemanticHashes,
      goal, true⟩
  match (Constrained.ofString? chainId : Option ContractId) with
  | none => .error (.validationError "chain_id does not match its pattern")
  | some chainId =>
      CompiledChain.modelValidate
        { chainId := chainId, rootSeedId := root.rootSeedId, worldId := root.worldId,
          fragmentIds := fragmentIds, actionEnvelopes := envelopes, rootStateHash := rootStateHash,
          fragmentSemanticHashes := fragmentSemanticHashes, terminalGoal := goal,
          causalHash := causalHash }

/-- The error that reports that no subset reaches the goal. -/
def report [SetOrder] (relevant : List CompilerFragment) (initial : State) (failures : Failures) :
    Exc :=
  if hasDependencyCycle relevant initial then .compilationError .dependencyCycle none
  else
    match failures.conflict with
    | some conflict => conflict
    | none => failures.first.getD (.compilationError .goalUnreachable none)

/-- `ChainCompiler.compile`. -/
def compile [ModelDigest] [SetOrder] (chainId : String) (root : RootState)
    (fragments : List CompilerFragment) (goal : TerminalGoal) : Except Exc CompiledChain := do
  let (nodes, initial) ← admitRoot root fragments
  let relevant := relevantNodes nodes goal
  Imp.require (relevant ≠ []) (.compilationError .goalUnreachable none)
  match ← firstPlan initial root.clockMs goal {} (candidateSets relevant) with
  | .inl simulation => assemble chainId root goal simulation
  | .inr failures => .error (report relevant initial failures)

end StateWeaver.Compiler
