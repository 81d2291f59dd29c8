import StateWeaver.Contracts.Writable
import StateWeaver.Search.Models

/-!
# Challenges, budgets and runs

A challenge is a closed catalog of actions over named flags, a goal and a bound for the length of a
chain. A budget ledger is an append-only list of events within fixed limits. Identifiers are parts of
digests. The models carry what their validators check as fields; `create` checks it.
-/

namespace StateWeaver.StateChainBench

open Contracts

/-! ## Identifiers -/

/-- A tag and then a number of hexadecimal digits. -/
def isTaggedHex (tag : String) (count : Nat) (s : String) : Bool :=
  s.toList.take tag.toList.length == tag.toList &&
    ((s.toList.drop tag.toList.length).length == count &&
      (s.toList.drop tag.toList.length).all Char.isLowerHex)

abbrev ChallengeId := Constrained (isTaggedHex "challenge." 24)
abbrev ActionToken := Constrained (isTaggedHex "action." 24)
abbrev StateKey := Constrained (isTaggedHex "state." 16)
abbrev EventId := Constrained (isTaggedHex "event." 24)

/-- The pattern of `OperationKey`. -/
def isOperationKey (s : String) : Bool :=
  isTaggedHex "plan." 24 s || isTaggedHex "execute." 24 s || isTaggedHex "world." 24 s

/-- The pattern of `SystemId`. -/
def isSystemId (s : String) : Bool :=
  let stem := s.toList.drop 7
  s.toList.take 7 == "system.".toList && headTail Char.isLower
      (fun c => isLowerAlnum c || c == '_' || c == '-') stem &&
    (3 ≤ stem.length && stem.length ≤ 64)

abbrev OperationKey := Constrained isOperationKey
abbrev SystemId := Constrained isSystemId

theorem isTaggedHex_taggedDigits (tag : String) {count : Nat} (hcount : count ≤ 64)
    (digest : Sha256Digest) : isTaggedHex tag count (taggedDigits tag count digest) = true := by
  obtain ⟨hlength, hdigits⟩ := digits_of_digest digest
  rw [isTaggedHex, toList_taggedDigits, List.take_left, List.drop_left, List.length_take, hlength,
    Nat.min_eq_left hcount]
  simp only [beq_self_eq_true, Bool.true_and, List.all_eq_true]
  exact fun c hc => hdigits c (List.mem_of_mem_take hc)

theorem digits_of_isTaggedHex {s tag : String} {count : Nat} (h : isTaggedHex tag count s = true) :
    (s.toList.drop tag.toList.length).length = count ∧
      ∀ c ∈ s.toList.drop tag.toList.length, c.isLowerHex = true := by
  rw [isTaggedHex, Bool.and_eq_true, Bool.and_eq_true, beq_iff_eq, beq_iff_eq, List.all_eq_true] at h
  exact h.2

/-! ## Exceptions -/

inductive Model where
  | publicAction | publicChallenge | budgetEvent | budgetLedger | candidateSubmission | budgetExhaustion
  | systemRun | scoreSignal | searchBatch
  deriving DecidableEq

/-! ## Challenges -/

structure StateCell where
  key : StateKey
  value : Bool
  deriving DecidableEq

/-- Cells in the order of their keys, without a repeated key. -/
structure Cells where
  items : List StateCell
  nonempty : items ≠ []
  sorted : (items.map StateCell.key).Pairwise (· < ·)
  deriving DecidableEq

theorem Cells.nodup (cells : Cells) : (cells.items.map StateCell.key).Nodup :=
  cells.sorted.imp fun h => ne_of_lt h

structure PublicAction where
  token : ActionToken
  preconditions : Cells
  effects : Cells
  actionCost : Nat := 1
  costInRange : 1 ≤ actionCost ∧ actionCost ≤ 16
  deriving DecidableEq

/-- The values of the flags. -/
abbrev State := Dict StateKey Bool

/-- `{item.key: item.value for item in cells}`. -/
def Cells.mapping (cells : Cells) : State :=
  ⟨cells.items.map fun item => (item.key, item.value), by
    rw [List.map_map]
    exact cells.nodup⟩

structure PublicChallenge where
  challengeId : ChallengeId
  initialState : Cells
  goal : StateCell
  actions : List PublicAction
  maxChainLength : Nat
  lengthInRange : 3 ≤ maxChainLength ∧ maxChainLength ≤ 32
  nontrivial : 5 ≤ actions.length
  tokensUnique : (actions.map PublicAction.token).Nodup
  goalDeclared : goal.key ∈ initialState.items.map StateCell.key
  goalPositive : goal.value = true
  goalOpen : initialState.mapping.get? goal.key ≠ some goal.value
  declared : ∀ action ∈ actions, ∀ cell ∈ action.preconditions.items ++ action.effects.items,
    cell.key ∈ initialState.items.map StateCell.key
  joint : ∃ action ∈ actions, goal ∈ action.effects.items ∧ 3 ≤ action.preconditions.items.length
  closed : maxChainLength ≤ actions.length

def PublicChallenge.initialMapping (challenge : PublicChallenge) : State := challenge.initialState.mapping

def actionIsApplicable (action : PublicAction) (state : State) : Bool :=
  action.preconditions.items.all fun item => state.get? item.key = some item.value

/-- The state after an action that is applicable. -/
def applyEffects (action : PublicAction) (state : State) : State :=
  action.effects.items.foldl (fun output effect => output.insert effect.key effect.value) state

def goalIsReached (challenge : PublicChallenge) (state : State) : Bool :=
  state.get? challenge.goal.key = some challenge.goal.value

/-! ## Budgets -/

structure BudgetLimits where
  maxActionCost : Nat
  maxWorldCost : Nat
  maxLatencyUnits : Nat
  inRange : maxActionCost ≤ 1000000 ∧ maxWorldCost ≤ 1000000 ∧ maxLatencyUnits ≤ 10000000
  deriving DecidableEq

structure BudgetUsage where
  actionCost : Nat := 0
  worldCost : Nat := 0
  latencyUnits : Nat := 0
  deriving DecidableEq

inductive BudgetEventKind where
  | plan | action | world
  deriving DecidableEq

def BudgetEventKind.value : BudgetEventKind → String
  | .plan => "plan"
  | .action => "action"
  | .world => "world"

/-- The tag of the operations of a kind. -/
def BudgetEventKind.prefix_ : BudgetEventKind → String
  | .plan => "plan."
  | .action => "execute."
  | .world => "world."

structure EventContent where
  sequence : Nat
  kind : BudgetEventKind
  operationKey : OperationKey
  actionToken : Option ActionToken := none
  actionCost : Nat := 0
  worldCost : Nat := 0
  latencyUnits : Nat := 1
  deriving DecidableEq

def EventContent.toValue (content : EventContent) : Value :=
  .mapping
    [(some "sequence", .scalar (.int content.sequence)),
      (some "kind", .enum content.kind.value),
      (some "operation_key", .scalar (.str content.operationKey.val)),
      (some "action_token", match content.actionToken with
        | some token => .scalar (.str token.val)
        | none => .scalar .none_),
      (some "action_cost", .scalar (.int content.actionCost)),
      (some "world_cost", .scalar (.int content.worldCost)),
      (some "latency_units", .scalar (.int content.latencyUnits))]

/-- The checks of an event but that of its identifier. -/
def eventShape (content : EventContent) : Except String Unit := do
  Imp.require (1 ≤ content.sequence ∧ 1 ≤ content.latencyUnits)
    "Input should be greater than or equal to 1"
  Imp.require (content.operationKey.val.toList.take content.kind.prefix_.toList.length =
      content.kind.prefix_.toList)
    "budget event kind must match its operation namespace"
  match content.kind with
  | .plan =>
      Imp.require (content.actionCost = 0 ∧ content.worldCost = 0)
        "planning events cannot claim action or world cost"
  | .action =>
      Imp.require (content.actionToken ≠ none ∧ content.actionCost ≠ 0 ∧ content.worldCost = 0)
        "action events require one typed action cost"
  | .world =>
      Imp.require (content.actionCost = 0 ∧ content.worldCost ≠ 0)
        "world events require one positive world cost"

section

variable [Sha256]

/-- `budget_event_id`. -/
def budgetEventId (content : EventContent) : Except String EventId := do
  let digest ← digestOf content.toValue
  return ⟨taggedDigits "event." 24 digest, isTaggedHex_taggedDigits _ (by decide) _⟩

/-- An event. Its identifier binds its content. -/
structure BudgetEvent extends EventContent where
  eventId : EventId
  shape : eventShape toEventContent = .ok ()
  identifierIsBound : budgetEventId toEventContent = .ok eventId

/-- The exceptions of the benchmark. -/
inductive Exc where
  /-- A `pydantic.ValidationError` of a model, with the text of the failing check. -/
  | validationError (model : Model) (message : String)
  /-- The `ValidationError` of a ledger with two events of one identifier or one operation. -/
  | eventsNotUnique (events : List BudgetEvent)
  | budgetExceeded
  /-- An exception of the search controller. -/
  | search (e : Search.Exc)
  | valueError (message : String)
  | keyError
  /-- `BenchmarkAuditError`. -/
  | auditError (message : String)

def BudgetEvent.create (eventId : EventId) (content : EventContent) : Except Exc BudgetEvent :=
  match hshape : eventShape content with
  | .error e => .error (.validationError .budgetEvent e)
  | .ok () =>
      match hid : budgetEventId content with
      | .error e => .error (.validationError .budgetEvent e)
      | .ok expected =>
          if h : eventId = expected then .ok ⟨content, eventId, hshape, h ▸ hid⟩
          else .error (.validationError .budgetEvent
            "budget event ID must bind the immutable event content")

/-- The use of some events. -/
def usage (events : List BudgetEvent) : BudgetUsage where
  actionCost := (events.map fun item => item.actionCost).sum
  worldCost := (events.map fun item => item.worldCost).sum
  latencyUnits := (events.map fun item => item.latencyUnits).sum

omit [Sha256] in
/-- `_fits`. -/
def fits (limits : BudgetLimits) (usage : BudgetUsage) : Bool :=
  usage.actionCost ≤ limits.maxActionCost && usage.worldCost ≤ limits.maxWorldCost &&
    usage.latencyUnits ≤ limits.maxLatencyUnits

structure BudgetLedger where
  limits : BudgetLimits
  events : List BudgetEvent
  sequences : events.map (fun item => item.sequence) = List.range' 1 events.length
  idsUnique : (events.map BudgetEvent.eventId).Nodup
  operationsUnique : (events.map fun item => item.operationKey).Nodup
  withinLimits : fits limits (usage events) = true

def BudgetLedger.empty (limits : BudgetLimits) : BudgetLedger where
  limits := limits
  events := []
  sequences := rfl
  idsUnique := List.nodup_nil
  operationsUnique := List.nodup_nil
  withinLimits := by simp [fits, usage]

def BudgetLedger.create (limits : BudgetLimits) (events : List BudgetEvent) : Except Exc BudgetLedger :=
  if hsequences : events.map (fun item => item.sequence) = List.range' 1 events.length then
    if hunique : (events.map BudgetEvent.eventId).Nodup ∧
        (events.map fun item => item.operationKey).Nodup then
      if hlimits : fits limits (usage events) = true then
        .ok ⟨limits, events, hsequences, hunique.1, hunique.2, hlimits⟩
      else .error (.validationError .budgetLedger "budget ledger cannot contain overspent history")
    else .error (.eventsNotUnique events)
  else .error (.validationError .budgetLedger "budget event sequence must be contiguous")

/-- `usage` of a ledger. -/
def BudgetLedger.usage (ledger : BudgetLedger) : BudgetUsage := StateChainBench.usage ledger.events

/-- `reserve`; the content is given without its sequence number. -/
def BudgetLedger.reserve (ledger : BudgetLedger) (kind : BudgetEventKind) (operationKey : OperationKey)
    (actionToken : Option ActionToken) (actionCost worldCost latencyUnits : Nat) :
    Except Exc BudgetLedger := do
  let content : EventContent :=
    ⟨ledger.events.length + 1, kind, operationKey, actionToken, actionCost, worldCost, latencyUnits⟩
  let eventId ← (budgetEventId content).mapError .valueError
  let event ← BudgetEvent.create eventId content
  let proposed : BudgetUsage :=
    { actionCost := ledger.usage.actionCost + event.actionCost
      worldCost := ledger.usage.worldCost + event.worldCost
      latencyUnits := ledger.usage.latencyUnits + event.latencyUnits }
  Imp.require (fits ledger.limits proposed = true) .budgetExceeded
  BudgetLedger.create ledger.limits (ledger.events ++ [event])

end

/-! ## Runs -/

structure CandidateSubmission where
  challengeId : ChallengeId
  actionTokens : List ActionToken
  unique : actionTokens.Nodup

inductive BudgetAttemptKind where
  | plan | action | actionWorld
  deriving DecidableEq

/-- The reservation that did not fit. -/
structure BudgetExhaustion where
  attemptKind : BudgetAttemptKind
  actionToken : ActionToken
  baseUsage : BudgetUsage
  actionCostDelta : Nat
  worldCostDelta : Nat
  latencyUnitsDelta : Nat
  latencyPositive : 1 ≤ latencyUnitsDelta
  tariff : (match attemptKind with
    | .plan => (actionCostDelta, worldCostDelta, latencyUnitsDelta) = (0, 0, 1)
    | .action => actionCostDelta ≠ 0 ∧
        (actionCostDelta, worldCostDelta, latencyUnitsDelta) = (actionCostDelta, 0, actionCostDelta)
    | .actionWorld => actionCostDelta ≠ 0 ∧
        (actionCostDelta, worldCostDelta, latencyUnitsDelta) = (actionCostDelta, 1, actionCostDelta + 2))

/-- `BudgetExhaustion` of an attempt to plan. -/
def BudgetExhaustion.ofPlan (baseUsage : BudgetUsage) (action : PublicAction) : BudgetExhaustion :=
  ⟨.plan, action.token, baseUsage, 0, 0, 1, le_refl 1, rfl⟩

/-- `BudgetExhaustion` of an attempt to act. -/
def BudgetExhaustion.ofAction (baseUsage : BudgetUsage) (action : PublicAction) : BudgetExhaustion :=
  ⟨.action, action.token, baseUsage, action.actionCost, 0, action.actionCost, action.costInRange.1,
    Nat.one_le_iff_ne_zero.mp action.costInRange.1, rfl⟩

/-- `BudgetExhaustion` of an attempt to act in a world. -/
def BudgetExhaustion.ofActionWorld (baseUsage : BudgetUsage) (action : PublicAction) : BudgetExhaustion :=
  ⟨.actionWorld, action.token, baseUsage, action.actionCost, 1, action.actionCost + 2,
    Nat.le_add_left _ _, Nat.one_le_iff_ne_zero.mp action.costInRange.1, rfl⟩

inductive StopReason where
  | goalReached | noProgress | budgetExhausted | depthLimit | chainCompilerDisabled
  deriving DecidableEq

structure SystemRun [Sha256] where
  systemId : SystemId
  systemConfigDigest : Sha256Digest
  submission : CandidateSubmission
  ledger : BudgetLedger
  anchorRequested : Bool
  stopReason : StopReason
  budgetExhaustion : Option BudgetExhaustion
  searchFingerprints : List Sha256Digest
  fingerprintsUnique : searchFingerprints.Nodup
  exhaustionRetained : stopReason = .budgetExhausted ↔ budgetExhaustion.isSome = true

end StateWeaver.StateChainBench
