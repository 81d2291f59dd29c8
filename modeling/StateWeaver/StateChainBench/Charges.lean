import StateWeaver.StateChainBench.Ledger
import StateWeaver.StateChainBench.Tiered
import StateWeaver.Search.Total

/-!
# What solvers charge

The charges of a solver are kept as entries, each with the operation that its key hashes. The books of a
ledger are entries with different operations that account for its events. A charge adds an entry, is
refused, or raises because of a collision of hashes.
-/

namespace StateWeaver.StateChainBench

open Contracts

/-! ## Entries -/

/-- What the key of an event is the hash of. -/
inductive Operation where
  | linearPlan (state : Sha256Digest) (token : ActionToken)
  | linearExecute (token : ActionToken)
  | linearWorld (token : ActionToken)
  | plan (chain : List ActionToken)
  | execute (chain : List ActionToken)
  | world (chain : List ActionToken)

def Operation.kind : Operation → BudgetEventKind
  | .linearPlan _ _ | .plan _ => .plan
  | .linearExecute _ | .execute _ => .action
  | .linearWorld _ | .world _ => .world

/-- An operation and the action it is charged for. -/
structure Entry where
  operation : Operation
  action : PublicAction

/-- The tariff of an entry. -/
def Entry.cost (entry : Entry) : BudgetUsage :=
  match entry.operation.kind with
  | .plan => ⟨0, 0, 1⟩
  | .action => ⟨entry.action.actionCost, 0, entry.action.actionCost⟩
  | .world => ⟨0, 1, 2⟩

theorem Entry.tariff (entry : Entry) :
    Tariff entry.operation.kind entry.cost.actionCost entry.cost.worldCost entry.cost.latencyUnits := by
  rw [Entry.cost]
  cases entry.operation.kind with
  | plan => exact tariff_plan
  | action => exact tariff_action entry.action
  | world => exact tariff_world

/-- What an event says but for its number and its identifiers. -/
abbrev Line := BudgetEventKind × Option ActionToken × BudgetUsage

def Entry.line (entry : Entry) : Line := (entry.operation.kind, some entry.action.token, entry.cost)

def EventContent.line (content : EventContent) : Line := (content.kind, content.actionToken, content.cost)

variable [Sha256]

/-- The texts that are hashed. -/
def Operation.parts (challenge : PublicChallenge) : Operation → List String
  | .linearPlan state token => [challenge.challengeId.val, "linear", state.val, token.val]
  | .linearExecute token | .linearWorld token => [challenge.challengeId.val, "linear", token.val]
  | .plan chain => challenge.challengeId.val :: chain.map Constrained.val
  | .execute chain | .world chain => [challenge.challengeId.val, (candidateId challenge chain).val]

def Operation.key (challenge : PublicChallenge) (op : Operation) : OperationKey :=
  StateChainBench.operation op.kind (op.parts challenge)

/-! ## Collisions -/

/-- Actions of the catalog without a repetition. -/
structure IsChain (challenge : PublicChallenge) (chain : List ActionToken) : Prop where
  nodup : chain.Nodup
  known : ∀ token ∈ chain, token ∈ challenge.actions.map PublicAction.token

/-- A reservation that the searches of the tiered solver can make. -/
structure Planned (challenge : PublicChallenge) (budget : BudgetLimits)
    (content : Search.ReservationContent) : Prop where
  chain : ∃ chain, IsChain challenge chain ∧ content.candidateId = candidateId challenge chain
  tier : content.targetTier = .replay
  sequence : content.sequence ≤ (searchLedgerOf budget).limits.worlds
  cost : ∃ action ∈ challenge.actions,
    content.cost = { targetRequests := action.actionCost, cpuSeconds := 1 }

/-- The exceptions that mean that two different things of a run have one hash. -/
inductive IsCollision (challenge : PublicChallenge) (budget : BudgetLimits) : Exc → Prop
  /-- Two events for different operations have one key, or two different events one identifier. -/
  | events (events : List BudgetEvent) (operations : List Operation) (hnodup : operations.Nodup)
      (hkeys : (events.map fun e => e.operationKey) = operations.map (Operation.key challenge))
      (hcontents : (events.map BudgetEvent.toEventContent).Nodup)
      (hrepeated : ¬((events.map BudgetEvent.eventId).Nodup ∧ (events.map fun e => e.operationKey).Nodup)) :
      IsCollision challenge budget (.eventsNotUnique events)
  /-- Two chains have one candidate. -/
  | candidates (chain chain' : List ActionToken) (hchain : IsChain challenge chain)
      (hchain' : IsChain challenge chain') (hne : chain ≠ chain')
      (heq : candidateId challenge chain = candidateId challenge chain') :
      IsCollision challenge budget (.validationError .searchBatch "search candidate IDs must be unique")
  /-- Two reservations of searches have one identifier. -/
  | reservations (content content' : Search.ReservationContent) (id : ContractId)
      (hplanned : Planned challenge budget content) (hplanned' : Planned challenge budget content')
      (hne : content ≠ content') (hid : Search.reservationId content = .ok id)
      (hid' : Search.reservationId content' = .ok id) :
      IsCollision challenge budget
        (.search (.validationError .budgetLedger "budget reservations must be unique"))

/-! ## Books -/

/-- The entries that account for the events of a ledger. -/
structure Books (challenge : PublicChallenge) (budget : BudgetLimits) (ledger : BudgetLedger)
    (entries : List Entry) : Prop where
  limits : ledger.limits = budget
  keys : (ledger.events.map fun e => e.operationKey) = entries.map fun entry => entry.operation.key challenge
  lines : (ledger.events.map fun e => e.line) = entries.map Entry.line
  nodup : (entries.map Entry.operation).Nodup

variable {challenge : PublicChallenge} {budget : BudgetLimits} {ledger ledger' : BudgetLedger}
  {entries : List Entry}

theorem books_empty : Books challenge budget (.empty budget) [] := ⟨rfl, rfl, rfl, List.nodup_nil⟩

/-- Entries of one ledger with one key are one entry. -/
theorem Books.keys_nodup (h : Books challenge budget ledger entries) :
    (entries.map fun entry => entry.operation.key challenge).Nodup := h.keys ▸ ledger.operationsUnique

theorem nodup_contents (events : List BudgetEvent)
    (h : events.map (fun item => item.sequence) = List.range' 1 events.length) :
    (events.map BudgetEvent.toEventContent).Nodup := by
  refine List.Nodup.of_map EventContent.sequence ?_
  rw [List.map_map]
  exact h ▸ List.nodup_range'

/-- How a charge ends. -/
def Paid (challenge : PublicChallenge) (budget : BudgetLimits) (ledger : BudgetLedger) (entries : List Entry)
    (entry : Entry) : Option BudgetLedger → Prop
  | none => ¬Within budget (ledger.usage + entry.cost)
  | some ledger' => Books challenge budget ledger' (entries ++ [entry]) ∧
      ledger'.usage = ledger.usage + entry.cost

theorem ends_reserve? (h : Books challenge budget ledger entries) (entry : Entry)
    (hfresh : entry.operation ∉ entries.map Entry.operation) :
    Imp.Ends (Paid challenge budget ledger entries entry) (IsCollision challenge budget)
      (ledger.reserve? entry.operation.kind (entry.operation.parts challenge) entry.action
        entry.cost.actionCost entry.cost.worldCost entry.cost.latencyUnits) := by
  have hcharge := charge_reserve? ledger (entry.operation.parts challenge) entry.action entry.tariff
  have hnodup : ((entries ++ [entry]).map Entry.operation).Nodup := by
    rw [List.map_append, List.map_singleton]
    exact h.nodup.append (List.nodup_singleton _) (List.disjoint_singleton.mpr hfresh)
  have hkeys : ∀ e : BudgetEvent, e.operationKey = entry.operation.key challenge →
      ((ledger.events ++ [e]).map fun e => e.operationKey) =
        (entries ++ [entry]).map fun entry => entry.operation.key challenge := by
    intro e he
    rw [List.map_append, List.map_append, h.keys, List.map_singleton, List.map_singleton, he]
  generalize ledger.reserve? entry.operation.kind _ _ _ _ _ = result at hcharge
  cases hcharge with
  | appended e hcontent hlimits hevents =>
      refine Imp.ends_ok ⟨⟨hlimits.trans h.limits, ?_, ?_, hnodup⟩, ?_⟩
      · rw [hevents]
        exact hkeys e (congrArg EventContent.operationKey hcontent)
      · rw [hevents, List.map_append, List.map_append, h.lines, List.map_singleton, List.map_singleton,
          hcontent]
        rfl
      · rw [BudgetLedger.usage, hevents, usage_append, hcontent]
        rfl
  | exceeded hexceeded => exact Imp.ends_ok (h.limits ▸ hexceeded)
  | repeated e hcontent hrepeated =>
      refine Imp.ends_error (.events _ ((entries ++ [entry]).map Entry.operation) hnodup ?_ (nodup_contents _ ?_) hrepeated)
      · rw [hkeys e (congrArg EventContent.operationKey hcontent), List.map_map]
        rfl
      · rw [List.map_append, ledger.sequences, List.length_append, List.length_singleton,
          List.range'_concat, List.map_singleton, hcontent, Nat.one_mul, Nat.add_comm 1]

/-! ## Planning and executing -/

/-- What the refused attempt would have added. -/
def BudgetExhaustion.delta (x : BudgetExhaustion) : BudgetUsage :=
  ⟨x.actionCostDelta, x.worldCostDelta, x.latencyUnitsDelta⟩

/-- What planning an action costs. -/
def planCost : BudgetUsage := ⟨0, 0, 1⟩

/-- What executing an action costs. -/
def executionCost (action : PublicAction) (inWorld : Bool) : BudgetUsage :=
  if inWorld then ⟨action.actionCost, 1, action.actionCost + 2⟩ else ⟨action.actionCost, 0, action.actionCost⟩

/-- What is charged for an execution. -/
def executionEntries (execute world : Operation) (action : PublicAction) (inWorld : Bool) : List Entry :=
  ⟨execute, action⟩ :: if inWorld then [⟨world, action⟩] else []

theorem ends_chargePlan (h : Books challenge budget ledger entries) (op : Operation) (hkind : op.kind = .plan)
    (action : PublicAction) (hfresh : op ∉ entries.map Entry.operation) :
    Imp.Ends
      (Imp.Ends (fun ledger' => Books challenge budget ledger' (entries ++ [⟨op, action⟩]) ∧
          ledger'.usage = ledger.usage + planCost)
        (fun x => x = .ofPlan ledger.usage action ∧ ¬Within budget (ledger.usage + x.delta)))
      (IsCollision challenge budget) (chargePlan ledger (op.parts challenge) action) := by
  have hreserve := ends_reserve? h ⟨op, action⟩ hfresh
  have hcost : (Entry.mk op action).cost = planCost := by rw [Entry.cost, hkind, planCost]
  rw [hcost] at hreserve
  change Imp.Ends _ _ (ledger.reserve? op.kind _ _ 0 0 1) at hreserve
  rw [hkind] at hreserve
  unfold chargePlan
  refine hreserve.bind fun result hresult => ?_
  cases result with
  | none =>
      rw [Paid, hcost] at hresult
      exact Imp.ends_ok (Imp.ends_error ⟨rfl, hresult⟩)
  | some ledger' => exact Imp.ends_ok (Imp.ends_ok ⟨hresult.1, hcost ▸ hresult.2⟩)

theorem ends_chargeExecution (h : Books challenge budget ledger entries) (execute world : Operation)
    (hexecute : execute.kind = .action) (hworld : world.kind = .world)
    (hparts : world.parts challenge = execute.parts challenge) (hne : world ≠ execute) (action : PublicAction)
    (inWorld : Bool) (hfresh : execute ∉ entries.map Entry.operation)
    (hfresh' : world ∉ entries.map Entry.operation) :
    Imp.Ends
      (Imp.Ends (fun ledger' =>
          Books challenge budget ledger' (entries ++ executionEntries execute world action inWorld) ∧
          ledger'.usage = ledger.usage + executionCost action inWorld)
        (fun x => (x = .ofAction ledger.usage action ∨
          inWorld = true ∧ x = .ofActionWorld ledger.usage action) ∧
          ¬Within budget (ledger.usage + x.delta)))
      (IsCollision challenge budget)
      (chargeExecution ledger (execute.parts challenge) action inWorld) := by
  have haction : (Entry.mk execute action).cost = ⟨action.actionCost, 0, action.actionCost⟩ := by
    rw [Entry.cost, hexecute]
  have htwo : (Entry.mk world action).cost = ⟨0, 1, 2⟩ := by rw [Entry.cost, hworld]
  have hreserve := ends_reserve? h ⟨execute, action⟩ hfresh
  rw [haction] at hreserve
  change Imp.Ends _ _ (ledger.reserve? execute.kind _ _ action.actionCost 0 action.actionCost) at hreserve
  rw [hexecute] at hreserve
  unfold chargeExecution
  refine hreserve.bind fun result hresult => ?_
  cases result with
  | none =>
      rw [Paid, haction] at hresult
      exact Imp.ends_ok (Imp.ends_error ⟨.inl rfl, hresult⟩)
  | some actionProposed =>
      obtain ⟨hbooks, husage⟩ := hresult
      rw [haction] at husage
      cases inWorld with
      | false => exact Imp.ends_ok (Imp.ends_ok ⟨hbooks, husage⟩)
      | true =>
          have hfresh'' : world ∉ (entries ++ [Entry.mk execute action]).map Entry.operation := by
            rw [List.map_append, List.mem_append, not_or]
            exact ⟨hfresh', fun hmem => hne (List.mem_singleton.mp hmem)⟩
          have hreserve' := ends_reserve? hbooks ⟨world, action⟩ hfresh''
          rw [htwo] at hreserve'
          change Imp.Ends _ _ (actionProposed.reserve? world.kind (world.parts challenge) _ 0 1 2) at hreserve'
          rw [hworld, hparts] at hreserve'
          have hsum : ledger.usage + BudgetUsage.mk action.actionCost 0 action.actionCost +
              BudgetUsage.mk 0 1 2 = ledger.usage + executionCost action true := BudgetUsage.add_assoc _ _ _
          refine hreserve'.bind fun result' hresult' => ?_
          cases result' with
          | none =>
              refine Imp.ends_ok (Imp.ends_error ⟨.inr ⟨rfl, rfl⟩, fun hwithin => hresult' ?_⟩)
              rw [htwo, husage, hsum]
              exact hwithin
          | some proposed =>
              obtain ⟨hbooks', husage'⟩ := hresult'
              rw [List.append_assoc] at hbooks'
              rw [htwo, husage, hsum] at husage'
              exact Imp.ends_ok (Imp.ends_ok ⟨hbooks', husage'⟩)

end StateWeaver.StateChainBench
