import StateWeaver.StateChainBench.Systems

/-!
# What a charge does

A charge that fits is appended to the ledger, unless its identifiers were used before; one that does not
fit leaves the ledger as it is.
-/

namespace StateWeaver.StateChainBench

open Contracts

/-! ## Use -/

instance : Add BudgetUsage where
  add u v := ⟨u.actionCost + v.actionCost, u.worldCost + v.worldCost, u.latencyUnits + v.latencyUnits⟩

/-- Whether an amount of use is within the limits. -/
structure Within (limits : BudgetLimits) (usage : BudgetUsage) : Prop where
  actionCost : usage.actionCost ≤ limits.maxActionCost
  worldCost : usage.worldCost ≤ limits.maxWorldCost
  latencyUnits : usage.latencyUnits ≤ limits.maxLatencyUnits

theorem fits_eq_true {limits : BudgetLimits} {u : BudgetUsage} : fits limits u = true ↔ Within limits u := by
  rw [fits, Bool.and_eq_true, Bool.and_eq_true, decide_eq_true_eq, decide_eq_true_eq, decide_eq_true_eq]
  exact ⟨fun h => ⟨h.1.1, h.1.2, h.2⟩, fun h => ⟨⟨h.actionCost, h.worldCost⟩, h.latencyUnits⟩⟩

theorem Within.of_add {limits : BudgetLimits} {u v : BudgetUsage} (h : Within limits (u + v)) :
    Within limits u :=
  ⟨le_trans (Nat.le_add_right _ _) h.actionCost, le_trans (Nat.le_add_right _ _) h.worldCost,
    le_trans (Nat.le_add_right _ _) h.latencyUnits⟩

theorem BudgetUsage.add_assoc (u v w : BudgetUsage) : u + v + w = u + (v + w) := by
  change BudgetUsage.mk _ _ _ = BudgetUsage.mk _ _ _
  rw [BudgetUsage.mk.injEq]
  exact ⟨Nat.add_assoc _ _ _, Nat.add_assoc _ _ _, Nat.add_assoc _ _ _⟩

theorem BudgetUsage.add_zero (u : BudgetUsage) : u + {} = u := rfl

/-! ## Identifiers of events -/

/-- The checks that a charge of an action passes. -/
structure Tariff (kind : BudgetEventKind) (actionCost worldCost latencyUnits : Nat) : Prop where
  latency : 1 ≤ latencyUnits ∧ latencyUnits < 1000000000
  cost : match kind with
    | .plan => actionCost = 0 ∧ worldCost = 0
    | .action => actionCost ≠ 0 ∧ worldCost = 0
    | .world => actionCost = 0 ∧ worldCost ≠ 0
  bounded : actionCost < 1000000000 ∧ worldCost < 1000000000

theorem tariff_plan : Tariff .plan 0 0 1 := ⟨by decide, by decide, by decide⟩

theorem tariff_action (action : PublicAction) : Tariff .action action.actionCost 0 action.actionCost := by
  obtain ⟨hlower, hupper⟩ := action.costInRange
  exact ⟨⟨hlower, by omega⟩, ⟨by omega, rfl⟩, by omega⟩

theorem tariff_world : Tariff .world 0 1 2 := ⟨by decide, by decide, by decide⟩

variable [Sha256]

theorem exists_budgetEventId (content : EventContent) (hsequence : content.sequence < 1000000000)
    (haction : content.actionCost < 1000000000) (hworld : content.worldCost < 1000000000)
    (hlatency : content.latencyUnits < 1000000000) : ∃ eventId, budgetEventId content = .ok eventId := by
  let json := Writable.mapping
    [("sequence", .number content.sequence hsequence), ("kind", .text content.kind.value),
      ("operation_key", .text content.operationKey.val),
      ("action_token", content.actionToken.elim .none_ fun token => .text token.val),
      ("action_cost", .number content.actionCost haction), ("world_cost", .number content.worldCost hworld),
      ("latency_units", .number content.latencyUnits hlatency)] (by simp)
  have hdigest : digestOf content.toValue = .ok json.digest := by
    refine Writable.digestOf_of_jsonReady_eq ?_
    cases htoken : content.actionToken <;>
      simp only [EventContent.toValue, htoken, json, Writable.json_mapping, Writable.json_number,
        Writable.json_text, Writable.json_none, Option.elim, List.map_cons, List.map_nil, Value.ofJson,
        Value.ofEntries, jsonReady, jsonReadyEntries]
  rw [budgetEventId, hdigest]
  exact ⟨_, rfl⟩

/-! ## Charges -/

/-- The use that an event accounts for. -/
def EventContent.cost (content : EventContent) : BudgetUsage :=
  ⟨content.actionCost, content.worldCost, content.latencyUnits⟩

theorem usage_append (events : List BudgetEvent) (e : BudgetEvent) :
    usage (events ++ [e]) = usage events + e.toEventContent.cost := by
  simp only [usage, List.map_append, List.map_singleton, List.sum_append, List.sum_singleton]
  rfl

theorem BudgetLedger.within (ledger : BudgetLedger) : Within ledger.limits ledger.usage :=
  fits_eq_true.mp ledger.withinLimits

theorem BudgetEvent.latencyPositive (e : BudgetEvent) : 1 ≤ e.latencyUnits := by
  have hshape := e.shape
  rw [eventShape, Imp.check_bind_eq_ok, Imp.require_eq_ok] at hshape
  exact hshape.1.2

theorem length_le_latencyUnits (events : List BudgetEvent) :
    events.length ≤ (usage events).latencyUnits := by
  induction events with
  | nil => exact le_refl 0
  | cons e events ih =>
      change events.length + 1 ≤ ((e :: events).map fun item => item.latencyUnits).sum
      rw [List.map_cons, List.sum_cons, Nat.add_comm]
      exact Nat.add_le_add e.latencyPositive ih

/-- A ledger is not longer than its limit for latency. -/
theorem BudgetLedger.length_le (ledger : BudgetLedger) : ledger.events.length ≤ 10000000 :=
  le_trans (length_le_latencyUnits _) (le_trans ledger.within.latencyUnits ledger.limits.inRange.2.2)

theorem eventShape_of_tariff {kind : BudgetEventKind} {actionCost worldCost latencyUnits sequence : Nat}
    (h : Tariff kind actionCost worldCost latencyUnits) (hsequence : 1 ≤ sequence) (parts : List String)
    (token : ActionToken) :
    eventShape ⟨sequence, kind, operation kind parts, some token, actionCost, worldCost, latencyUnits⟩ =
      .ok () := by
  have hcost := h.cost
  have htag : (operation kind parts).val.toList.take kind.prefix_.toList.length = kind.prefix_.toList := by
    rw [operation, toList_taggedDigits, List.take_left]
  rw [eventShape, Imp.check_bind_eq_ok, Imp.check_bind_eq_ok, Imp.require_eq_ok, Imp.require_eq_ok]
  refine ⟨⟨hsequence, h.latency.1⟩, htag, ?_⟩
  cases kind with
  | plan => exact Imp.require_eq_ok.mpr hcost
  | action => exact Imp.require_eq_ok.mpr ⟨nofun, hcost⟩
  | world => exact Imp.require_eq_ok.mpr hcost

/-- An event with a proper tariff is created. -/
theorem exists_event {kind : BudgetEventKind} {actionCost worldCost latencyUnits : Nat}
    (h : Tariff kind actionCost worldCost latencyUnits) (sequence : Nat)
    (hsequence : 1 ≤ sequence ∧ sequence < 1000000000) (parts : List String) (token : ActionToken) :
    let content : EventContent :=
      ⟨sequence, kind, operation kind parts, some token, actionCost, worldCost, latencyUnits⟩
    ∃ e : BudgetEvent, e.toEventContent = content ∧ budgetEventId content = .ok e.eventId ∧
      BudgetEvent.create e.eventId content = .ok e := by
  intro content
  obtain ⟨eventId, hid⟩ := exists_budgetEventId content hsequence.2 h.bounded.1 h.bounded.2 h.latency.2
  have hshape := eventShape_of_tariff h hsequence.1 parts token
  refine ⟨⟨content, eventId, hshape, hid⟩, rfl, hid, ?_⟩
  rw [BudgetEvent.create]
  split
  · next e he =>
      rw [hshape] at he
      cases he
  · split
    · next e he =>
        rw [hid] at he
        cases he
    · next expected hexpected =>
        obtain rfl := Except.ok.inj (hid.symm.trans hexpected)
        rw [dif_pos rfl]

/-- How a charge ends: it is appended to the ledger, exceeds the limits, or its identifiers were used. -/
inductive Charge (ledger : BudgetLedger) (content : EventContent) : Except Exc (Option BudgetLedger) → Prop
  | appended {ledger' : BudgetLedger} (e : BudgetEvent) (hcontent : e.toEventContent = content)
      (hlimits : ledger'.limits = ledger.limits) (hevents : ledger'.events = ledger.events ++ [e]) :
      Charge ledger content (.ok (some ledger'))
  | exceeded (h : ¬Within ledger.limits (ledger.usage + content.cost)) : Charge ledger content (.ok none)
  | repeated (e : BudgetEvent) (hcontent : e.toEventContent = content)
      (h : ¬(((ledger.events ++ [e]).map BudgetEvent.eventId).Nodup ∧
        ((ledger.events ++ [e]).map fun item => item.operationKey).Nodup)) :
      Charge ledger content (.error (.eventsNotUnique (ledger.events ++ [e])))

/-- A reservation creates its event, checks the limits and then the ledger. -/
theorem reserve_eq {ledger : BudgetLedger} {kind : BudgetEventKind} {key : OperationKey}
    {token : Option ActionToken} {actionCost worldCost latencyUnits : Nat} {e : BudgetEvent}
    (hid : budgetEventId ⟨ledger.events.length + 1, kind, key, token, actionCost, worldCost, latencyUnits⟩ =
      .ok e.eventId)
    (hcreate : BudgetEvent.create e.eventId
      ⟨ledger.events.length + 1, kind, key, token, actionCost, worldCost, latencyUnits⟩ = .ok e) :
    ledger.reserve kind key token actionCost worldCost latencyUnits =
      if fits ledger.limits (ledger.usage + e.toEventContent.cost) = true then
        BudgetLedger.create ledger.limits (ledger.events ++ [e])
      else .error .budgetExceeded := by
  rw [BudgetLedger.reserve]
  simp only [hid]
  change (BudgetEvent.create e.eventId _ >>= _) = _
  rw [hcreate]
  change (Imp.require (fits ledger.limits (ledger.usage + e.toEventContent.cost) = true) _ >>= _) = _
  rw [Imp.require]
  split_ifs
  · rfl
  · rfl

theorem charge_reserve? (ledger : BudgetLedger) {kind : BudgetEventKind} (parts : List String)
    (action : PublicAction) {actionCost worldCost latencyUnits : Nat}
    (h : Tariff kind actionCost worldCost latencyUnits) :
    Charge ledger ⟨ledger.events.length + 1, kind, operation kind parts, some action.token, actionCost,
      worldCost, latencyUnits⟩ (ledger.reserve? kind parts action actionCost worldCost latencyUnits) := by
  have hlength := ledger.length_le
  obtain ⟨e, hcontent, hid, hcreate⟩ := exists_event h (ledger.events.length + 1)
    ⟨Nat.le_add_left 1 _, by omega⟩ parts action.token
  have hreserve := reserve_eq hid hcreate
  unfold BudgetLedger.reserve?
  by_cases hfits : fits ledger.limits (ledger.usage + e.toEventContent.cost) = true
  · have hsequences : (ledger.events ++ [e]).map (fun item => item.sequence) =
        List.range' 1 (ledger.events ++ [e]).length := by
      rw [List.map_append, ledger.sequences, List.length_append, List.length_singleton, List.range'_concat,
        List.map_singleton, hcontent, Nat.one_mul, Nat.add_comm 1]
    have hlimits : fits ledger.limits (usage (ledger.events ++ [e])) = true := by rwa [usage_append]
    rw [if_pos hfits, BudgetLedger.create, dif_pos hsequences] at hreserve
    by_cases hunique : ((ledger.events ++ [e]).map BudgetEvent.eventId).Nodup ∧
        ((ledger.events ++ [e]).map fun item => item.operationKey).Nodup
    · rw [dif_pos hunique, dif_pos hlimits] at hreserve
      simp only [hreserve]
      exact .appended e hcontent rfl rfl
    · rw [dif_neg hunique] at hreserve
      simp only [hreserve]
      exact .repeated e hcontent hunique
  · rw [if_neg hfits] at hreserve
    simp only [hreserve]
    exact .exceeded fun hwithin => hfits (fits_eq_true.mpr (hcontent ▸ hwithin))

end StateWeaver.StateChainBench
