import StateWeaver.Search.Controller

/-!
# What a ledger admits

A ledger stays within each of its limits, and reserving appends one reservation, bound to its content.
-/

namespace StateWeaver.Search

open Contracts

/-- Whether an amount of use is within every limit. -/
structure Within (limits : BudgetLimits) (usage : BudgetUsage) : Prop where
  llmCalls : usage.llmCalls ≤ limits.maxLlmCalls
  targetRequests : usage.targetRequests ≤ limits.maxTargetRequests
  writeRequests : usage.writeRequests ≤ limits.maxWriteRequests
  cpuSeconds : usage.cpuSeconds ≤ limits.maxCpuSeconds
  worlds : ∀ tier, usage.tierCount tier ≤ limits.tierLimit tier

/-- The use that a reservation adds. -/
def BudgetUsage.plus (u : BudgetUsage) (tier : WorldTier) (cost : PromotionCost) : BudgetUsage where
  llmCalls := u.llmCalls + cost.llmCalls
  targetRequests := u.targetRequests + cost.targetRequests
  writeRequests := u.writeRequests + cost.writeRequests
  cpuSeconds := u.cpuSeconds + cost.cpuSeconds
  ghostWorlds := u.ghostWorlds + if tier = .ghost then 1 else 0
  replayWorlds := u.replayWorlds + if tier = .replay then 1 else 0
  simulatedWorlds := u.simulatedWorlds + if tier = .simulated then 1 else 0
  materializedWorlds := u.materializedWorlds + if tier = .materialized then 1 else 0

theorem BudgetUsage.tierCount_plus (u : BudgetUsage) (tier item : WorldTier) (cost : PromotionCost) :
    (u.plus tier cost).tierCount item = u.tierCount item + if tier = item then 1 else 0 := by
  cases item <;> rfl

theorem fits_none {limits : BudgetLimits} {u : BudgetUsage} :
    fits limits u none = true ↔ Within limits u := by
  simp only [fits, Option.map_none, Option.getD_none, Nat.add_zero, Bool.and_eq_true,
    decide_eq_true_eq, List.all_eq_true, reduceCtorEq, if_false]
  constructor
  · rintro ⟨⟨⟨⟨hllm, htarget⟩, hwrite⟩, hcpu⟩, htiers⟩
    exact ⟨hllm, htarget, hwrite, hcpu, fun tier => htiers tier tier.mem_all⟩
  · intro h
    exact ⟨⟨⟨⟨h.llmCalls, h.targetRequests⟩, h.writeRequests⟩, h.cpuSeconds⟩, fun tier _ => h.worlds tier⟩

theorem fits_some {limits : BudgetLimits} {u : BudgetUsage} {tier : WorldTier} {cost : PromotionCost} :
    fits limits u (some (tier, cost)) = true ↔ Within limits (u.plus tier cost) := by
  simp only [fits, Option.map_some, Option.getD_some, Bool.and_eq_true, decide_eq_true_eq,
    List.all_eq_true, Option.some.injEq]
  constructor
  · rintro ⟨⟨⟨⟨hllm, htarget⟩, hwrite⟩, hcpu⟩, htiers⟩
    refine ⟨hllm, htarget, hwrite, hcpu, fun item => ?_⟩
    rw [BudgetUsage.tierCount_plus]
    exact htiers item item.mem_all
  · intro h
    refine ⟨⟨⟨⟨h.llmCalls, h.targetRequests⟩, h.writeRequests⟩, h.cpuSeconds⟩, fun item _ => ?_⟩
    rw [← BudgetUsage.tierCount_plus]
    exact h.worlds item

variable [Sha256] {ledger ledger' : BudgetLedger} {candidateId : ContractId} {tier : WorldTier}
  {cost : PromotionCost}

theorem usage_append (reservations : List BudgetReservation) (r : BudgetReservation) :
    usage (reservations ++ [r]) = (usage reservations).plus r.targetTier r.cost := by
  simp only [usage, BudgetUsage.plus, List.map_append, List.map_singleton, List.sum_append,
    List.sum_singleton, List.countP_append, List.countP_singleton, decide_eq_true_eq]

/-- What fits after more reservations fits before them. -/
theorem Within.of_append {limits : BudgetLimits} {reservations new : List BudgetReservation}
    (h : Within limits ((usage (reservations ++ new)).plus tier cost)) :
    Within limits ((usage reservations).plus tier cost) := by
  simp only [usage, List.map_append, List.sum_append, List.countP_append] at h
  obtain ⟨hllm, htarget, hwrite, hcpu, hworlds⟩ := h
  simp only [BudgetUsage.plus] at hllm htarget hwrite hcpu
  refine ⟨?_, ?_, ?_, ?_, fun item => ?_⟩
  · exact le_trans (Nat.add_le_add_right (Nat.le_add_right _ _) _) hllm
  · exact le_trans (Nat.add_le_add_right (Nat.le_add_right _ _) _) htarget
  · exact le_trans (Nat.add_le_add_right (Nat.le_add_right _ _) _) hwrite
  · exact le_trans (Nat.add_le_add_right (Nat.le_add_right _ _) _) hcpu
  · have hworld := hworlds item
    rw [BudgetUsage.tierCount_plus] at hworld ⊢
    refine le_trans (Nat.add_le_add_right ?_ _) hworld
    cases item <;> exact Nat.le_add_right _ _

/-- The pairs of a candidate and a tier that are reserved. -/
def BudgetLedger.keys (ledger : BudgetLedger) : List (ContractId × WorldTier) :=
  ledger.reservations.map fun item => (item.candidateId, item.targetTier)

theorem BudgetLedger.within (ledger : BudgetLedger) :
    Within ledger.limits (usage ledger.reservations) := fits_none.mp ledger.withinLimits

theorem hasReservation_eq_true :
    ledger.hasReservation candidateId tier = true ↔ (candidateId, tier) ∈ ledger.keys := by
  rw [BudgetLedger.hasReservation, List.any_eq_true, BudgetLedger.keys, List.mem_map]
  refine exists_congr fun item => and_congr_right fun _ => ?_
  rw [Bool.and_eq_true, decide_eq_true_eq, decide_eq_true_eq, Prod.mk.injEq]

theorem canReserve_eq_true : ledger.canReserve tier cost candidateId = true ↔
    (candidateId, tier) ∉ ledger.keys ∧
      Within ledger.limits ((usage ledger.reservations).plus tier cost) := by
  rw [BudgetLedger.canReserve, Bool.and_eq_true, Bool.not_eq_true', ← Bool.not_eq_true,
    hasReservation_eq_true, fits_some]

theorem BudgetReservation.create_eq_ok {id : ContractId} {content : ReservationContent}
    {r : BudgetReservation} (h : BudgetReservation.create id content = .ok r) :
    r.toReservationContent = content ∧ r.reservationId = id := by
  rw [BudgetReservation.create] at h
  split at h
  · cases h
  · split_ifs at h
    cases h
    exact ⟨rfl, rfl⟩

theorem BudgetLedger.create_eq_ok {limits : BudgetLimits} {reservations : List BudgetReservation}
    (h : BudgetLedger.create limits reservations = .ok ledger) :
    ledger.limits = limits ∧ ledger.reservations = reservations := by
  rw [BudgetLedger.create] at h
  split_ifs at h
  cases h
  exact ⟨rfl, rfl⟩

/-- Reserving appends one reservation. -/
theorem reserve_eq_ok (h : ledger.reserve candidateId tier cost = .ok ledger') :
    ∃ r : BudgetReservation,
      r.toReservationContent = ⟨candidateId, tier, ledger.reservations.length + 1, cost⟩ ∧
      ledger'.limits = ledger.limits ∧ ledger'.reservations = ledger.reservations ++ [r] := by
  rw [BudgetLedger.reserve, Imp.check_bind_eq_ok] at h
  obtain ⟨-, h⟩ := h
  obtain ⟨id, -, h⟩ := Imp.except_bind_eq_ok.mp h
  obtain ⟨r, hr, h⟩ := Imp.except_bind_eq_ok.mp h
  obtain ⟨hlimits, hreservations⟩ := BudgetLedger.create_eq_ok h
  exact ⟨r, (BudgetReservation.create_eq_ok hr).1, hlimits, hreservations⟩

/-- The exceptions of a search that say that its input was not accepted: not a missing key, and not a
result that fails its own validation. -/
def Exc.IsRejection (e : Exc) : Prop :=
  e ≠ .keyError ∧ ∀ message, e ≠ .validationError .searchResult message

omit [Sha256] in
theorem isRejection_valueError {message : String} : (Exc.valueError message).IsRejection :=
  ⟨nofun, nofun⟩

omit [Sha256] in
theorem isRejection_validationError {model : Model} {message : String} (h : model ≠ .searchResult) :
    (Exc.validationError model message).IsRejection :=
  ⟨nofun, fun _ heq => h (Exc.validationError.inj heq).1⟩

omit [Sha256] in
theorem raisesOnly_mapError {α : Type} (x : Except String α) :
    Imp.RaisesOnly Exc.IsRejection (x.mapError Exc.valueError) := by
  cases x with
  | ok a => exact Imp.raisesOnly_ok
  | error e => exact Imp.raisesOnly_error isRejection_valueError

theorem raisesOnly_reserve : Imp.RaisesOnly Exc.IsRejection (ledger.reserve candidateId tier cost) := by
  refine Imp.raisesOnly_bind (Imp.raisesOnly_require isRejection_valueError) fun _ _ => ?_
  refine Imp.raisesOnly_bind (raisesOnly_mapError _) fun id _ => ?_
  refine Imp.raisesOnly_bind ?_ fun r _ => ?_
  · rw [BudgetReservation.create]
    split
    · exact Imp.raisesOnly_error (isRejection_validationError (by decide))
    · split_ifs
      · exact Imp.raisesOnly_ok
      · exact Imp.raisesOnly_error (isRejection_validationError (by decide))
  · rw [BudgetLedger.create]
    split_ifs
    · exact Imp.raisesOnly_ok
    · exact Imp.raisesOnly_error (isRejection_validationError (by decide))
    · exact Imp.raisesOnly_error (isRejection_validationError (by decide))
    · exact Imp.raisesOnly_error (isRejection_validationError (by decide))

end StateWeaver.Search
