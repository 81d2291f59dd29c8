import StateWeaver.Lib.FloatMagnitude
import StateWeaver.Search.Total
import StateWeaver.StateChainBench.Tiered

/-!
# Scores of the tiered solver

The scores that the tiered solver computes are in the ranges that the models of a search admit, so every
candidate is created and passes the gates, and a search of them decides on priorities in range.
-/

namespace StateWeaver.StateChainBench

open Contracts

/-! ## Quality -/

/-- A score from 1/32 to 1. -/
structure IsQuality (q : Float) : Prop where
  spans : Py.Spans q (-5) 0
  le_one : q ≤ 1.0

theorem isQuality_half : IsQuality 0.5 := ⟨by decide +kernel, by decide +kernel⟩

theorem isQuality_unknown : IsQuality 0.05 := ⟨by decide +kernel, by decide +kernel⟩

theorem isQuality_least : IsQuality 0.1 := ⟨by decide +kernel, by decide +kernel⟩

theorem isQuality_one : IsQuality 1.0 := ⟨by decide +kernel, by decide +kernel⟩

theorem one_sub_le_one : ((List.range 33).all fun m => (List.range (m + 1)).all fun r =>
    decide (1.0 - Float.ofNat r / Float.ofNat (m + 1) ≤ 1.0)) = true := by decide +kernel

theorem isQuality_quality (challenge : PublicChallenge) {distance : Option Nat}
    (h : ∀ steps, distance = some steps → steps ≤ challenge.maxChainLength) :
    IsQuality (quality challenge distance) := by
  cases distance with
  | none => exact isQuality_unknown
  | some steps =>
      cases steps with
      | zero => exact isQuality_one
      | succ steps =>
          have hmax := challenge.lengthInRange.2
          have hle : 1.0 - Float.ofNat (steps + 1) / Float.ofNat (challenge.maxChainLength + 1) ≤ 1.0 := by
            have hrow := List.all_eq_true.mp one_sub_le_one challenge.maxChainLength
              (List.mem_range.mpr (Nat.lt_succ_of_le hmax))
            exact of_decide_eq_true (List.all_eq_true.mp hrow (steps + 1)
              (List.mem_range.mpr (Nat.lt_succ_of_le (h _ rfl))))
          change IsQuality (if 0.1 < 1.0 - Float.ofNat (steps + 1) / Float.ofNat (challenge.maxChainLength + 1)
            then _ else 0.1)
          split_ifs with hlower
          · have htenth : Py.Spans 0.1 (-4) (-4) := by decide +kernel
            have hone : Py.Spans 1.0 0 0 := by decide +kernel
            exact ⟨(htenth.between (Py.float_le_of_lt hlower) hle hone).mono (by decide) (le_refl 0), hle⟩
          · exact isQuality_least

/-! ## Candidates -/

/-- The normalized cost of an action is a positive score. -/
theorem normalizedCost_inRange : ((List.range' 1 16).all fun cost =>
    decide (0.001 ≤ Float.ofNat cost / 16.0 ∧ Float.ofNat cost / 16.0 ≤ 1.0 ∧
      Py.Spans (Float.ofNat cost / 16.0) (-4) 0)) = true := by decide +kernel

theorem normalizedCost_spec (action : PublicAction) : 0.001 ≤ Float.ofNat action.actionCost / 16.0 ∧
    Float.ofNat action.actionCost / 16.0 ≤ 1.0 ∧ Py.Spans (Float.ofNat action.actionCost / 16.0) (-4) 0 := by
  obtain ⟨hlower, hupper⟩ := action.costInRange
  exact of_decide_eq_true (List.all_eq_true.mp normalizedCost_inRange action.actionCost
    (List.mem_range'_1.mpr ⟨hlower, by omega⟩))

/-- The priority of a candidate with one quality for most of its scores. -/
theorem priority_inRange {q c : Float} (hq : IsQuality q) (hc : Py.Spans c (-4) 0) :
    0.0 ≤ q * q * q * q * 1.0 * q * (1.0 + 0.1 * 0.25) / (c * 0.1) ∧
      q * q * q * q * 1.0 * q * (1.0 + 0.1 * 0.25) / (c * 0.1) ≤ 1000000000.0 := by
  have hone : Py.Spans 1.0 0 0 := by decide +kernel
  have htenth : Py.Spans 0.1 (-4) (-4) := by decide +kernel
  have hbonus : Py.Spans (1.0 + 0.1 * 0.25) 0 0 := by decide +kernel
  have hbillion : Py.Spans 1000000000.0 29 29 := by decide +kernel
  have hsquare := hq.spans.mul hq.spans (by decide) (by decide)
  have hcube := hsquare.mul hq.spans (by decide) (by decide)
  have hfourth := hcube.mul hq.spans (by decide) (by decide)
  have hfidelity := hfourth.mul hone (by decide) (by decide)
  have hfifth := hfidelity.mul hq.spans (by decide) (by decide)
  have hnumerator := hfifth.mul hbonus (by decide) (by decide)
  have hdenominator := hc.mul htenth (by decide) (by decide)
  have hpriority := hnumerator.div hdenominator (by decide) (by decide)
  exact ⟨hpriority.nonneg, hpriority.le hbillion (by decide)⟩

variable [Sha256]

theorem exists_scoreSignal {x : Float} (h : 0.0 ≤ x ∧ x ≤ 1.0) :
    ∃ signal, scoreSignal x = .ok signal ∧ signal.val = x := ⟨⟨x, h⟩, dif_pos h, rfl⟩

theorem exists_positiveScoreSignal {x : Float} (h : 0.001 ≤ x ∧ x ≤ 1.0) :
    ∃ signal, positiveScoreSignal x = .ok signal ∧ signal.val = x := ⟨⟨x, h⟩, dif_pos h, rfl⟩

theorem explore_inl {challenge : PublicChallenge} {current : Pending} {actions : List PublicAction}
    {visited : List (Sha256Digest × Finset ActionToken)} {found : List Pending} {steps : Nat}
    (h : explore challenge current actions visited found = .inl steps) : steps = current.depth + 1 := by
  induction actions generalizing visited found with
  | nil => cases h
  | cons action rest ih =>
      simp only [explore] at h
      split_ifs at h
      · exact ih h
      · exact (Sum.inl.inj h).symm
      · exact ih h
      · exact ih h

theorem remainingLoop_le (challenge : PublicChallenge) (pending : List Pending)
    (visited : List (Sha256Digest × Finset ActionToken)) :
    ∀ steps, remainingLoop challenge pending visited = some steps → steps ≤ challenge.maxChainLength := by
  intro steps h
  fun_induction remainingLoop challenge pending visited with
  | case1 => cases h
  | case2 visited current pending hdepth ih => exact ih h
  | case3 visited current pending hdepth found hfound =>
      rw [Option.some.injEq] at h
      rw [← h, explore_inl hfound]
      exact Nat.lt_of_not_le hdepth
  | case4 visited current pending hdepth visited' found hfound ih => exact ih h

theorem minimumRemainingSteps_le (challenge : PublicChallenge) (state : State) (used : Finset ActionToken) :
    ∀ steps, minimumRemainingSteps challenge state used = some steps → steps ≤ challenge.maxChainLength := by
  intro steps h
  rw [minimumRemainingSteps] at h
  split_ifs at h
  · cases h
    exact Nat.zero_le _
  · exact remainingLoop_le challenge _ _ steps h

/-- A candidate of the tiered solver is created, and a search admits it. -/
theorem exists_searchCandidate (system : StateWeaverTieredSystem) (challenge : PublicChallenge) (path : Path)
    (action : PublicAction) {q : Float} (hq : IsQuality q) (preservePathIdentity : Bool) :
    ∃ c, searchCandidate challenge path action q preservePathIdentity = .ok c ∧
      c.candidateId = candidateId challenge path.actionTokens ∧ c.tier = .ghost ∧
      c.promotionCost = { targetRequests := action.actionCost, cpuSeconds := 1 } ∧
      Search.Admissible (searchPolicy system) .replay c := by
  obtain ⟨hlower, hupper, hspan⟩ := normalizedCost_spec action
  obtain ⟨signal, hsignal, hsignalVal⟩ := exists_scoreSignal ⟨hq.spans.nonneg, hq.le_one⟩
  obtain ⟨fidelity, hfidelity, hfidelityVal⟩ := exists_scoreSignal (x := 1.0) (by decide +kernel)
  obtain ⟨uncertainty, huncertainty, huncertaintyVal⟩ := exists_scoreSignal (x := 0.1) (by decide +kernel)
  obtain ⟨cost, hcost, hcostVal⟩ := exists_positiveScoreSignal ⟨hlower, hupper⟩
  obtain ⟨risk, hrisk, hriskVal⟩ := exists_positiveScoreSignal (x := 0.1) (by decide +kernel)
  rw [searchCandidate, hsignal, hfidelity, huncertainty, hcost, hrisk]
  refine ⟨_, rfl, rfl, rfl, rfl, ?_, ?_, ?_⟩
  · refine ⟨rfl, (fun h => by cases h), (fun h => by cases h), (fun h => by cases h), List.forall_mem_nil _, ?_,
      fun _ => rfl, Nat.zero_lt_two, fun h => by cases h⟩
    exact List.length_pos_of_ne_nil action.effects.nonempty
  · simp only [Search.priority, Search.SearchScores.priority, hsignalVal, hfidelityVal, huncertaintyVal,
      hcostVal, hriskVal]
    exact priority_inRange hq hspan
  · have hzero : 0 < 1000000000 := by decide
    have hone : 1 < 1000000000 := by decide
    exact ⟨hzero, lt_of_le_of_lt action.costInRange.2 (by decide), hzero, hone⟩

end StateWeaver.StateChainBench
