import StateWeaver.Contracts.Writable
import StateWeaver.Search.Advance

/-!
# When a search does not raise

Where the gates are passed, the priorities are in range and the numbers are small, all that a search can
raise is that two different reservations have one identifier.
-/

namespace StateWeaver.Search

open Contracts

/-! ## Decisions -/

/-- Whether a candidate passes the gates and has a priority and costs that decisions admit. -/
structure Admissible (policy : BeamSearchPolicy) (targetTier : WorldTier) (c : SearchCandidate) : Prop where
  gates : PassesGates policy c targetTier
  priority : 0.0 ≤ Search.priority policy c ∧ Search.priority policy c ≤ 1000000000.0
  cost : c.promotionCost.llmCalls < 1000000000 ∧ c.promotionCost.targetRequests < 1000000000 ∧
    c.promotionCost.writeRequests < 1000000000 ∧ c.promotionCost.cpuSeconds < 1000000000

theorem exists_decision (id : ContractId) (source target : WorldTier) {disposition : DecisionDisposition}
    {reasons : List ReasonCode} {priority : Float} {reservation dedup : Option ContractId}
    (hpriority : 0.0 ≤ priority ∧ priority ≤ 1000000000.0)
    (hshape : decisionShapeIsCoherent disposition reasons reservation dedup = .ok ()) :
    ∃ decision, SearchDecision.create id source target disposition reasons priority reservation dedup =
      .ok decision := by
  rw [SearchDecision.create, dif_pos hpriority]
  split
  · exact ⟨_, rfl⟩
  · next e he =>
      rw [hshape] at he
      cases he

/-! ## Reservations -/

variable [Sha256]

theorem exists_reservationId (content : ReservationContent) (hsequence : content.sequence < 1000000000)
    (hcost : content.cost.llmCalls < 1000000000 ∧ content.cost.targetRequests < 1000000000 ∧
      content.cost.writeRequests < 1000000000 ∧ content.cost.cpuSeconds < 1000000000) :
    ∃ id, reservationId content = .ok id := by
  obtain ⟨hllm, htarget, hwrite, hcpu⟩ := hcost
  let json := Writable.mapping
    [("candidate_id", .text content.candidateId.val), ("target_tier", .text content.targetTier.value),
      ("sequence", .number content.sequence hsequence),
      ("cost", .mapping
        [("llm_calls", .number content.cost.llmCalls hllm),
          ("target_requests", .number content.cost.targetRequests htarget),
          ("write_requests", .number content.cost.writeRequests hwrite),
          ("cpu_seconds", .number content.cost.cpuSeconds hcpu)] (by simp))] (by simp)
  have hdigest : digestOf content.toValue = .ok json.digest := by
    refine Writable.digestOf_of_jsonReady_eq ?_
    simp only [ReservationContent.toValue, PromotionCost.toValue, json, Writable.json_mapping,
      Writable.json_number, Writable.json_text, List.map_cons, List.map_nil, Value.ofJson, Value.ofEntries,
      jsonReady, jsonReadyEntries]
  rw [reservationId, hdigest]
  exact ⟨_, rfl⟩

/-- A bound for the number of reservations within limits. -/
def BudgetLimits.worlds (limits : BudgetLimits) : Nat :=
  limits.maxGhost + limits.maxReplay + limits.maxSimulated + limits.maxMaterialized

theorem length_eq_worlds (reservations : List BudgetReservation) :
    reservations.length = (usage reservations).ghostWorlds + (usage reservations).replayWorlds +
      (usage reservations).simulatedWorlds + (usage reservations).materializedWorlds := by
  induction reservations with
  | nil => rfl
  | cons r reservations ih =>
      simp only [usage, List.countP_cons, List.length_cons] at ih ⊢
      cases r.targetTier <;> simp <;> omega

variable {ledger ledger' : BudgetLedger} {candidateId : ContractId} {tier : WorldTier} {cost : PromotionCost}

omit [Sha256] in
theorem le_worlds {limits : BudgetLimits} {u : BudgetUsage} (h : Within limits u) :
    u.ghostWorlds + u.replayWorlds + u.simulatedWorlds + u.materializedWorlds ≤ limits.worlds :=
  Nat.add_le_add (Nat.add_le_add (Nat.add_le_add (h.worlds .ghost) (h.worlds .replay)) (h.worlds .simulated))
    (h.worlds .materialized)

theorem BudgetLedger.length_le_worlds (ledger : BudgetLedger) :
    ledger.reservations.length ≤ ledger.limits.worlds := by
  rw [length_eq_worlds]
  exact le_worlds ledger.within

theorem sequence_le_worlds
    (h : Within ledger.limits ((usage ledger.reservations).plus tier cost)) :
    ledger.reservations.length + 1 ≤ ledger.limits.worlds := by
  refine le_trans ?_ (le_worlds h)
  rw [length_eq_worlds]
  cases tier <;> simp [BudgetUsage.plus] <;> omega

theorem exists_reservation {content : ReservationContent} (hsequence : 1 ≤ content.sequence)
    {id : ContractId} (hid : reservationId content = .ok id) :
    ∃ r : BudgetReservation, r.toReservationContent = content ∧ r.reservationId = id ∧
      BudgetReservation.create id content = .ok r := by
  refine ⟨⟨content, id, hsequence, hid⟩, rfl, rfl, ?_⟩
  rw [BudgetReservation.create]
  split
  · next e he =>
      rw [hid] at he
      cases he
  · next expected hexpected =>
      obtain rfl := Except.ok.inj (hid.symm.trans hexpected)
      rw [dif_pos ⟨hsequence, rfl⟩]

/-- A reservation that fits raises only if its identifier is that of an earlier one. -/
theorem raisesOnly_reserve_of_fits (hcan : ledger.canReserve tier cost candidateId = true)
    (hworlds : ledger.limits.worlds < 1000000000)
    (hcost : cost.llmCalls < 1000000000 ∧ cost.targetRequests < 1000000000 ∧
      cost.writeRequests < 1000000000 ∧ cost.cpuSeconds < 1000000000) :
    Imp.RaisesOnly (fun e => e = .validationError .budgetLedger "budget reservations must be unique" ∧
      ∃ r ∈ ledger.reservations,
        reservationId ⟨candidateId, tier, ledger.reservations.length + 1, cost⟩ = .ok r.reservationId)
      (ledger.reserve candidateId tier cost) := by
  obtain ⟨hfresh, hwithin⟩ := canReserve_eq_true.mp hcan
  have hsequence := sequence_le_worlds hwithin
  obtain ⟨id, hid⟩ := exists_reservationId ⟨candidateId, tier, ledger.reservations.length + 1, cost⟩
    (lt_of_le_of_lt hsequence hworlds) hcost
  obtain ⟨r, hcontent, hr, hcreate⟩ := exists_reservation (Nat.le_add_left 1 _) hid
  have hsequences : (ledger.reservations ++ [r]).map (fun item => item.sequence) =
      List.range' 1 (ledger.reservations ++ [r]).length := by
    rw [List.map_append, ledger.sequences, List.length_append, List.length_singleton, List.range'_concat,
      List.map_singleton, hcontent, Nat.one_mul, Nat.add_comm 1]
  have hkeys : ((ledger.reservations ++ [r]).map fun item => (item.candidateId, item.targetTier)).Nodup := by
    rw [List.map_append, List.map_singleton, hcontent]
    exact ledger.keysUnique.append (List.nodup_singleton _) (List.disjoint_singleton.mpr hfresh)
  have hlimits : fits ledger.limits (usage (ledger.reservations ++ [r])) none = true := by
    rw [usage_append, hcontent]
    exact fits_none.mpr hwithin
  rw [BudgetLedger.reserve, Imp.require, if_pos hcan]
  refine Imp.raisesOnly_bind_of_ok (a := id) (by rw [hid]; rfl) ?_
  refine Imp.raisesOnly_bind_of_ok hcreate ?_
  rw [BudgetLedger.create, dif_pos hsequences]
  split_ifs with hunique
  · exact Imp.raisesOnly_ok
  · refine Imp.raisesOnly_error ⟨rfl, ?_⟩
    by_contra hnone
    refine hunique ⟨?_, hkeys⟩
    rw [List.map_append, List.map_singleton]
    refine ledger.idsUnique.append (List.nodup_singleton _) (List.disjoint_singleton.mpr fun hmem => ?_)
    obtain ⟨r', hr', heq⟩ := List.mem_map.mp hmem
    exact hnone ⟨r', hr', by rw [hid, heq, hr]⟩

/-- What a reservation of a search is for: it was there before, or is for a candidate of the batch. -/
def Known (batch : SearchBatch) (ledger : BudgetLedger) (targetTier : WorldTier)
    (content : ReservationContent) : Prop :=
  (∃ r ∈ ledger.reservations, r.toReservationContent = content) ∨
    content.targetTier = targetTier ∧ content.sequence ≤ ledger.limits.worlds ∧
      ∃ c ∈ batch.candidates, content.candidateId = c.candidateId ∧ content.cost = c.promotionCost

/-- The exception for two different reservations with one identifier. -/
def RepeatsReservation (batch : SearchBatch) (ledger : BudgetLedger) (targetTier : WorldTier) (e : Exc) :
    Prop :=
  e = .validationError .budgetLedger "budget reservations must be unique" ∧
    ∃ content content' id, Known batch ledger targetTier content ∧ Known batch ledger targetTier content' ∧
      content ≠ content' ∧ reservationId content = .ok id ∧ reservationId content' = .ok id

/-! ## Phases -/

variable {policy : BeamSearchPolicy} {batch : SearchBatch} {targetTier : WorldTier} {P : Exc → Prop}

omit [Sha256] in
theorem raisesOnly_gates {candidates : List SearchCandidate}
    (h : ∀ c ∈ candidates, PassesGates policy c targetTier) (s : Decisions × List SearchCandidate) :
    Imp.RaisesOnly P (candidates.foldlM (gateStep policy targetTier) s) := by
  refine Imp.raisesOnly_foldlM_of_invariant (I := fun _ => True) trivial (fun _ _ _ _ _ _ => trivial)
    fun c hc s _ => ?_
  rw [gateStep, if_neg (not_not.mpr (gateReasons_eq_nil.mpr (h c hc)))]
  exact Imp.raisesOnly_ok

theorem raisesOnly_ranked_of_seed (hseed : (Nat.toDigits 10 policy.seed).length ≤ 4300)
    (candidates : List SearchCandidate) : Imp.RaisesOnly P (ranked policy candidates) := by
  refine Imp.raisesOnly_bind (Imp.raisesOnly_mapM fun c _ => ?_) fun _ _ => Imp.raisesOnly_ok
  refine Imp.raisesOnly_bind ?_ fun _ _ => Imp.raisesOnly_ok
  let tie := Writable.mapping [("seed", .integer policy.seed hseed), ("candidate_id", .text c.candidateId.val)]
    (by simp)
  have hdigest : digestOf (tieValue policy c) = .ok tie.digest := tie.digestOf_eq
  rw [rankKey, hdigest]
  exact Imp.raisesOnly_ok

omit [Sha256] in
theorem raisesOnly_deduplicate_of_admissible {ranking : List SearchCandidate}
    (h : ∀ c ∈ ranking, Admissible policy targetTier c) (hpromotable : ∀ c ∈ ranking, c.tier ≠ .materialized) :
    Imp.RaisesOnly P (deduplicate policy ranking) := by
  refine Imp.raisesOnly_bind ?_ fun _ _ => Imp.raisesOnly_ok
  refine Imp.raisesOnly_foldlM_of_invariant (I := fun _ => True) trivial (fun _ _ _ _ _ _ => trivial)
    fun c hc s _ => ?_
  obtain ⟨retained, duplicates⟩ := s
  rw [deduplicateStep]
  simp only
  split
  · exact Imp.raisesOnly_ok
  · next winner _ =>
      obtain ⟨target, htarget⟩ : ∃ target, nextTier c.tier = .ok target := by
        cases htier : c.tier with
        | materialized => exact absurd htier (hpromotable c hc)
        | _ => exact ⟨_, rfl⟩
      refine Imp.raisesOnly_bind_of_ok htarget ?_
      have hshape : decisionShapeIsCoherent .prune
          [if costTuple winner ≤ costTuple c then .dominatedByCheaperWorld else .duplicateState] none
          (some winner.candidateId) = .ok () := by
        split_ifs <;> rfl
      obtain ⟨decision, hdecision⟩ := exists_decision c.candidateId c.tier target (h c hc).priority hshape
      exact Imp.raisesOnly_bind_of_ok hdecision Imp.raisesOnly_ok

/-- What the loop that selects keeps. -/
structure Ongoing (batch : SearchBatch) (ledger : BudgetLedger) (targetTier : WorldTier) (s : Selection) :
    Prop where
  limits : s.ledger.limits = ledger.limits
  known : ∀ r ∈ s.ledger.reservations, Known batch ledger targetTier r.toReservationContent

variable {width : Nat} {s s' : Selection} {c : SearchCandidate}

theorem Ongoing.step (hpolicy : policy.width targetTier = .ok width)
    (h : Ongoing batch ledger targetTier s) (hc : c ∈ batch.candidates)
    (hstep : select policy targetTier s c = .ok s') : Ongoing batch ledger targetTier s' := by
  rcases select_eq_ok hpolicy hstep with ⟨reason, decision, -, rfl, -⟩ |
    ⟨-, r, ledger', decision, hcontent, hlimits, hreservations, -, rfl⟩
  · exact ⟨h.limits, h.known⟩
  · refine ⟨hlimits.trans h.limits, fun r' hr' => ?_⟩
    rw [hreservations, List.mem_append, List.mem_singleton] at hr'
    rcases hr' with hr' | rfl
    · exact h.known r' hr'
    · have hlength := ledger'.length_le_worlds
      rw [hreservations, List.length_append, hlimits, h.limits] at hlength
      rw [hcontent]
      exact .inr ⟨rfl, hlength, c, hc, rfl, rfl⟩

theorem raisesOnly_select_of_admissible (hpolicy : policy.width targetTier = .ok width)
    (hworlds : ledger.limits.worlds < 1000000000) (h : Ongoing batch ledger targetTier s)
    (hc : c ∈ batch.candidates) (hadmissible : Admissible policy targetTier c) :
    Imp.RaisesOnly (RepeatsReservation batch ledger targetTier) (select policy targetTier s c) := by
  have hprune : ∀ reason : ReasonCode,
      decisionShapeIsCoherent .prune [reason] none none = .ok () →
      Imp.RaisesOnly (RepeatsReservation batch ledger targetTier) (do
        let decision ← pruned policy c targetTier [reason] none
        return { s with decisions := s.decisions.insert c.candidateId decision }) := by
    intro reason hshape
    obtain ⟨decision, hdecision⟩ := exists_decision c.candidateId c.tier targetTier hadmissible.priority hshape
    exact Imp.raisesOnly_bind_of_ok hdecision Imp.raisesOnly_ok
  rw [select, hpolicy]
  change Imp.RaisesOnly _ (if width ≤ s.promoted then _ else _)
  split_ifs with hwidth hreserved hbudget
  · exact hprune _ rfl
  · exact hprune _ rfl
  · exact hprune _ rfl
  · rw [Bool.not_eq_false] at hbudget
    have hsequence := sequence_le_worlds (canReserve_eq_true.mp hbudget).2
    rw [h.limits] at hsequence
    refine Imp.raisesOnly_bind (fun e he => ?_) fun ledger' hledger' => ?_
    · obtain ⟨rfl, r, hr, hid⟩ := raisesOnly_reserve_of_fits hbudget (h.limits ▸ hworlds) hadmissible.cost e he
      refine ⟨rfl, _, _, r.reservationId, h.known r hr, .inr ⟨rfl, hsequence, c, hc, rfl, rfl⟩, ?_,
        r.identifierIsContentBound, hid⟩
      -- the earlier reservation has a smaller sequence number
      intro heq
      have hmem := List.mem_map_of_mem (f := fun r : BudgetReservation => r.sequence) hr
      rw [s.ledger.sequences, List.mem_range'_1] at hmem
      have hsame := congrArg ReservationContent.sequence heq
      change r.sequence = s.ledger.reservations.length + 1 at hsame
      omega
    · obtain ⟨r, -, -, hreservations⟩ := reserve_eq_ok hledger'
      rw [hreservations, List.getLast?_append, List.getLast?_singleton]
      have hshape : decisionShapeIsCoherent .promote [.promoted] (some r.reservationId) none = .ok () := rfl
      obtain ⟨decision, hdecision⟩ := exists_decision c.candidateId c.tier targetTier hadmissible.priority hshape
      exact Imp.raisesOnly_bind_of_ok hdecision Imp.raisesOnly_ok

/-- All that a search of admissible candidates raises is that two reservations have one identifier. -/
theorem raisesOnly_advance_of_admissible [SearchDigest] {digest : Sha256Digest}
    (hdigest : SearchDigest.batch batch = .ok digest) (htier : nextTier batch.tier = .ok targetTier)
    (hseed : (Nat.toDigits 10 policy.seed).length ≤ 4300) (hworlds : ledger.limits.worlds < 1000000000)
    (h : ∀ c ∈ batch.candidates, Admissible policy targetTier c) :
    Imp.RaisesOnly (RepeatsReservation batch ledger targetTier) (advance policy batch ledger) := by
  obtain ⟨width, hwidth⟩ := exists_width policy htier
  refine raisesOnly_advance_of htier (raisesOnly_gates (fun c hc => (h c hc).gates) _)
    (fun eligible _ => raisesOnly_ranked_of_seed hseed eligible) (fun ranking hranking => ?_)
    (fun order decisions horder => ?_) ?_
  · refine raisesOnly_deduplicate_of_admissible (fun c hc => h c (hranking c hc)) fun c hc => ?_
    rw [batch.oneTier c (hranking c hc)]
    exact batch.promotable
  · exact Imp.raisesOnly_foldlM_of_invariant (I := Ongoing batch ledger targetTier)
      ⟨rfl, fun r hr => .inl ⟨r, hr, rfl⟩⟩
      (fun c hc s s' hs hstep => hs.step hwidth (horder c hc) hstep)
      fun c hc s hs => raisesOnly_select_of_admissible hwidth hworlds hs (horder c hc) (h c (horder c hc))
  · rw [hdigest]
    exact Imp.raisesOnly_ok

end StateWeaver.Search
