import StateWeaver.Search.Ledger

/-!
# The phases of a search

What the gates, the ranking, the deduplication and the selection do with the candidates they are given:
each phase decides some candidates and passes the others on.
-/

namespace StateWeaver.Search

open Contracts

/-- Decisions that are filed under their candidate and prune it. -/
def Pruning (decisions : Decisions) : Prop :=
  ∀ id decision, decisions.get? id = some decision →
    decision.candidateId = id ∧ decision.disposition = .prune

theorem pruning_empty : Pruning Dict.empty := by
  intro id decision hget
  rw [Dict.get?_empty] at hget
  cases hget

theorem Pruning.insert {decisions : Decisions} {decision : SearchDecision} {id : ContractId}
    (h : Pruning decisions) (hid : decision.candidateId = id) (hprune : decision.disposition = .prune) :
    Pruning (decisions.insert id decision) := by
  intro id' decision' hget
  rw [Dict.get?_insert] at hget
  split_ifs at hget with heq
  · cases hget
    exact ⟨hid.trans heq.symm, hprune⟩
  · exact h id' decision' hget

theorem create_eq_ok {id : ContractId} {source target : WorldTier} {disposition : DecisionDisposition}
    {reasons : List ReasonCode} {priority : Float} {reservation dedup : Option ContractId}
    {decision : SearchDecision} (h : SearchDecision.create id source target disposition reasons priority
      reservation dedup = .ok decision) :
    decision.candidateId = id ∧ decision.sourceTier = source ∧ decision.targetTier = target ∧
      decision.disposition = disposition ∧ decision.reservationId = reservation := by
  rw [SearchDecision.create] at h
  split_ifs at h
  split at h
  · cases h
    exact ⟨rfl, rfl, rfl, rfl, rfl⟩
  · cases h

theorem reasons_of_create {id : ContractId} {source target : WorldTier} {disposition : DecisionDisposition}
    {reasons : List ReasonCode} {priority : Float} {reservation dedup : Option ContractId}
    {decision : SearchDecision} (h : SearchDecision.create id source target disposition reasons priority
      reservation dedup = .ok decision) :
    decision.reasonCodes = reasons ∧ decision.deduplicatedTo = dedup ∧ decision.priority = priority := by
  rw [SearchDecision.create] at h
  split_ifs at h
  split at h
  · cases h
    exact ⟨rfl, rfl, rfl⟩
  · cases h

theorem raisesOnly_create {id : ContractId} {source target : WorldTier}
    {disposition : DecisionDisposition} {reasons : List ReasonCode} {priority : Float}
    {reservation dedup : Option ContractId} : Imp.RaisesOnly Exc.IsRejection
      (SearchDecision.create id source target disposition reasons priority reservation dedup) := by
  rw [SearchDecision.create]
  split
  · split
    · exact Imp.raisesOnly_ok
    · exact Imp.raisesOnly_error (isRejection_validationError (by decide))
  · exact Imp.raisesOnly_error (isRejection_validationError (by decide))

variable {policy : BeamSearchPolicy} {targetTier : WorldTier}

/-! ## Gates -/

/-- After the gates, the eligible candidates are those without a reason, and the others are pruned. -/
theorem gates_eq_ok {candidates : List SearchCandidate} {decisions : Decisions}
    {eligible : List SearchCandidate}
    (h : candidates.foldlM (gateStep policy targetTier) (Dict.empty, []) = .ok (decisions, eligible)) :
    eligible = candidates.filter (fun c => gateReasons policy c targetTier = []) ∧ Pruning decisions ∧
      ∀ c ∈ candidates, gateReasons policy c targetTier ≠ [] →
        ∃ decision, decisions.get? c.candidateId = some decision := by
  have hinvariant := Imp.foldlM_invariant (d := [])
    (I := fun done s => s.2 = done.filter (fun c => gateReasons policy c targetTier = []) ∧ Pruning s.1 ∧
      ∀ c ∈ done, gateReasons policy c targetTier ≠ [] →
        ∃ decision, s.1.get? c.candidateId = some decision) ?_ ⟨rfl, pruning_empty, List.forall_mem_nil _⟩ h
  · exact hinvariant
  · rintro done ⟨decisions, eligible⟩ c s' ⟨heligible, hpruning, hdecided⟩ hstep
    rw [gateStep] at hstep
    simp only at hstep heligible hpruning hdecided
    split_ifs at hstep with hreasons
    · obtain ⟨decision, hdecision, hstep⟩ := Imp.except_bind_eq_ok.mp hstep
      cases hstep
      obtain ⟨hid, -, -, hprune, -⟩ := create_eq_ok hdecision
      refine ⟨?_, hpruning.insert hid hprune, fun c' hc' hreasons' => ?_⟩
      · rw [List.filter_append, ← heligible, List.filter_cons_of_neg (by simpa using hreasons)]
        exact (List.append_nil _).symm
      · rw [Dict.get?_insert]
        split_ifs with heq
        · exact ⟨decision, rfl⟩
        · rcases List.mem_append.mp hc' with hc' | hc'
          · exact hdecided c' hc' hreasons'
          · exact absurd (congrArg _ (List.mem_singleton.mp hc')) heq
    · cases hstep
      rw [not_not] at hreasons
      refine ⟨?_, hpruning, fun c' hc' hreasons' => ?_⟩
      · rw [List.filter_append, ← heligible, List.filter_cons_of_pos (by simpa using hreasons),
          List.filter_nil]
      · rcases List.mem_append.mp hc' with hc' | hc'
        · exact hdecided c' hc' hreasons'
        · rw [List.mem_singleton.mp hc'] at hreasons'
          exact absurd hreasons hreasons'

theorem raisesOnly_gateStep (s : Decisions × List SearchCandidate) (c : SearchCandidate) :
    Imp.RaisesOnly Exc.IsRejection (gateStep policy targetTier s c) := by
  rw [gateStep]
  split_ifs
  · exact Imp.raisesOnly_bind raisesOnly_create fun _ _ => Imp.raisesOnly_ok
  · exact Imp.raisesOnly_ok

/-! ## Order -/

theorem mapM_pair_map_snd {α β ε : Type} {f : α → Except ε β} {l : List α} {l' : List (β × α)}
    (h : (l.mapM fun a => do return (← f a, a)) = .ok l') : l'.map Prod.snd = l := by
  induction l generalizing l' with
  | nil =>
      cases h
      rfl
  | cons a l ih =>
      rw [List.mapM_cons] at h
      obtain ⟨e, he, h⟩ := Imp.except_bind_eq_ok.mp h
      obtain ⟨rest, hrest, h⟩ := Imp.except_bind_eq_ok.mp h
      obtain ⟨b, -, he⟩ := Imp.except_bind_eq_ok.mp he
      cases he
      cases h
      rw [List.map_cons, ih hrest]

theorem diverseOrder_perm (l : List SearchCandidate) : (diverseOrder l).Perm l := by
  have hfold : ∀ step : List SearchCandidate × List SearchCandidate × List ContractId → SearchCandidate →
        List SearchCandidate × List SearchCandidate × List ContractId,
      (∀ first deferred seen candidate, step (first, deferred, seen) candidate =
        if candidate.diversityKey ∈ seen then (first, deferred ++ [candidate], seen)
        else (first ++ [candidate], deferred, seen ++ [candidate.diversityKey])) →
      ∀ (l first deferred : List SearchCandidate) (seen : List ContractId),
      let order := l.foldl step ((first, deferred, seen) : List SearchCandidate × List SearchCandidate × List ContractId)
      (order.1 ++ order.2.1).Perm (first ++ deferred ++ l) := by
    intro step hstep l
    induction l with
    | nil =>
        intro first deferred seen
        rw [List.append_nil]
        exact List.Perm.refl _
    | cons c l ih =>
        intro first deferred seen
        simp only [List.foldl_cons, hstep]
        split_ifs
        · refine (ih first (deferred ++ [c]) seen).trans (List.Perm.of_eq ?_)
          simp only [List.append_assoc, List.singleton_append]
        · refine (ih (first ++ [c]) deferred _).trans ?_
          rw [List.append_assoc, List.append_assoc, List.append_assoc, List.singleton_append]
          exact List.Perm.append_left _ List.perm_middle.symm
  exact hfold _ (fun _ _ _ _ => rfl) l [] [] []

variable [Sha256]

theorem ranked_perm {candidates ranking : List SearchCandidate} (h : ranked policy candidates = .ok ranking) :
    ranking.Perm candidates := by
  rw [ranked] at h
  obtain ⟨keyed, hkeyed, h⟩ := Imp.except_bind_eq_ok.mp h
  cases h
  rw [← mapM_pair_map_snd hkeyed]
  exact (List.perm_insertionSort _ _).map Prod.snd

theorem raisesOnly_ranked (candidates : List SearchCandidate) :
    Imp.RaisesOnly Exc.IsRejection (ranked policy candidates) := by
  refine Imp.raisesOnly_bind (Imp.raisesOnly_mapM fun c _ => ?_) fun _ _ => Imp.raisesOnly_ok
  refine Imp.raisesOnly_bind ?_ fun _ _ => Imp.raisesOnly_ok
  exact Imp.raisesOnly_bind (raisesOnly_mapError _) fun _ _ => Imp.raisesOnly_ok

/-! ## Deduplication -/

omit [Sha256] in
/-- What deduplication has done with the candidates it has seen. -/
structure Deduplicated (done : List SearchCandidate) (retained : Dict Sha256Digest SearchCandidate)
    (duplicates : Decisions) : Prop where
  fingerprint : ∀ fingerprint c, retained.get? fingerprint = some c →
    c.stateFingerprint = fingerprint ∧ c ∈ done
  pruning : Pruning duplicates
  decided : ∀ c ∈ done, c ∈ retained.values ∨
    ∃ decision, duplicates.get? c.candidateId = some decision

omit [Sha256] in
theorem mem_values_of_get? {K V : Type} [DecidableEq K] {d : Dict K V} {k : K} {v : V}
    (h : d.get? k = some v) : v ∈ d.values := Dict.mem_values.mpr ⟨k, Dict.mem_entries.mpr h⟩

omit [Sha256] in
theorem Deduplicated.step {done : List SearchCandidate} {retained : Dict Sha256Digest SearchCandidate}
    {duplicates : Decisions} {c : SearchCandidate} {s' : Dict Sha256Digest SearchCandidate × Decisions}
    (h : Deduplicated done retained duplicates)
    (hstep : deduplicateStep policy (retained, duplicates) c = .ok s') :
    Deduplicated (done ++ [c]) s'.1 s'.2 := by
  rw [deduplicateStep] at hstep
  simp only at hstep
  split at hstep
  · next hnew =>
      cases hstep
      refine ⟨fun fingerprint c' hget => ?_, h.pruning, fun c' hc' => ?_⟩
      · rw [Dict.get?_insert] at hget
        split_ifs at hget with heq
        · cases hget
          exact ⟨heq.symm, List.mem_append_right _ List.mem_cons_self⟩
        · obtain ⟨hfingerprint, hmem⟩ := h.fingerprint fingerprint c' hget
          exact ⟨hfingerprint, List.mem_append_left _ hmem⟩
      · rcases List.mem_append.mp hc' with hc' | hc'
        · refine (h.decided c' hc').imp_left fun hvalues => ?_
          obtain ⟨fingerprint, hentry⟩ := Dict.mem_values.mp hvalues
          have hget := Dict.mem_entries.mp hentry
          refine mem_values_of_get? (k := fingerprint) ?_
          rw [Dict.get?_insert_of_ne _ _ _]
          · exact hget
          · rintro rfl
            rw [hnew] at hget
            cases hget
        · left
          rw [List.mem_singleton.mp hc']
          exact mem_values_of_get? (Dict.get?_insert_self _ _ _)
  · next winner _ =>
      obtain ⟨target, -, hstep⟩ := Imp.except_bind_eq_ok.mp hstep
      obtain ⟨decision, hdecision, hstep⟩ := Imp.except_bind_eq_ok.mp hstep
      cases hstep
      obtain ⟨hid, -, -, hprune, -⟩ := create_eq_ok hdecision
      refine ⟨fun fingerprint c' hget => ?_, h.pruning.insert hid hprune, fun c' hc' => ?_⟩
      · obtain ⟨hfingerprint, hmem⟩ := h.fingerprint fingerprint c' hget
        exact ⟨hfingerprint, List.mem_append_left _ hmem⟩
      · simp only [Dict.get?_insert]
        split_ifs with heq
        · exact .inr ⟨decision, rfl⟩
        · rcases List.mem_append.mp hc' with hc' | hc'
          · exact h.decided c' hc'
          · exact absurd (congrArg _ (List.mem_singleton.mp hc')) heq

omit [Sha256] in
theorem deduplicate_eq_ok {ranking deduplicated : List SearchCandidate} {duplicates : Decisions}
    (h : deduplicate policy ranking = .ok (deduplicated, duplicates)) :
    ∃ retained : Dict Sha256Digest SearchCandidate, deduplicated = retained.values ∧
      Deduplicated ranking retained duplicates := by
  rw [deduplicate] at h
  obtain ⟨⟨retained, duplicates'⟩, hfold, h⟩ := Imp.except_bind_eq_ok.mp h
  cases h
  refine ⟨retained, rfl, ?_⟩
  refine Imp.foldlM_invariant (d := []) (I := fun done s => Deduplicated done s.1 s.2)
    (fun done s c s' hinvariant hstep => hinvariant.step hstep) ⟨?_, pruning_empty, ?_⟩ hfold
  · intro fingerprint c hget
    rw [Dict.get?_empty] at hget
    cases hget
  · exact List.forall_mem_nil _

omit [Sha256] in
theorem raisesOnly_deduplicate {ranking : List SearchCandidate}
    (hpromotable : ∀ c ∈ ranking, c.tier ≠ .materialized) :
    Imp.RaisesOnly Exc.IsRejection (deduplicate policy ranking) := by
  refine Imp.raisesOnly_bind ?_ fun _ _ => Imp.raisesOnly_ok
  generalize (Dict.empty, Dict.empty) = s
  induction ranking generalizing s with
  | nil => exact Imp.raisesOnly_ok
  | cons c ranking ih =>
      obtain ⟨hc, hranking⟩ := List.forall_mem_cons.mp hpromotable
      rw [List.foldlM_cons]
      refine Imp.raisesOnly_bind ?_ fun _ _ => ih hranking _
      rw [deduplicateStep]
      split
      · exact Imp.raisesOnly_ok
      · refine Imp.raisesOnly_bind ?_ fun _ _ => ?_
        · cases htier : c.tier with
          | materialized => exact absurd htier hc
          | _ => exact Imp.raisesOnly_ok
        · exact Imp.raisesOnly_bind raisesOnly_create fun _ _ => Imp.raisesOnly_ok

/-! ## Selection -/

/-- What selection has done, from a ledger and some decisions, with the candidates it has seen: it has
appended the reservations `new`. -/
structure Selected (ledger : BudgetLedger) (decisions : Decisions) (width : Nat)
    (targetTier : WorldTier) (done : List SearchCandidate) (new : List BudgetReservation)
    (s : Selection) : Prop where
  reservations : s.ledger.reservations = ledger.reservations ++ new
  limits : s.ledger.limits = ledger.limits
  promoted : new.length = s.promoted
  promoted_le : s.promoted ≤ width
  reserved : ∀ r ∈ new, r.targetTier = targetTier ∧
    ∃ c ∈ done, c.candidateId = r.candidateId ∧ r.cost = c.promotionCost
  filed : ∀ id decision, s.decisions.get? id = some decision → decision.candidateId = id ∧
    (decision.disposition = .promote → decision.targetTier = targetTier ∧
      ∃ r ∈ new, r.candidateId = id ∧ decision.reservationId = some r.reservationId)
  filedReservation : ∀ r ∈ new, ∃ decision, s.decisions.get? r.candidateId = some decision ∧
    decision.disposition = .promote
  kept : ∀ id decision, decisions.get? id = some decision →
    ∃ decision', s.decisions.get? id = some decision'
  decided : ∀ c ∈ done, ∃ decision, s.decisions.get? c.candidateId = some decision

variable {ledger : BudgetLedger} {decisions : Decisions} {width : Nat} {done : List SearchCandidate}
  {new : List BudgetReservation} {s s' : Selection} {c : SearchCandidate}

omit [Sha256] in
theorem get?_insert_ne_none {decision : SearchDecision} {id id' : ContractId}
    (h : ∃ d, decisions.get? id = some d) : ∃ d, (decisions.insert id' decision).get? id = some d := by
  rw [Dict.get?_insert]
  split_ifs
  · exact ⟨decision, rfl⟩
  · exact h

/-- A candidate that is pruned. -/
theorem Selected.prune {decision : SearchDecision}
    (h : Selected ledger decisions width targetTier done new s)
    (hfresh : c.candidateId ∉ done.map SearchCandidate.candidateId)
    (hid : decision.candidateId = c.candidateId) (hprune : decision.disposition = .prune) :
    Selected ledger decisions width targetTier (done ++ [c]) new
      { s with decisions := s.decisions.insert c.candidateId decision } := by
  refine ⟨h.reservations, h.limits, h.promoted, h.promoted_le, fun r hr => ?_, fun id d hget => ?_,
    fun r hr => ?_, fun id d hget => get?_insert_ne_none (h.kept id d hget), fun c' hc' => ?_⟩
  · obtain ⟨htier, c', hc', hcontent⟩ := h.reserved r hr
    exact ⟨htier, c', List.mem_append_left _ hc', hcontent⟩
  · rw [Dict.get?_insert] at hget
    split_ifs at hget with heq
    · cases hget
      refine ⟨hid.trans heq.symm, fun hpromote => ?_⟩
      rw [hprune] at hpromote
      cases hpromote
    · exact h.filed id d hget
  · obtain ⟨-, c', hc', heq, -⟩ := h.reserved r hr
    rw [Dict.get?_insert_of_ne _ _ _]
    · exact h.filedReservation r hr
    · rw [← heq]
      exact fun hne => hfresh (hne ▸ List.mem_map_of_mem hc')
  · rcases List.mem_append.mp hc' with hc' | hc'
    · exact get?_insert_ne_none (h.decided c' hc')
    · rw [List.mem_singleton.mp hc']
      exact ⟨decision, Dict.get?_insert_self _ _ _⟩

/-- A candidate that is promoted. -/
theorem Selected.promote {decision : SearchDecision} {ledger' : BudgetLedger} {r : BudgetReservation}
    (h : Selected ledger decisions width targetTier done new s) (hwidth : s.promoted < width)
    (hlimits : ledger'.limits = s.ledger.limits)
    (hreservations : ledger'.reservations = s.ledger.reservations ++ [r])
    (hcandidate : r.candidateId = c.candidateId) (htier : r.targetTier = targetTier)
    (hcost : r.cost = c.promotionCost) (hid : decision.candidateId = c.candidateId)
    (htarget : decision.targetTier = targetTier) (hpromote : decision.disposition = .promote)
    (hreservation : decision.reservationId = some r.reservationId) :
    Selected ledger decisions width targetTier (done ++ [c]) (new ++ [r])
      ⟨ledger', s.promoted + 1, s.decisions.insert c.candidateId decision⟩ := by
  refine ⟨?_, hlimits.trans h.limits, ?_, hwidth, fun r' hr' => ?_, fun id d hget => ?_,
    fun r' hr' => ?_, fun id d hget => get?_insert_ne_none (h.kept id d hget), fun c' hc' => ?_⟩
  · rw [hreservations, h.reservations, List.append_assoc]
  · rw [List.length_append, List.length_singleton, h.promoted]
  · rcases List.mem_append.mp hr' with hr' | hr'
    · obtain ⟨htier', c', hc', hcontent⟩ := h.reserved r' hr'
      exact ⟨htier', c', List.mem_append_left _ hc', hcontent⟩
    · rw [List.mem_singleton.mp hr']
      exact ⟨htier, c, List.mem_append_right _ List.mem_cons_self, hcandidate.symm, hcost⟩
  · rw [Dict.get?_insert] at hget
    split_ifs at hget with heq
    · cases hget
      refine ⟨hid.trans heq.symm, fun _ => ⟨htarget, r, ?_, hcandidate.trans heq.symm, hreservation⟩⟩
      exact List.mem_append_right _ List.mem_cons_self
    · obtain ⟨hfiled, hpromoted⟩ := h.filed id d hget
      refine ⟨hfiled, fun hd => ?_⟩
      obtain ⟨htarget', r', hr', hcontent⟩ := hpromoted hd
      exact ⟨htarget', r', List.mem_append_left _ hr', hcontent⟩
  · rw [Dict.get?_insert]
    split_ifs with heq
    · exact ⟨decision, rfl, hpromote⟩
    · rcases List.mem_append.mp hr' with hr' | hr'
      · exact h.filedReservation r' hr'
      · rw [List.mem_singleton.mp hr'] at heq
        exact absurd hcandidate heq
  · rcases List.mem_append.mp hc' with hc' | hc'
    · exact get?_insert_ne_none (h.decided c' hc')
    · rw [List.mem_singleton.mp hc']
      exact ⟨decision, Dict.get?_insert_self _ _ _⟩

/-- One candidate is pruned for a reason that applies, or gets a reservation. -/
theorem select_eq_ok (hpolicy : policy.width targetTier = .ok width)
    (h : select policy targetTier s c = .ok s') :
    (∃ reason decision, pruned policy c targetTier [reason] none = .ok decision ∧
      s' = { s with decisions := s.decisions.insert c.candidateId decision } ∧
      (reason = .beamCapacity ∧ width ≤ s.promoted ∨
        reason = .alreadyPromoted ∧ (c.candidateId, targetTier) ∈ s.ledger.keys ∨
        reason = .budgetExceeded ∧ ¬Within s.ledger.limits
          ((usage s.ledger.reservations).plus targetTier c.promotionCost))) ∨
    s.promoted < width ∧ ∃ r : BudgetReservation, ∃ ledger' decision,
      r.toReservationContent =
        ⟨c.candidateId, targetTier, s.ledger.reservations.length + 1, c.promotionCost⟩ ∧
      ledger'.limits = s.ledger.limits ∧ ledger'.reservations = s.ledger.reservations ++ [r] ∧
      SearchDecision.create c.candidateId c.tier targetTier .promote [.promoted] (priority policy c)
        (some r.reservationId) none = .ok decision ∧
      s' = ⟨ledger', s.promoted + 1, s.decisions.insert c.candidateId decision⟩ := by
  have hprune : ∀ {reason : ReasonCode},
      (do
        let decision ← pruned policy c targetTier [reason] none
        return { s with decisions := s.decisions.insert c.candidateId decision }) = Except.ok s' →
      ∃ decision, pruned policy c targetTier [reason] none = .ok decision ∧
        s' = { s with decisions := s.decisions.insert c.candidateId decision } := by
    intro reason hs
    obtain ⟨decision, hdecision, hs⟩ := Imp.except_bind_eq_ok.mp hs
    cases hs
    exact ⟨decision, hdecision, rfl⟩
  rw [select, hpolicy] at h
  change (if width ≤ s.promoted then _ else _) = _ at h
  split_ifs at h with hwidth hreserved hbudget
  · obtain ⟨decision, hdecision, heq⟩ := hprune h
    exact .inl ⟨_, decision, hdecision, heq, .inl ⟨rfl, hwidth⟩⟩
  · obtain ⟨decision, hdecision, heq⟩ := hprune h
    exact .inl ⟨_, decision, hdecision, heq, .inr (.inl ⟨rfl, hasReservation_eq_true.mp hreserved⟩)⟩
  · obtain ⟨decision, hdecision, heq⟩ := hprune h
    refine .inl ⟨_, decision, hdecision, heq, .inr (.inr ⟨rfl, fun hwithin => ?_⟩)⟩
    rw [hasReservation_eq_true] at hreserved
    rw [canReserve_eq_true.mpr ⟨hreserved, hwithin⟩] at hbudget
    cases hbudget
  · obtain ⟨ledger', hreserve, h⟩ := Imp.except_bind_eq_ok.mp h
    obtain ⟨decision, hdecision, h⟩ := Imp.except_bind_eq_ok.mp h
    cases h
    obtain ⟨r, hcontent, hlimits, hreservations⟩ := reserve_eq_ok hreserve
    rw [hreservations, List.getLast?_append, List.getLast?_singleton] at hdecision
    exact .inr ⟨not_le.mp hwidth, r, ledger', decision, hcontent, hlimits, hreservations, hdecision, rfl⟩

/-- One candidate either gets no reservation, or one more. -/
theorem Selected.step (hpolicy : policy.width targetTier = .ok width)
    (h : Selected ledger decisions width targetTier done new s)
    (hfresh : c.candidateId ∉ done.map SearchCandidate.candidateId)
    (hstep : select policy targetTier s c = .ok s') :
    ∃ new', Selected ledger decisions width targetTier (done ++ [c]) new' s' := by
  rcases select_eq_ok hpolicy hstep with ⟨reason, decision, hdecision, rfl, -⟩ |
    ⟨hwidth, r, ledger', decision, hcontent, hlimits, hreservations, hdecision, rfl⟩
  · obtain ⟨hid, -, -, hdisposition, -⟩ := create_eq_ok hdecision
    exact ⟨new, h.prune hfresh hid hdisposition⟩
  · obtain ⟨hid, -, htarget, hdisposition, hreservation⟩ := create_eq_ok hdecision
    exact ⟨new ++ [r], h.promote hwidth hlimits hreservations
      (congrArg ReservationContent.candidateId hcontent)
      (congrArg ReservationContent.targetTier hcontent) (congrArg ReservationContent.cost hcontent) hid
      htarget hdisposition hreservation⟩

/-- What the loop that selects does. -/
theorem selection_eq_ok {order : List SearchCandidate} (hpolicy : policy.width targetTier = .ok width)
    (hpruning : Pruning decisions) (hnodup : (order.map SearchCandidate.candidateId).Nodup)
    (h : order.foldlM (select policy targetTier) ⟨ledger, 0, decisions⟩ = .ok s) :
    ∃ new, Selected ledger decisions width targetTier order new s := by
  have hinvariant := Imp.foldlM_invariant (d := [])
    (I := fun done s => (done.map SearchCandidate.candidateId).Nodup →
      ∃ new, Selected ledger decisions width targetTier done new s) ?_ ?_ h
  · exact hinvariant hnodup
  · intro done s c s' hselected hstep hnodup
    rw [List.map_append, List.map_singleton] at hnodup
    obtain ⟨hdone, -, hdisjoint⟩ := List.nodup_append.mp hnodup
    obtain ⟨new, hselected⟩ := hselected hdone
    refine hselected.step hpolicy (fun hmem => ?_) hstep
    exact hdisjoint _ hmem _ List.mem_cons_self rfl
  · intro _
    refine ⟨[], (List.append_nil _).symm, rfl, rfl, Nat.zero_le _, List.forall_mem_nil _,
      fun id d hget => ?_, List.forall_mem_nil _, fun id d hget => ⟨d, hget⟩, List.forall_mem_nil _⟩
    obtain ⟨hid, hprune⟩ := hpruning id d hget
    refine ⟨hid, fun hpromote => ?_⟩
    rw [hprune] at hpromote
    cases hpromote

theorem raisesOnly_select (hpolicy : policy.width targetTier = .ok width) :
    Imp.RaisesOnly Exc.IsRejection (select policy targetTier s c) := by
  have hprune : ∀ reason : ReasonCode, Imp.RaisesOnly Exc.IsRejection (do
      let decision ← pruned policy c targetTier [reason] none
      return { s with decisions := s.decisions.insert c.candidateId decision }) :=
    fun reason => Imp.raisesOnly_bind raisesOnly_create fun _ _ => Imp.raisesOnly_ok
  rw [select, hpolicy]
  change Imp.RaisesOnly _ (if width ≤ s.promoted then _ else _)
  split_ifs
  · exact hprune _
  · exact hprune _
  · exact hprune _
  · refine Imp.raisesOnly_bind raisesOnly_reserve fun _ _ => ?_
    exact Imp.raisesOnly_bind raisesOnly_create fun _ _ => Imp.raisesOnly_ok

end StateWeaver.Search
