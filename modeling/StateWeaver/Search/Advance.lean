import StateWeaver.Search.Selection

/-!
# A search promotes what it reserves

Every result of a search extends the ledger by one reservation for each promoted candidate, within the
limits and the width of the beam, and decides each candidate of the batch once. Over a run of searches
no candidate is reserved for a tier twice.
-/

namespace StateWeaver.Search

open Contracts

/-! ## Specification -/

/-- What a candidate needs to be promoted to `materialized`. -/
structure Materializable (candidate : SearchCandidate) : Prop where
  evidence : candidate.gates.evidenceIds.items ≠ []
  fragments : candidate.transitionFragments ≠ []
  fragmentEvidence : ∀ fragment ∈ candidate.transitionFragments,
    fragment.evidenceIds ≠ [] ∧ ∀ id ∈ fragment.evidenceIds, id ∈ candidate.gates.evidenceIds.items
  observed : ∀ fragment ∈ candidate.transitionFragments,
    fragment.source ≠ .hypothesized ∧ fragment.source ≠ .unknown
  actionPlan : candidate.gates.actionPlanRefs.items ≠ []
  observations : candidate.gates.expectedObservations ≠ []
  oracle : candidate.gates.oracleRefs.items ≠ []
  snapshot : candidate.gates.snapshotCapable = true

/-- What a candidate needs to be promoted to a tier. -/
structure PassesGates (policy : BeamSearchPolicy) (candidate : SearchCandidate)
    (targetTier : WorldTier) : Prop where
  inScope : candidate.gates.inScope = true
  notDenied : candidate.gates.policyOutcome ≠ .deny
  approved : candidate.gates.policyOutcome = .requireApproval → candidate.gates.approvalRef ≠ none
  reversible : candidate.gates.reversible = false → candidate.gates.approvalRef ≠ none
  capable : ∀ capability ∈ candidate.gates.requiredCapabilities.items,
    capability ∈ candidate.gates.availableCapabilities.items
  newFacts : 0 < candidate.gates.newFactCount
  faithful : candidate.scores.fidelity.val < policy.minimumFidelity.val →
    candidate.gates.calibrationPath = true
  deterministic : candidate.gates.repeatedNondeterminism < policy.repeatedNondeterminismLimit
  materializable : targetTier = .materialized → Materializable candidate

/-- What a search does with a batch and a ledger. -/
structure Advanced [Sha256] (policy : BeamSearchPolicy) (batch : SearchBatch) (ledger : BudgetLedger)
    (result : SearchResult) : Prop where
  sourceTier : result.sourceTier = batch.tier
  targetTier : nextTier batch.tier = .ok result.targetTier
  /-- One new reservation for each promoted candidate, bound to its content. -/
  reserved : ∃ new : List BudgetReservation,
    result.ledger.reservations = ledger.reservations ++ new ∧
    (new.map fun r => r.candidateId).Perm result.promotedCandidateIds ∧
    ∀ r ∈ new, r.targetTier = result.targetTier ∧
      reservationId r.toReservationContent = .ok r.reservationId ∧
      ∃ candidate ∈ batch.candidates, candidate.candidateId = r.candidateId ∧
        r.cost = candidate.promotionCost
  limits : result.ledger.limits = ledger.limits
  within : Within result.ledger.limits (usage result.ledger.reservations)
  width : ∃ width, policy.width result.targetTier = .ok width ∧
    result.promotedCandidateIds.length ≤ width
  /-- One decision for each candidate, in their order. -/
  decided : result.decisions.map SearchDecision.candidateId =
    batch.candidates.map SearchCandidate.candidateId
  gated : ∀ candidate ∈ batch.candidates, candidate.candidateId ∈ result.promotedCandidateIds →
    PassesGates policy candidate result.targetTier
  fingerprints : ∀ candidate ∈ batch.candidates, ∀ candidate' ∈ batch.candidates,
    candidate.candidateId ∈ result.promotedCandidateIds →
    candidate'.candidateId ∈ result.promotedCandidateIds →
    candidate.stateFingerprint = candidate'.stateFingerprint → candidate = candidate'

/-! ## Gates -/

theorem reasonIf_eq_nil {b : Bool} {reason : ReasonCode} : reasonIf b reason = [] ↔ b = false := by
  cases b <;> simp [reasonIf]

theorem eraseDups_eq_nil {l : List ReasonCode} : l.eraseDups = [] ↔ l = [] := by
  cases l with
  | nil => rfl
  | cons a l => simp [List.eraseDups_cons]

theorem fragmentsAreEvidenceBound_eq_true {candidate : SearchCandidate} :
    fragmentsAreEvidenceBound candidate = true ↔ candidate.transitionFragments ≠ [] ∧
      (∀ fragment ∈ candidate.transitionFragments, fragment.evidenceIds ≠ [] ∧
        ∀ id ∈ fragment.evidenceIds, id ∈ candidate.gates.evidenceIds.items) ∧
      ∀ fragment ∈ candidate.transitionFragments,
        fragment.source ≠ .hypothesized ∧ fragment.source ≠ .unknown := by
  simp only [fragmentsAreEvidenceBound, Bool.and_eq_true, Bool.not_eq_true', List.isEmpty_eq_false_iff,
    List.all_eq_true, List.contains_iff_mem, List.mem_flatMap, decide_eq_true_eq]
  constructor
  · rintro ⟨⟨hfragments, hknown⟩, hall⟩
    refine ⟨hfragments, fun f hf => ⟨(hall f hf).1.1, fun id hid => hknown id ⟨f, hf, hid⟩⟩,
      fun f hf => ⟨(hall f hf).1.2, (hall f hf).2⟩⟩
  · rintro ⟨hfragments, hevidence, hobserved⟩
    refine ⟨⟨hfragments, ?_⟩, fun f hf => ⟨⟨(hevidence f hf).1, (hobserved f hf).1⟩, (hobserved f hf).2⟩⟩
    rintro id ⟨f, hf, hid⟩
    exact (hevidence f hf).2 id hid

/-- There is no reason against a candidate exactly if it passes every gate. -/
theorem gateReasons_eq_nil {policy : BeamSearchPolicy} {candidate : SearchCandidate}
    {targetTier : WorldTier} :
    gateReasons policy candidate targetTier = [] ↔ PassesGates policy candidate targetTier := by
  have hmaterialized : (targetTier = .materialized → Materializable candidate) ↔
      (if targetTier = .materialized then
        reasonIf (candidate.gates.evidenceIds.items.isEmpty || !fragmentsAreEvidenceBound candidate)
          .missingEvidence ++
        reasonIf candidate.gates.actionPlanRefs.items.isEmpty .missingActionPlan ++
        reasonIf candidate.gates.expectedObservations.isEmpty .missingExpectedObservation ++
        reasonIf candidate.gates.oracleRefs.items.isEmpty .missingMachineOracle ++
        reasonIf (!candidate.gates.snapshotCapable) .missingSnapshotCapability
      else []) = [] := by
    split_ifs with htier
    · simp only [List.append_eq_nil_iff, reasonIf_eq_nil, Bool.or_eq_false_iff, Bool.not_eq_false',
        List.isEmpty_eq_false_iff, fragmentsAreEvidenceBound_eq_true]
      constructor
      · intro h
        have hm := h htier
        exact ⟨⟨⟨⟨⟨hm.evidence, hm.fragments, hm.fragmentEvidence, hm.observed⟩, hm.actionPlan⟩,
          hm.observations⟩, hm.oracle⟩, hm.snapshot⟩
      · rintro ⟨⟨⟨⟨⟨hevidence, hfragments, hbound, hobserved⟩, hplan⟩, hexpected⟩, horacle⟩, hsnapshot⟩ -
        exact ⟨hevidence, hfragments, hbound, hobserved, hplan, hexpected, horacle, hsnapshot⟩
    · exact iff_of_true (fun h => absurd h htier) rfl
  rw [gateReasons, eraseDups_eq_nil]
  simp only [List.append_eq_nil_iff, ← hmaterialized, reasonIf_eq_nil]
  simp only [Bool.not_eq_false', decide_eq_false_iff_not, Bool.and_eq_false_iff, List.all_eq_true,
    List.contains_iff_mem, Option.isNone_eq_false_iff, not_le]
  constructor
  · rintro ⟨⟨⟨⟨⟨⟨⟨⟨hscope, hdenied⟩, happroved⟩, hreversible⟩, hcapable⟩, hfacts⟩, hfaithful⟩,
      hdeterministic⟩, hmaterial⟩
    refine ⟨hscope, hdenied, fun hrequired => ?_, fun hirreversible => ?_, hcapable,
      Nat.pos_of_ne_zero hfacts, fun hlow => ?_, hdeterministic, hmaterial⟩
    · exact Option.isSome_iff_ne_none.mp (happroved.resolve_left (fun h => h hrequired))
    · refine Option.isSome_iff_ne_none.mp (hreversible.resolve_left ?_)
      rw [hirreversible]
      decide
    · exact hfaithful.resolve_left fun h => h hlow
  · intro h
    refine ⟨⟨⟨⟨⟨⟨⟨⟨h.inScope, h.notDenied⟩, ?_⟩, ?_⟩, h.capable⟩, Nat.ne_of_gt h.newFacts⟩, ?_⟩,
      h.deterministic⟩, h.materializable⟩
    · exact (em _).symm.imp_right fun hrequired => Option.isSome_iff_ne_none.mpr (h.approved hrequired)
    · cases hreversible : candidate.gates.reversible with
      | true => exact .inl rfl
      | false => exact .inr (Option.isSome_iff_ne_none.mpr (h.reversible hreversible))
    · exact (em _).symm.imp_right h.faithful

/-! ## One search -/

theorem SearchBatch.nodup (batch : SearchBatch) :
    (batch.candidates.map SearchCandidate.candidateId).Nodup := batch.sorted.imp fun h => ne_of_lt h

/-- Candidates of a batch are told apart by their identifiers. -/
theorem SearchBatch.eq_of_candidateId_eq {batch : SearchBatch} {c c' : SearchCandidate}
    (hc : c ∈ batch.candidates) (hc' : c' ∈ batch.candidates) (h : c.candidateId = c'.candidateId) :
    c = c' := List.inj_on_of_nodup_map batch.nodup hc hc' h

theorem exists_nextTier (batch : SearchBatch) : ∃ targetTier, nextTier batch.tier = .ok targetTier := by
  cases htier : batch.tier with
  | materialized => exact absurd htier batch.promotable
  | _ => exact ⟨_, rfl⟩

theorem exists_width (policy : BeamSearchPolicy) {sourceTier targetTier : WorldTier}
    (h : nextTier sourceTier = .ok targetTier) : ∃ width, policy.width targetTier = .ok width := by
  cases sourceTier <;> cases h <;> exact ⟨_, rfl⟩

/-- `decisions.update(duplicates)`. -/
theorem update_pruning {l : List (ContractId × SearchDecision)} {decisions : Decisions}
    (h : Pruning decisions)
    (hl : ∀ e ∈ l, e.2.candidateId = e.1 ∧ e.2.disposition = .prune) :
    Pruning (l.foldl (fun d e => d.insert e.1 e.2) decisions) ∧
      (∀ id, (∃ decision, decisions.get? id = some decision) →
        ∃ decision, (l.foldl (fun d e => d.insert e.1 e.2) decisions).get? id = some decision) ∧
      ∀ e ∈ l, ∃ decision, (l.foldl (fun d e => d.insert e.1 e.2) decisions).get? e.1 = some decision := by
  induction l generalizing decisions with
  | nil => exact ⟨h, fun _ hid => hid, List.forall_mem_nil _⟩
  | cons e l ih =>
      obtain ⟨he, hl⟩ := List.forall_mem_cons.mp hl
      obtain ⟨hpruning, hkept, hfiled⟩ := ih (h.insert he.1 he.2) hl
      refine ⟨hpruning, fun id hid => hkept id (get?_insert_ne_none hid), ?_⟩
      refine List.forall_mem_cons.mpr ⟨hkept e.1 ⟨e.2, Dict.get?_insert_self _ _ _⟩, hfiled⟩

variable [Sha256] {policy : BeamSearchPolicy} {batch : SearchBatch} {ledger : BudgetLedger}
  {targetTier : WorldTier}

/-- What is known after the loop that selects, about the candidates it has been given. -/
structure Phases (policy : BeamSearchPolicy) (batch : SearchBatch) (ledger : BudgetLedger)
    (targetTier : WorldTier) (width : Nat) (order : List SearchCandidate)
    (new : List BudgetReservation) (s : Selection) : Prop where
  reservations : s.ledger.reservations = ledger.reservations ++ new
  limits : s.ledger.limits = ledger.limits
  width : new.length ≤ width
  reserved : ∀ r ∈ new, r.targetTier = targetTier ∧
    ∃ c ∈ order, c.candidateId = r.candidateId ∧ r.cost = c.promotionCost
  filed : ∀ id decision, s.decisions.get? id = some decision → decision.candidateId = id ∧
    (decision.disposition = .promote → decision.targetTier = targetTier ∧
      ∃ r ∈ new, r.candidateId = id ∧ decision.reservationId = some r.reservationId)
  filedReservation : ∀ r ∈ new, ∃ decision, s.decisions.get? r.candidateId = some decision ∧
    decision.disposition = .promote
  decided : ∀ c ∈ batch.candidates, ∃ decision, s.decisions.get? c.candidateId = some decision
  eligible : ∀ c ∈ order, c ∈ batch.candidates ∧ PassesGates policy c targetTier
  fingerprints : ∀ c ∈ order, ∀ c' ∈ order, c.stateFingerprint = c'.stateFingerprint → c = c'

theorem exists_phases {width : Nat} {decisions duplicates : Decisions}
    {eligible ranking deduplicated : List SearchCandidate} {s : Selection}
    (hwidth : policy.width targetTier = .ok width)
    (hgates : batch.candidates.foldlM (gateStep policy targetTier) (Dict.empty, []) =
      .ok (decisions, eligible))
    (hranked : ranked policy eligible = .ok ranking)
    (hdeduplicate : deduplicate policy ranking = .ok (deduplicated, duplicates))
    (hselect : (diverseOrder deduplicated).foldlM (select policy targetTier)
      ⟨ledger, 0, duplicates.entries.foldl (fun d e => d.insert e.1 e.2) decisions⟩ = .ok s) :
    ∃ order new, Phases policy batch ledger targetTier width order new s := by
  obtain ⟨heligible, hpruning, hgated⟩ := gates_eq_ok hgates
  obtain ⟨retained, rfl, hdeduplicated⟩ := deduplicate_eq_ok hdeduplicate
  have hperm := diverseOrder_perm retained.values
  have hranking : ∀ c, c ∈ ranking ↔ c ∈ batch.candidates ∧ PassesGates policy c targetTier := by
    intro c
    rw [(ranked_perm hranked).mem_iff, heligible, List.mem_filter, decide_eq_true_eq,
      gateReasons_eq_nil]
  have hvalues : ∀ c ∈ retained.values, retained.get? c.stateFingerprint = some c ∧ c ∈ ranking := by
    intro c hc
    obtain ⟨fingerprint, hentry⟩ := Dict.mem_values.mp hc
    obtain ⟨rfl, hmem⟩ := hdeduplicated.fingerprint fingerprint c (Dict.mem_entries.mp hentry)
    exact ⟨Dict.mem_entries.mp hentry, hmem⟩
  have hfingerprints : ∀ c ∈ retained.values, ∀ c' ∈ retained.values,
      c.stateFingerprint = c'.stateFingerprint → c = c' := by
    intro c hc c' hc' heq
    have hget := (hvalues c hc).1
    rw [heq, (hvalues c' hc').1] at hget
    exact (Option.some.inj hget).symm
  have hnodup : ((diverseOrder retained.values).map SearchCandidate.candidateId).Nodup := by
    refine ((hperm.map _).nodup_iff).mpr ?_
    rw [Dict.values, List.map_map]
    refine List.pairwise_map.mpr ?_
    refine (List.pairwise_map.mp retained.nodup).imp_of_mem fun {e e'} he he' hne heq => hne ?_
    have hmem : ∀ e ∈ retained.entries, e.2 ∈ batch.candidates ∧ e.2.stateFingerprint = e.1 := by
      intro e he
      obtain ⟨hfingerprint, hranked⟩ := hdeduplicated.fingerprint e.1 e.2 (Dict.mem_entries.mp he)
      exact ⟨((hranking e.2).mp hranked).1, hfingerprint⟩
    have hsame := SearchBatch.eq_of_candidateId_eq (hmem e he).1 (hmem e' he').1 heq
    rw [← (hmem e he).2, ← (hmem e' he').2, hsame]
  obtain ⟨hupdated, hkept, hfiled⟩ := update_pruning hpruning (l := duplicates.entries)
    fun e he => hdeduplicated.pruning e.1 e.2 (Dict.mem_entries.mp he)
  obtain ⟨new, hselected⟩ := selection_eq_ok hwidth hupdated hnodup hselect
  refine ⟨diverseOrder retained.values, new, hselected.reservations, hselected.limits,
    hselected.promoted.trans_le hselected.promoted_le, hselected.reserved, hselected.filed,
    hselected.filedReservation, fun c hc => ?_, fun c hc => ?_, fun c hc c' hc' => ?_⟩
  · -- pruned by the gates, as a duplicate, or decided by the selection
    have hprevious : (∃ decision, (duplicates.entries.foldl (fun d e => d.insert e.1 e.2)
        decisions).get? c.candidateId = some decision) →
        ∃ decision, s.decisions.get? c.candidateId = some decision := by
      rintro ⟨decision, hget⟩
      exact hselected.kept _ decision hget
    by_cases hpasses : PassesGates policy c targetTier
    · rcases hdeduplicated.decided c ((hranking c).mpr ⟨hc, hpasses⟩) with hvalue | ⟨decision, hget⟩
      · exact hselected.decided c (hperm.mem_iff.mpr hvalue)
      · exact hprevious (hfiled _ (Dict.mem_entries.mpr hget))
    · exact hprevious (hkept _ (hgated c hc fun hnil => hpasses (gateReasons_eq_nil.mp hnil)))
  · exact (hranking c).mp (hvalues c (hperm.mem_iff.mp hc)).2
  · exact hfingerprints c (hperm.mem_iff.mp hc) c' (hperm.mem_iff.mp hc')

variable {width : Nat} {order : List SearchCandidate} {new : List BudgetReservation} {s : Selection}
  {decisions : List SearchDecision}

/-- The decisions listed for a batch are those that are filed, in the order of the batch. -/
theorem Phases.listed (h : Phases policy batch ledger targetTier width order new s)
    (hlist : batch.candidates.mapM (decisionOf s.decisions) = .ok decisions) :
    decisions.map SearchDecision.candidateId = batch.candidates.map SearchCandidate.candidateId ∧
      (∀ d ∈ decisions, s.decisions.get? d.candidateId = some d) ∧
      ∀ c ∈ batch.candidates, ∀ d, s.decisions.get? c.candidateId = some d → d ∈ decisions := by
  have hforall := Imp.forall₂_of_mapM hlist
  clear hlist
  generalize batch.candidates = candidates at hforall
  have hfile : ∀ c d, decisionOf s.decisions c = .ok d → s.decisions.get? c.candidateId = some d := by
    intro c d hd
    rw [decisionOf] at hd
    split at hd
    · next decision hget =>
        cases hd
        exact hget
    · cases hd
  induction hforall with
  | nil => exact ⟨rfl, List.forall_mem_nil _, List.forall_mem_nil _⟩
  | @cons c d candidates decisions hd _ ih =>
      obtain ⟨hids, hfiled, hlisted⟩ := ih
      have hget := hfile c d hd
      have hid := (h.filed _ d hget).1
      refine ⟨?_, List.forall_mem_cons.mpr ⟨?_, hfiled⟩, List.forall_mem_cons.mpr ⟨fun d' hd' => ?_,
        fun c' hc' d' hd' => List.mem_cons_of_mem _ (hlisted c' hc' d' hd')⟩⟩
      · rw [List.map_cons, List.map_cons, hid, hids]
      · rw [hid]
        exact hget
      · rw [hget] at hd'
        cases hd'
        exact List.mem_cons_self

omit [Sha256] in
theorem mem_promotedIds {id : ContractId} : id ∈ promotedIds decisions ↔
    ∃ d ∈ decisions, d.disposition = .promote ∧ d.candidateId = id := by
  simp only [promotedIds, List.mem_map, List.mem_filter, decide_eq_true_eq, and_assoc]

/-- Promoted candidates are those that have a new reservation. -/
theorem Phases.perm_promotedIds (h : Phases policy batch ledger targetTier width order new s)
    (hlist : batch.candidates.mapM (decisionOf s.decisions) = .ok decisions) :
    (new.map fun r => r.candidateId).Perm (promotedIds decisions) := by
  obtain ⟨hids, hfiled, hlisted⟩ := h.listed hlist
  have hnew : (new.map fun r => r.candidateId).Nodup := by
    have hkeys := s.ledger.keysUnique
    rw [h.reservations, List.map_append] at hkeys
    have htier : new.map (fun r => (r.candidateId, r.targetTier)) =
        (new.map fun r => r.candidateId).map fun id => (id, targetTier) := by
      rw [List.map_map]
      exact List.map_congr_left fun r hr => Prod.ext rfl (h.reserved r hr).1
    rw [htier] at hkeys
    exact (List.nodup_append.mp hkeys).2.1.of_map _
  have hpromoted : (promotedIds decisions).Nodup := by
    have hsub : (promotedIds decisions).Sublist (decisions.map SearchDecision.candidateId) :=
      List.filter_sublist.map _
    exact (hids ▸ batch.nodup : (decisions.map SearchDecision.candidateId).Nodup).sublist hsub
  refine (List.perm_ext_iff_of_nodup hnew hpromoted).mpr fun id => ?_
  rw [mem_promotedIds, List.mem_map]
  constructor
  · rintro ⟨r, hr, rfl⟩
    obtain ⟨decision, hget, hpromote⟩ := h.filedReservation r hr
    obtain ⟨-, c, hc, heq, -⟩ := h.reserved r hr
    refine ⟨decision, ?_, hpromote, (h.filed _ decision hget).1⟩
    exact hlisted c (h.eligible c hc).1 decision (heq ▸ hget)
  · rintro ⟨d, hd, hpromote, rfl⟩
    obtain ⟨-, hpromoted⟩ := h.filed _ d (hfiled d hd)
    obtain ⟨-, r, hr, hcandidate, -⟩ := hpromoted hpromote
    exact ⟨r, hr, hcandidate⟩

/-- The result passes its own validation. -/
theorem Phases.resultIsComplete (h : Phases policy batch ledger targetTier width order new s)
    (hlist : batch.candidates.mapM (decisionOf s.decisions) = .ok decisions) :
    resultIsComplete decisions ((promotedIds decisions).insertionSort (· ≤ ·)) s.ledger = .ok () := by
  obtain ⟨hids, hfiled, -⟩ := h.listed hlist
  rw [Search.resultIsComplete, Imp.check_bind_eq_ok, Imp.check_bind_eq_ok, Imp.require_eq_ok,
    Imp.require_eq_ok, Imp.forEach_eq_ok, hids]
  refine ⟨⟨batch.nodup, ?_⟩, rfl, fun d hd => ?_⟩
  · exact (batch.sorted.imp fun h => le_of_lt h).insertionSort_eq.symm
  · obtain ⟨hd, hpromote⟩ := List.mem_filter.mp hd
    obtain ⟨-, hpromoted⟩ := h.filed _ d (hfiled d hd)
    obtain ⟨htier, r, hr, hcandidate, hid⟩ := hpromoted (of_decide_eq_true hpromote)
    have hmem : r ∈ s.ledger.reservations := by
      rw [h.reservations]
      exact List.mem_append_right _ hr
    rw [Imp.require_eq_ok]
    cases hfind : s.ledger.reservations.find? fun r => some r.reservationId = d.reservationId with
    | none =>
        have hnone := List.find?_eq_none.mp hfind r hmem
        rw [hid] at hnone
        exact absurd (decide_eq_true rfl) hnone
    | some r' =>
        have hid' := List.find?_some hfind
        rw [hid, decide_eq_true_eq, Option.some.injEq] at hid'
        obtain rfl := List.inj_on_of_nodup_map s.ledger.idsUnique (List.mem_of_find?_eq_some hfind) hmem
          hid'
        simp only [Option.any_some, hcandidate, (h.reserved r' hr).1, htier, decide_true, Bool.and_self]

variable [SearchDigest] {result : SearchResult}

theorem advanced_of_advance (h : advance policy batch ledger = .ok result) :
    Advanced policy batch ledger result := by
  rw [advance] at h
  obtain ⟨targetTier, htier, h⟩ := Imp.except_bind_eq_ok.mp h
  obtain ⟨⟨gateDecisions, eligible⟩, hgates, h⟩ := Imp.except_bind_eq_ok.mp h
  obtain ⟨ranking, hranked, h⟩ := Imp.except_bind_eq_ok.mp h
  obtain ⟨⟨deduplicated, duplicates⟩, hdeduplicate, h⟩ := Imp.except_bind_eq_ok.mp h
  obtain ⟨s, hselect, h⟩ := Imp.except_bind_eq_ok.mp h
  obtain ⟨decisions, hlist, h⟩ := Imp.except_bind_eq_ok.mp h
  obtain ⟨fingerprint, -, h⟩ := Imp.except_bind_eq_ok.mp h
  obtain ⟨width, hwidth⟩ := exists_width policy htier
  obtain ⟨order, new, hphases⟩ := exists_phases hwidth hgates hranked hdeduplicate hselect
  have hperm := hphases.perm_promotedIds hlist
  have hsorted := hperm.trans (List.perm_insertionSort (· ≤ ·) (promotedIds decisions)).symm
  have hpromoted : ∀ c ∈ batch.candidates,
      c.candidateId ∈ (promotedIds decisions).insertionSort (· ≤ ·) → c ∈ order := by
    intro c hc hmem
    obtain ⟨r, hr, heq⟩ := List.mem_map.mp (hsorted.mem_iff.mpr hmem)
    obtain ⟨-, c', hc', heq', -⟩ := hphases.reserved r hr
    rwa [SearchBatch.eq_of_candidateId_eq hc (hphases.eligible c' hc').1 (heq.symm.trans heq'.symm)]
  rw [SearchResult.create] at h
  split at h
  · cases h
    refine ⟨rfl, htier, ⟨new, hphases.reservations, hsorted, fun r hr => ?_⟩, hphases.limits,
      s.ledger.within, ⟨width, hwidth, ?_⟩, (hphases.listed hlist).1, fun c hc hmem => ?_,
      fun c hc c' hc' hmem hmem' => ?_⟩
    · obtain ⟨htarget, c, hc, hcandidate, hcost⟩ := hphases.reserved r hr
      exact ⟨htarget, r.identifierIsContentBound, c, (hphases.eligible c hc).1, hcandidate, hcost⟩
    · have hlength := hsorted.length_eq
      rw [List.length_map] at hlength
      rw [← hlength]
      exact hphases.width
    · exact (hphases.eligible c (hpromoted c hc hmem)).2
    · exact hphases.fingerprints c (hpromoted c hc hmem) c' (hpromoted c' hc' hmem')
  · cases h

/-- A search raises what its phases raise: a result never fails its own validation. -/
theorem raisesOnly_advance_of {P : Exc → Prop} (htier : nextTier batch.tier = .ok targetTier)
    (hgates : Imp.RaisesOnly P (batch.candidates.foldlM (gateStep policy targetTier) (Dict.empty, [])))
    (hranked : ∀ eligible, (∀ c ∈ eligible, c ∈ batch.candidates) → Imp.RaisesOnly P (ranked policy eligible))
    (hdeduplicate : ∀ ranking, (∀ c ∈ ranking, c ∈ batch.candidates) →
      Imp.RaisesOnly P (deduplicate policy ranking))
    (hselect : ∀ (order : List SearchCandidate) decisions, (∀ c ∈ order, c ∈ batch.candidates) →
      Imp.RaisesOnly P (order.foldlM (select policy targetTier) ⟨ledger, 0, decisions⟩))
    (hdigest : Imp.RaisesOnly P ((SearchDigest.batch batch).mapError .valueError)) :
    Imp.RaisesOnly P (advance policy batch ledger) := by
  obtain ⟨width, hwidth⟩ := exists_width policy htier
  refine Imp.raisesOnly_bind_of_ok htier ?_
  refine Imp.raisesOnly_bind hgates fun gates hgates => ?_
  have heligible : ∀ c ∈ gates.2, c ∈ batch.candidates := fun c hc => by
    rw [(gates_eq_ok hgates).1] at hc
    exact List.mem_of_mem_filter hc
  refine Imp.raisesOnly_bind (hranked gates.2 heligible) fun ranking hranked => ?_
  have hranking : ∀ c ∈ ranking, c ∈ batch.candidates := fun c hc =>
    heligible c ((ranked_perm hranked).mem_iff.mp hc)
  refine Imp.raisesOnly_bind (hdeduplicate ranking hranking) fun dedup hdeduplicate => ?_
  have horder : ∀ c ∈ diverseOrder dedup.1, c ∈ batch.candidates := by
    intro c hc
    obtain ⟨retained, hvalues, hdeduplicated⟩ := deduplicate_eq_ok hdeduplicate
    rw [(diverseOrder_perm _).mem_iff, hvalues] at hc
    obtain ⟨fingerprint, hentry⟩ := Dict.mem_values.mp hc
    exact hranking c (hdeduplicated.fingerprint fingerprint c (Dict.mem_entries.mp hentry)).2
  refine Imp.raisesOnly_bind (hselect _ _ horder) fun s hs => ?_
  obtain ⟨order, new, hphases⟩ := exists_phases hwidth hgates hranked hdeduplicate hs
  have hdecided : ∃ decisions, batch.candidates.mapM (decisionOf s.decisions) = .ok decisions := by
    have hall := hphases.decided
    generalize batch.candidates = candidates at hall
    induction candidates with
    | nil => exact ⟨[], rfl⟩
    | cons c candidates ih =>
        obtain ⟨⟨d, hd⟩, hrest⟩ := List.forall_mem_cons.mp hall
        obtain ⟨decisions, hdecisions⟩ := ih hrest
        refine ⟨d :: decisions, ?_⟩
        rw [List.mapM_cons, decisionOf, hd, hdecisions]
        rfl
  obtain ⟨decisions, hlist⟩ := hdecided
  refine Imp.raisesOnly_bind_of_ok hlist ?_
  refine Imp.raisesOnly_bind hdigest fun fingerprint _ => ?_
  rw [SearchResult.create]
  split
  · exact Imp.raisesOnly_ok
  · next e he =>
      rw [hphases.resultIsComplete hlist] at he
      cases he

/-- A search raises only for input that it does not accept. -/
theorem raisesOnly_advance : Imp.RaisesOnly Exc.IsRejection (advance policy batch ledger) := by
  obtain ⟨targetTier, htier⟩ := exists_nextTier batch
  obtain ⟨width, hwidth⟩ := exists_width policy htier
  refine raisesOnly_advance_of htier (Imp.raisesOnly_foldlM raisesOnly_gateStep)
    (fun eligible _ => raisesOnly_ranked eligible) (fun ranking hranking => raisesOnly_deduplicate ?_)
    (fun order decisions _ => Imp.raisesOnly_foldlM fun _ _ => raisesOnly_select hwidth)
    (raisesOnly_mapError _)
  intro c hc
  rw [batch.oneTier c (hranking c hc)]
  exact batch.promotable

/-! ## Runs -/

/-- A search of a run: what it was called with and how it ended. -/
structure Entry where
  policy : BeamSearchPolicy
  batch : SearchBatch
  before : BudgetLedger
  outcome : Except Exc SearchResult

/-- The ledger after a search: that of its result, if it has one. -/
def Entry.after (e : Entry) : BudgetLedger :=
  match e.outcome with
  | .ok result => result.ledger
  | .error _ => e.before

/-- The pairs of a candidate and a tier that a search promotes. -/
def Entry.promotions (e : Entry) : List (ContractId × WorldTier) :=
  match e.outcome with
  | .ok result => result.promotedCandidateIds.map fun id => (id, result.targetTier)
  | .error _ => []

/-- Searches one after another, each with the ledger of the one before. -/
def run : BudgetLedger → List (BeamSearchPolicy × SearchBatch) → List Entry
  | _, [] => []
  | ledger, (policy, batch) :: calls =>
      let e : Entry := ⟨policy, batch, ledger, advance policy batch ledger⟩
      e :: run e.after calls

theorem mem_run {ledger : BudgetLedger} {calls : List (BeamSearchPolicy × SearchBatch)} {e : Entry}
    (he : e ∈ run ledger calls) : e.outcome = advance e.policy e.batch e.before := by
  induction calls generalizing ledger with
  | nil => cases he
  | cons call calls ih =>
      obtain ⟨policy, batch⟩ := call
      rcases List.mem_cons.mp he with rfl | he
      · rfl
      · exact ih he

/-- The keys of the ledger after a search are those before it and the promotions. -/
theorem keys_after {e : Entry} (he : e.outcome = advance e.policy e.batch e.before) :
    e.after.keys.Perm (e.before.keys ++ e.promotions) := by
  rw [Entry.after, Entry.promotions]
  cases houtcome : e.outcome with
  | error _ => exact List.Perm.of_eq (List.append_nil _).symm
  | ok result =>
      obtain ⟨new, hreservations, hperm, hnew⟩ := (advanced_of_advance (he.symm.trans houtcome)).reserved
      simp only [BudgetLedger.keys, hreservations, List.map_append]
      refine List.Perm.append_left _ ?_
      have htier : new.map (fun r => (r.candidateId, r.targetTier)) =
          (new.map fun r => r.candidateId).map fun id => (id, result.targetTier) := by
        rw [List.map_map]
        exact List.map_congr_left fun r hr => Prod.ext rfl (hnew r hr).1
      rw [htier]
      exact hperm.map _

/-- No pair is promoted that was reserved before, or by an earlier search of the run. -/
theorem nodup_promotions (ledger : BudgetLedger) (calls : List (BeamSearchPolicy × SearchBatch)) :
    (ledger.keys ++ (run ledger calls).flatMap Entry.promotions).Nodup := by
  induction calls generalizing ledger with
  | nil =>
      rw [run, List.flatMap_nil, List.append_nil]
      exact ledger.keysUnique
  | cons call calls ih =>
      obtain ⟨policy, batch⟩ := call
      rw [run, List.flatMap_cons, ← List.append_assoc]
      have hkeys := keys_after (e := ⟨policy, batch, ledger, advance policy batch ledger⟩) rfl
      exact (hkeys.append_right _).nodup_iff.mp (ih _)

/-- Over every run of searches: each result does what a search is to do, no result fails its own
validation, and no candidate is reserved for a tier twice. -/
theorem search_spec (ledger : BudgetLedger) (calls : List (BeamSearchPolicy × SearchBatch)) :
    (∀ e ∈ run ledger calls, ∀ result, e.outcome = .ok result →
      Advanced e.policy e.batch e.before result) ∧
    (∀ e ∈ run ledger calls, ∀ message,
      e.outcome ≠ .error (.validationError .searchResult message)) ∧
    (ledger.keys ++ (run ledger calls).flatMap Entry.promotions).Nodup := by
  refine ⟨fun e he result houtcome => ?_, fun e he message houtcome => ?_, nodup_promotions ledger calls⟩
  · exact advanced_of_advance ((mem_run he).symm.trans houtcome)
  · exact (raisesOnly_advance _ ((mem_run he).symm.trans houtcome)).2 message rfl

end StateWeaver.Search
