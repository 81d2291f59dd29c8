import StateWeaver.Search.Models

/-!
# The search controller

One pass over a batch: gates, ranking, deduplication by fingerprint, diversity, beam width and budget,
in that order.
-/

namespace StateWeaver.Search

open Contracts

/-- `_NEXT_TIER`. -/
def nextTier : WorldTier → Except Exc WorldTier
  | .ghost => .ok .replay
  | .replay => .ok .simulated
  | .simulated => .ok .materialized
  | .materialized => .error .keyError

/-! ## Gates -/

/-- A reason, if it applies. -/
def reasonIf (b : Bool) (reason : ReasonCode) : List ReasonCode := if b then [reason] else []

/-- Whether the fragments of a candidate have evidence that the gates know. -/
def fragmentsAreEvidenceBound (candidate : SearchCandidate) : Bool :=
  let fragments := candidate.transitionFragments
  let fragmentEvidence := fragments.flatMap fun fragment => fragment.evidenceIds
  !fragments.isEmpty && fragmentEvidence.all (fun id => candidate.gates.evidenceIds.items.contains id) &&
    fragments.all fun fragment =>
      !fragment.evidenceIds.isEmpty && fragment.source ≠ .hypothesized && fragment.source ≠ .unknown

/-- `_gate_reasons`. -/
def gateReasons (policy : BeamSearchPolicy) (candidate : SearchCandidate) (targetTier : WorldTier) :
    List ReasonCode :=
  let gates := candidate.gates
  let reasons :=
    reasonIf (!gates.inScope) .outOfScope ++
    reasonIf (gates.policyOutcome = .deny) .policyDenied ++
    reasonIf (gates.policyOutcome = .requireApproval && gates.approvalRef.isNone)
      .nonReversibleActionNotApproved ++
    reasonIf (!gates.reversible && gates.approvalRef.isNone) .nonReversibleActionNotApproved ++
    reasonIf (!gates.requiredCapabilities.items.all (gates.availableCapabilities.items.contains ·))
      .unsupportedAdapterCapability ++
    reasonIf (gates.newFactCount = 0) .noNewFacts ++
    reasonIf (candidate.scores.fidelity.val < policy.minimumFidelity.val && !gates.calibrationPath)
      .lowFidelityWithoutCalibrationPath ++
    reasonIf (policy.repeatedNondeterminismLimit ≤ gates.repeatedNondeterminism)
      .repeatedNondeterminism ++
    if targetTier = .materialized then
      reasonIf (gates.evidenceIds.items.isEmpty || !fragmentsAreEvidenceBound candidate)
        .missingEvidence ++
      reasonIf gates.actionPlanRefs.items.isEmpty .missingActionPlan ++
      reasonIf gates.expectedObservations.isEmpty .missingExpectedObservation ++
      reasonIf gates.oracleRefs.items.isEmpty .missingMachineOracle ++
      reasonIf (!gates.snapshotCapable) .missingSnapshotCapability
    else []
  reasons.eraseDups

/-! ## Order -/

/-- `_priority`. -/
def priority (policy : BeamSearchPolicy) (candidate : SearchCandidate) : Float :=
  candidate.scores.priority candidate.uncertainty.val policy.uncertaintyBonus.val

/-- What candidates are sorted by: the negated priority, a digest and the identifier. -/
structure RankKey where
  negatedPriority : Float
  digest : Sha256Digest
  candidateId : ContractId

/-- Whether a key is at most another, compared as tuples. -/
def RankKey.le (a b : RankKey) : Bool :=
  a.negatedPriority < b.negatedPriority ||
    (a.negatedPriority == b.negatedPriority &&
      (a.digest < b.digest || (a.digest == b.digest && a.candidateId ≤ b.candidateId)))

/-- What breaks ties: the digest of the seed and the identifier. -/
def tieValue (policy : BeamSearchPolicy) (candidate : SearchCandidate) : Value :=
  .mapping
    [(some "seed", .scalar (.int policy.seed)),
      (some "candidate_id", .scalar (.str candidate.candidateId.val))]

variable [Sha256]

def rankKey (policy : BeamSearchPolicy) (candidate : SearchCandidate) : Except Exc RankKey := do
  let digest ← (digestOf (tieValue policy candidate)).mapError .valueError
  return ⟨-priority policy candidate, digest, candidate.candidateId⟩

/-- `_ranked`. -/
def ranked (policy : BeamSearchPolicy) (candidates : List SearchCandidate) :
    Except Exc (List SearchCandidate) := do
  let keyed ← candidates.mapM fun candidate => do return (← rankKey policy candidate, candidate)
  return (keyed.insertionSort fun a b => a.1.le b.1 = true).map Prod.snd

omit [Sha256] in
/-- `_pruned`. -/
def pruned (policy : BeamSearchPolicy) (candidate : SearchCandidate) (targetTier : WorldTier)
    (reasons : List ReasonCode) (deduplicatedTo : Option ContractId) : Except Exc SearchDecision :=
  SearchDecision.create candidate.candidateId candidate.tier targetTier .prune reasons
    (priority policy candidate) none deduplicatedTo

omit [Sha256] in
/-- `_cost_tuple`. -/
def costTuple (candidate : SearchCandidate) : List Nat :=
  let cost := candidate.promotionCost
  [cost.targetRequests, cost.writeRequests, cost.cpuSeconds, cost.llmCalls]

/-- The decisions so far, by candidate. -/
abbrev Decisions := Dict ContractId SearchDecision

omit [Sha256] in
/-- One candidate of `_deduplicate`: the first one with a fingerprint is retained. -/
def deduplicateStep (policy : BeamSearchPolicy)
    (state : Dict Sha256Digest SearchCandidate × Decisions) (candidate : SearchCandidate) :
    Except Exc (Dict Sha256Digest SearchCandidate × Decisions) := do
  let (retained, duplicates) := state
  match retained.get? candidate.stateFingerprint with
  | none => return (retained.insert candidate.stateFingerprint candidate, duplicates)
  | some winner => do
      let reason :=
        if costTuple winner ≤ costTuple candidate then .dominatedByCheaperWorld else .duplicateState
      let targetTier ← nextTier candidate.tier
      let decision ← pruned policy candidate targetTier [reason] (some winner.candidateId)
      return (retained, duplicates.insert candidate.candidateId decision)

omit [Sha256] in
/-- `_deduplicate`. -/
def deduplicate (policy : BeamSearchPolicy) (ranked : List SearchCandidate) :
    Except Exc (List SearchCandidate × Decisions) := do
  let (retained, duplicates) ← ranked.foldlM (deduplicateStep policy) (Dict.empty, Dict.empty)
  return (retained.values, duplicates)

omit [Sha256] in
/-- `_diverse_order`: the candidates that come first with their diversity key, then the others. -/
def diverseOrder (ranked : List SearchCandidate) : List SearchCandidate :=
  let order := ranked.foldl
    (fun (first, deferred, seen) candidate =>
      if candidate.diversityKey ∈ seen then (first, deferred ++ [candidate], seen)
      else (first ++ [candidate], deferred, seen ++ [candidate.diversityKey]))
    (([], [], []) : List SearchCandidate × List SearchCandidate × List ContractId)
  order.1 ++ order.2.1

/-! ## Selection -/

/-- The variables of the loop that selects. -/
structure Selection where
  ledger : BudgetLedger
  promoted : Nat
  decisions : Decisions

/-- One candidate of the loop that selects. -/
def select (policy : BeamSearchPolicy) (targetTier : WorldTier) (s : Selection)
    (candidate : SearchCandidate) : Except Exc Selection := do
  let prune := fun (reason : ReasonCode) => do
    let decision ← pruned policy candidate targetTier [reason] none
    return { s with decisions := s.decisions.insert candidate.candidateId decision }
  let width ← policy.width targetTier
  if width ≤ s.promoted then prune .beamCapacity
  else if s.ledger.hasReservation candidate.candidateId targetTier then prune .alreadyPromoted
  else if s.ledger.canReserve targetTier candidate.promotionCost candidate.candidateId = false then
    prune .budgetExceeded
  else do
    let ledger ← s.ledger.reserve candidate.candidateId targetTier candidate.promotionCost
    let decision ← SearchDecision.create candidate.candidateId candidate.tier targetTier .promote
      [.promoted] (priority policy candidate)
      (ledger.reservations.getLast?.map BudgetReservation.reservationId) none
    return ⟨ledger, s.promoted + 1, s.decisions.insert candidate.candidateId decision⟩

omit [Sha256] in
/-- The loop over the gates. -/
def gateStep (policy : BeamSearchPolicy) (targetTier : WorldTier)
    (state : Decisions × List SearchCandidate) (candidate : SearchCandidate) :
    Except Exc (Decisions × List SearchCandidate) := do
  let (decisions, eligible) := state
  let reasons := gateReasons policy candidate targetTier
  if reasons ≠ [] then
    let decision ← pruned policy candidate targetTier reasons none
    return (decisions.insert candidate.candidateId decision, eligible)
  else return (decisions, eligible ++ [candidate])

omit [Sha256] in
/-- `decisions[candidate_id]`. -/
def decisionOf (decisions : Decisions) (candidate : SearchCandidate) : Except Exc SearchDecision :=
  match decisions.get? candidate.candidateId with
  | some decision => .ok decision
  | none => .error .keyError

/-- `TieredSearchController.advance`. -/
def advance [SearchDigest] (policy : BeamSearchPolicy) (batch : SearchBatch) (ledger : BudgetLedger) :
    Except Exc SearchResult := do
  let sourceTier := batch.tier
  let targetTier ← nextTier sourceTier
  let (decisions, eligible) ← batch.candidates.foldlM (gateStep policy targetTier) (Dict.empty, [])
  let ranking ← ranked policy eligible
  let (deduplicated, duplicates) ← deduplicate policy ranking
  let updated := duplicates.entries.foldl (fun d e => d.insert e.1 e.2) decisions
  let selection ← (diverseOrder deduplicated).foldlM (select policy targetTier) ⟨ledger, 0, updated⟩
  let canonicalDecisions ← batch.candidates.mapM (decisionOf selection.decisions)
  let inputFingerprint ← (SearchDigest.batch batch).mapError .valueError
  SearchResult.create sourceTier targetTier canonicalDecisions
    ((promotedIds canonicalDecisions).insertionSort (· ≤ ·)) selection.ledger inputFingerprint

end StateWeaver.Search
