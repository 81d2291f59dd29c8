import StateWeaver.Contracts.Digests
import StateWeaver.Contracts.Identifiers
import StateWeaver.Contracts.StateIr

/-!
# Candidates, budgets and results of search

A budget ledger is an append-only list of reservations within fixed limits. A reservation is bound to
its content by its identifier, a part of a digest. The models carry what their validators check as
fields; `create` checks it and says which model raised.
-/

namespace StateWeaver.Search

open Contracts

/-- The models whose validation can fail in a search. -/
inductive Model where
  | budgetReservation | budgetLedger | searchDecision | searchResult
  deriving DecidableEq

/-- The exceptions of a search. -/
inductive Exc where
  /-- A `pydantic.ValidationError` of a model, with the text of the first failing check. -/
  | validationError (model : Model) (message : String)
  | valueError (message : String)
  | keyError
  deriving DecidableEq

/-! ## Tiers and costs -/

inductive WorldTier where
  | ghost | replay | simulated | materialized
  deriving DecidableEq

def WorldTier.value : WorldTier → String
  | .ghost => "ghost"
  | .replay => "replay"
  | .simulated => "simulated"
  | .materialized => "materialized"

/-- All tiers, in the order in which an enumeration lists them. -/
def WorldTier.all : List WorldTier := [.ghost, .replay, .simulated, .materialized]

theorem WorldTier.mem_all (tier : WorldTier) : tier ∈ WorldTier.all := by
  cases tier <;> decide

structure PromotionCost where
  llmCalls : Nat := 0
  targetRequests : Nat := 0
  writeRequests : Nat := 0
  cpuSeconds : Nat := 0
  deriving DecidableEq

def PromotionCost.toValue (cost : PromotionCost) : Value :=
  .mapping
    [(some "llm_calls", .scalar (.int cost.llmCalls)),
      (some "target_requests", .scalar (.int cost.targetRequests)),
      (some "write_requests", .scalar (.int cost.writeRequests)),
      (some "cpu_seconds", .scalar (.int cost.cpuSeconds))]

/-! ## Reservations -/

/-- What a reservation is for. -/
structure ReservationContent where
  candidateId : ContractId
  targetTier : WorldTier
  sequence : Nat
  cost : PromotionCost
  deriving DecidableEq

def ReservationContent.toValue (content : ReservationContent) : Value :=
  .mapping
    [(some "candidate_id", .scalar (.str content.candidateId.val)),
      (some "target_tier", .enum content.targetTier.value),
      (some "sequence", .scalar (.int content.sequence)),
      (some "cost", content.cost.toValue)]

/-- The first 24 hexadecimal digits of a digest, with a tag. -/
def reservationText (digest : Sha256Digest) : String :=
  "reservation." ++ String.ofList ((digest.val.toList.drop 7).take 24)

theorem isContractId_reservationText (digest : Sha256Digest) :
    isContractId (reservationText digest) = true :=
  isContractId_taggedDigits (by decide) (by decide) (by decide) (by decide) (by decide) digest

variable [Sha256]

/-- `_reservation_id`. -/
def reservationId (content : ReservationContent) : Except String ContractId := do
  let digest ← digestOf content.toValue
  return ⟨reservationText digest, isContractId_reservationText digest⟩

/-- A reservation. Its identifier binds its content. -/
structure BudgetReservation extends ReservationContent where
  reservationId : ContractId
  sequencePositive : 1 ≤ sequence
  identifierIsContentBound : Search.reservationId toReservationContent = .ok reservationId

theorem BudgetReservation.ext_content {r r' : BudgetReservation}
    (h : r.toReservationContent = r'.toReservationContent) : r = r' := by
  obtain ⟨content, id, hpositive, hid⟩ := r
  obtain ⟨content', id', hpositive', hid'⟩ := r'
  obtain rfl : content = content' := h
  obtain rfl := Except.ok.inj (hid.symm.trans hid')
  rfl

def BudgetReservation.create (reservationId : ContractId) (content : ReservationContent) :
    Except Exc BudgetReservation :=
  match hid : Search.reservationId content with
  | .error e => .error (.validationError .budgetReservation e)
  | .ok expected =>
      if h : 1 ≤ content.sequence ∧ reservationId = expected then
        .ok ⟨content, reservationId, h.1, h.2 ▸ hid⟩
      else .error (.validationError .budgetReservation
        "budget reservation ID must bind its immutable content")

/-! ## Ledgers -/

structure BudgetLimits where
  maxLlmCalls : Nat
  maxTargetRequests : Nat
  maxWriteRequests : Nat
  maxCpuSeconds : Nat
  maxGhost : Nat := 64
  maxReplay : Nat := 16
  maxSimulated : Nat := 8
  maxMaterialized : Nat := 4
  deriving DecidableEq

def BudgetLimits.tierLimit (limits : BudgetLimits) : WorldTier → Nat
  | .ghost => limits.maxGhost
  | .replay => limits.maxReplay
  | .simulated => limits.maxSimulated
  | .materialized => limits.maxMaterialized

structure BudgetUsage where
  llmCalls : Nat
  targetRequests : Nat
  writeRequests : Nat
  cpuSeconds : Nat
  ghostWorlds : Nat
  replayWorlds : Nat
  simulatedWorlds : Nat
  materializedWorlds : Nat

def BudgetUsage.tierCount (usage : BudgetUsage) : WorldTier → Nat
  | .ghost => usage.ghostWorlds
  | .replay => usage.replayWorlds
  | .simulated => usage.simulatedWorlds
  | .materialized => usage.materializedWorlds

/-- `usage` of the ledger of some reservations. -/
def usage (reservations : List BudgetReservation) : BudgetUsage where
  llmCalls := (reservations.map fun item => item.cost.llmCalls).sum
  targetRequests := (reservations.map fun item => item.cost.targetRequests).sum
  writeRequests := (reservations.map fun item => item.cost.writeRequests).sum
  cpuSeconds := (reservations.map fun item => item.cost.cpuSeconds).sum
  ghostWorlds := reservations.countP fun item => item.targetTier = .ghost
  replayWorlds := reservations.countP fun item => item.targetTier = .replay
  simulatedWorlds := reservations.countP fun item => item.targetTier = .simulated
  materializedWorlds := reservations.countP fun item => item.targetTier = .materialized

omit [Sha256] in
/-- `_fits`. -/
def fits (limits : BudgetLimits) (usage : BudgetUsage) (addition : Option (WorldTier × PromotionCost)) :
    Bool :=
  let tier := addition.map Prod.fst
  let cost := (addition.map Prod.snd).getD {}
  usage.llmCalls + cost.llmCalls ≤ limits.maxLlmCalls &&
    usage.targetRequests + cost.targetRequests ≤ limits.maxTargetRequests &&
    usage.writeRequests + cost.writeRequests ≤ limits.maxWriteRequests &&
    usage.cpuSeconds + cost.cpuSeconds ≤ limits.maxCpuSeconds &&
    WorldTier.all.all fun item =>
      usage.tierCount item + (if tier = some item then 1 else 0) ≤ limits.tierLimit item

/-- An append-only ledger: numbered reservations without repetition, within limits. -/
structure BudgetLedger where
  limits : BudgetLimits
  reservations : List BudgetReservation
  sequences : reservations.map (fun item => item.sequence) = List.range' 1 reservations.length
  idsUnique : (reservations.map BudgetReservation.reservationId).Nodup
  keysUnique : (reservations.map fun item => (item.candidateId, item.targetTier)).Nodup
  withinLimits : fits limits (usage reservations) none = true

def BudgetLedger.create (limits : BudgetLimits) (reservations : List BudgetReservation) :
    Except Exc BudgetLedger :=
  if hsequences : reservations.map (fun item => item.sequence) =
      List.range' 1 reservations.length then
    if hunique : (reservations.map BudgetReservation.reservationId).Nodup ∧
        (reservations.map fun item => (item.candidateId, item.targetTier)).Nodup then
      if hlimits : fits limits (usage reservations) none = true then
        .ok ⟨limits, reservations, hsequences, hunique.1, hunique.2, hlimits⟩
      else .error (.validationError .budgetLedger "budget ledger cannot contain overspent history")
    else .error (.validationError .budgetLedger "budget reservations must be unique")
  else .error (.validationError .budgetLedger "budget reservation sequence must be contiguous")

/-- Whether a candidate has a reservation for a tier. -/
def BudgetLedger.hasReservation (ledger : BudgetLedger) (candidateId : ContractId)
    (targetTier : WorldTier) : Bool :=
  ledger.reservations.any fun item => item.candidateId = candidateId && item.targetTier = targetTier

/-- `can_reserve`, for a candidate. -/
def BudgetLedger.canReserve (ledger : BudgetLedger) (targetTier : WorldTier) (cost : PromotionCost)
    (candidateId : ContractId) : Bool :=
  !ledger.hasReservation candidateId targetTier &&
    fits ledger.limits (usage ledger.reservations) (some (targetTier, cost))

def BudgetLedger.reserve (ledger : BudgetLedger) (candidateId : ContractId) (targetTier : WorldTier)
    (cost : PromotionCost) : Except Exc BudgetLedger := do
  Imp.require (ledger.canReserve targetTier cost candidateId = true)
    (.valueError "budget reservation exceeds an immutable limit")
  let content : ReservationContent :=
    ⟨candidateId, targetTier, ledger.reservations.length + 1, cost⟩
  let id ← (reservationId content).mapError .valueError
  let reservation ← BudgetReservation.create id content
  BudgetLedger.create ledger.limits (ledger.reservations ++ [reservation])

/-! ## Candidates -/

/-- A float from 0 to 1. -/
structure Probability where
  val : Float
  inRange : 0.0 ≤ val ∧ val ≤ 1.0

/-- A float from 0.001 to 1. -/
structure PositiveScore where
  val : Float
  inRange : 0.001 ≤ val ∧ val ≤ 1.0

/-- The values of the scores of a candidate. -/
structure SearchScores where
  boundaryImpact : Probability
  informationGain : Probability
  novelty : Probability
  composability : Probability
  fidelity : Probability
  reachability : Probability
  normalizedCost : PositiveScore
  operationalRisk : PositiveScore

def SearchScores.priority (scores : SearchScores) (uncertainty uncertaintyBonus : Float) : Float :=
  let numerator := scores.boundaryImpact.val * scores.informationGain.val * scores.novelty.val *
    scores.composability.val * scores.fidelity.val * scores.reachability.val
  numerator * (1.0 + uncertainty * uncertaintyBonus) /
    (scores.normalizedCost.val * scores.operationalRisk.val)

inductive PolicyGateOutcome where
  | allow | deny | requireApproval
  deriving DecidableEq

/-- References, sorted and without repetition. -/
structure References (pattern : String → Bool) where
  items : List (Constrained pattern)
  sorted : items.Pairwise (· < ·)

structure PromotionGates where
  inScope : Bool
  policyOutcome : PolicyGateOutcome
  approvalRef : Option ContractId := none
  reversible : Bool
  actionPlanRefs : References isContractId
  expectedObservations : List StateCondition
  oracleRefs : References isContractId
  evidenceIds : References isContractId
  requiredCapabilities : References isName
  availableCapabilities : References isName
  snapshotCapable : Bool
  newFactCount : Nat
  calibrationPath : Bool
  repeatedNondeterminism : Nat := 0
  /-- Only a gate that requires approval has one. -/
  approvalCoherent : policyOutcome ≠ .requireApproval → approvalRef = none

/-- A proposed state. `diversityKey` has the pattern of an identifier. -/
structure SearchCandidate where
  candidateId : ContractId
  tier : WorldTier
  stateFingerprint : Sha256Digest
  diversityKey : ContractId
  scores : SearchScores
  uncertainty : Probability
  transitionFragments : List TransitionFragment
  gates : PromotionGates
  promotionCost : PromotionCost

/-- Candidates of one tier that can be promoted, sorted by their identifiers. -/
structure SearchBatch where
  candidates : List SearchCandidate
  tier : WorldTier
  nonempty : candidates ≠ []
  sorted : (candidates.map SearchCandidate.candidateId).Pairwise (· < ·)
  oneTier : ∀ candidate ∈ candidates, candidate.tier = tier
  promotable : tier ≠ .materialized

structure BeamSearchPolicy where
  seed : Nat := 0
  replayWidth : Nat := 8
  simulatedWidth : Nat := 4
  materializedWidth : Nat := 2
  uncertaintyBonus : Probability
  minimumFidelity : Probability
  repeatedNondeterminismLimit : Nat := 2
  widthsInRange : (1 ≤ replayWidth ∧ replayWidth ≤ 64) ∧ (1 ≤ simulatedWidth ∧ simulatedWidth ≤ 32) ∧
    (1 ≤ materializedWidth ∧ materializedWidth ≤ 16)
  limitInRange : 1 ≤ repeatedNondeterminismLimit ∧ repeatedNondeterminismLimit ≤ 100

def BeamSearchPolicy.width (policy : BeamSearchPolicy) : WorldTier → Except Exc Nat
  | .replay => .ok policy.replayWidth
  | .simulated => .ok policy.simulatedWidth
  | .materialized => .ok policy.materializedWidth
  | .ghost => .error .keyError

/-! ## Decisions -/

inductive DecisionDisposition where
  | promote | prune
  deriving DecidableEq

inductive ReasonCode where
  | promoted | outOfScope | policyDenied | duplicateState | dominatedByCheaperWorld | noNewFacts
  | lowFidelityWithoutCalibrationPath | unsupportedAdapterCapability | budgetExceeded
  | nonReversibleActionNotApproved | repeatedNondeterminism | missingEvidence | missingActionPlan
  | missingExpectedObservation | missingMachineOracle | missingSnapshotCapability | beamCapacity
  | alreadyPromoted
  deriving DecidableEq

/-- `decision_shape_is_coherent`. -/
def decisionShapeIsCoherent (disposition : DecisionDisposition) (reasonCodes : List ReasonCode)
    (reservationId deduplicatedTo : Option ContractId) : Except String Unit := do
  Imp.require (reasonCodes ≠ [] ∧ reasonCodes.Nodup)
    "search decision reason codes must be nonempty and unique"
  match disposition with
  | .promote => do
      Imp.require (reasonCodes = [.promoted] ∧ reservationId.isSome)
        "promotions require exactly one promotion reason and reservation"
      Imp.require (deduplicatedTo = none) "promoted candidates cannot be deduplicated"
  | .prune => Imp.require (reservationId = none) "pruned candidates cannot consume budget"
  let deduplicationReason := reasonCodes.any fun reason =>
    reason = .duplicateState || reason = .dominatedByCheaperWorld
  Imp.require (deduplicationReason = deduplicatedTo.isSome)
    "deduplication reason and target must be coherent"

/-- What became of a candidate. -/
structure SearchDecision where
  candidateId : ContractId
  sourceTier : WorldTier
  targetTier : WorldTier
  disposition : DecisionDisposition
  reasonCodes : List ReasonCode
  priority : Float
  reservationId : Option ContractId := none
  deduplicatedTo : Option ContractId := none
  priorityInRange : 0.0 ≤ priority ∧ priority ≤ 1000000000.0
  shapeIsCoherent :
    decisionShapeIsCoherent disposition reasonCodes reservationId deduplicatedTo = .ok ()

def SearchDecision.create (candidateId : ContractId) (sourceTier targetTier : WorldTier)
    (disposition : DecisionDisposition) (reasonCodes : List ReasonCode) (priority : Float)
    (reservationId deduplicatedTo : Option ContractId) : Except Exc SearchDecision :=
  if hpriority : 0.0 ≤ priority ∧ priority ≤ 1000000000.0 then
    match hshape : decisionShapeIsCoherent disposition reasonCodes reservationId deduplicatedTo with
    | .ok () => .ok ⟨candidateId, sourceTier, targetTier, disposition, reasonCodes, priority,
        reservationId, deduplicatedTo, hpriority, hshape⟩
    | .error e => .error (.validationError .searchDecision e)
  else .error (.validationError .searchDecision
    (if priority ≤ 1000000000.0 then "Input should be greater than or equal to 0"
      else "Input should be less than or equal to 1000000000"))

/-! ## Results -/

/-- The candidates that are promoted by some decisions. -/
def promotedIds (decisions : List SearchDecision) : List ContractId :=
  (decisions.filter fun item => item.disposition = .promote).map SearchDecision.candidateId

/-- `result_is_complete`. -/
def resultIsComplete (decisions : List SearchDecision) (promotedCandidateIds : List ContractId)
    (ledger : BudgetLedger) : Except String Unit := do
  let identifiers := decisions.map SearchDecision.candidateId
  Imp.require (identifiers.Nodup ∧ identifiers = identifiers.insertionSort (· ≤ ·))
    "search decisions must be unique and canonical"
  Imp.require ((promotedIds decisions).insertionSort (· ≤ ·) = promotedCandidateIds)
    "promoted candidate index is inconsistent"
  Imp.forEach (decisions.filter fun item => item.disposition = .promote) fun item =>
    let reservation := ledger.reservations.find? fun r => some r.reservationId = item.reservationId
    Imp.require
      (reservation.any (fun r => r.candidateId = item.candidateId && r.targetTier = item.targetTier) =
        true)
      "promoted decisions must bind an immutable budget reservation"

structure SearchResult where
  sourceTier : WorldTier
  targetTier : WorldTier
  decisions : List SearchDecision
  promotedCandidateIds : List ContractId
  ledger : BudgetLedger
  inputFingerprint : Sha256Digest
  isComplete : resultIsComplete decisions promotedCandidateIds ledger = .ok ()

def SearchResult.create (sourceTier targetTier : WorldTier) (decisions : List SearchDecision)
    (promotedCandidateIds : List ContractId) (ledger : BudgetLedger)
    (inputFingerprint : Sha256Digest) : Except Exc SearchResult :=
  match hcomplete : resultIsComplete decisions promotedCandidateIds ledger with
  | .ok () => .ok ⟨sourceTier, targetTier, decisions, promotedCandidateIds, ledger,
      inputFingerprint, hcomplete⟩
  | .error e => .error (.validationError .searchResult e)

/-- `sha256_digest` of a batch, which raises a `ValueError` for one that has no JSON text. -/
class SearchDigest where
  batch : SearchBatch → Except String Sha256Digest

end StateWeaver.Search
