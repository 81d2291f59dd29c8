import Mathlib
import StateWeaver.Search.Ledger
import StateWeaver.StateChainBench.Systems

/-!
# The tiered solver

Each level plans every action of every path of the frontier, promotes some of these expansions and
executes them. A feature can be disabled: the distance to the goal, the worlds, the comparison of
states, the levels after the first, the evaluation or the search controller.
-/

namespace StateWeaver.StateChainBench

open Contracts

/-! ## Configuration -/

inductive AblationFeature where
  | semanticTwin | worldTiers | stateFingerprintDedup | chainCompiler | realityAnchor | budgetAwareScheduler
  deriving DecidableEq

def AblationFeature.value : AblationFeature → String
  | .semanticTwin => "semantic_twin"
  | .worldTiers => "world_tiers"
  | .stateFingerprintDedup => "state_fingerprint_dedup"
  | .chainCompiler => "chain_compiler"
  | .realityAnchor => "reality_anchor"
  | .budgetAwareScheduler => "budget_aware_scheduler"

/-- The disabled features, in the order of their values. -/
structure AblationSpec where
  disabled : List AblationFeature
  sorted : (disabled.map AblationFeature.value).Pairwise (· < ·)

def AblationSpec.has (spec : AblationSpec) (feature : AblationFeature) : Bool := feature ∈ spec.disabled

structure StateWeaverTieredSystem where
  seed : Nat := 0
  beamWidth : Nat := 3
  ablation : AblationSpec
  widthInRange : 1 ≤ beamWidth ∧ beamWidth ≤ 16

variable [Sha256]

/-- `tiered_system_config_digest`. -/
def StateWeaverTieredSystem.systemConfigDigest (system : StateWeaverTieredSystem) :
    Except Exc Sha256Digest :=
  (digestOf (.mapping
    [(some "solver", .scalar (.str "stateweaver_tiered")),
      (some "seed", .scalar (.int system.seed)),
      (some "beam_width", .scalar (.int system.beamWidth)),
      (some "ablation", .mapping
        [(some "disabled", .list (system.ablation.disabled.map fun feature => .enum feature.value))])])).mapError
    .valueError

omit [Sha256] in
theorem headTail_append {head tail : Char → Bool} {l l' : List Char} (h : headTail head tail l = true)
    (h' : ∀ c ∈ l', tail c = true) : headTail head tail (l ++ l') = true := by
  cases l with
  | nil => cases h
  | cons c l =>
      rw [headTail, Bool.and_eq_true] at h
      rw [List.cons_append, headTail, List.all_append, h.1, h.2, List.all_eq_true.mpr h']
      rfl

omit [Sha256] in
theorem isSystemId_taggedDigits (digest : Sha256Digest) :
    isSystemId (taggedDigits "system.stateweaver_" 12 digest) = true := by
  obtain ⟨hlength, hdigits⟩ := digits_of_digest digest
  have htake : ((digest.val.toList.drop 7).take 12).length = 12 := by
    rw [List.length_take, hlength]
    decide
  have hhex : ∀ c ∈ (digest.val.toList.drop 7).take 12,
      (isLowerAlnum c || c == '_' || c == '-') = true := fun c hc => by
    rw [isLowerAlnum_of_isLowerHex (hdigits c (List.mem_of_mem_take hc))]
    rfl
  have htag : "system.stateweaver_".toList = "system.".toList ++ "stateweaver_".toList := by decide
  have htext := toList_taggedDigits "system.stateweaver_" 12 digest
  rw [htag, List.append_assoc] at htext
  have hseven : "system.".toList.length = 7 := by decide
  generalize (digest.val.toList.drop 7).take 12 = digits at htake hhex htext
  rw [isSystemId, htext, ← hseven, List.take_left, List.drop_left, List.length_append, htake,
    headTail_append (by decide) hhex]
  decide

/-! ## Distance to the goal -/

/-- `_Path`, with its state as a mapping. -/
structure Path where
  state : State
  actionTokens : List ActionToken

/-- A state that is to be explored, with the actions used up to it. -/
structure Pending where
  state : State
  consumed : Finset ActionToken
  depth : Nat

/-- The loop over the actions of a state: the number of steps to the goal, or the states found. -/
def explore (challenge : PublicChallenge) (current : Pending) :
    List PublicAction → List (Sha256Digest × Finset ActionToken) → List Pending →
      Nat ⊕ (List (Sha256Digest × Finset ActionToken) × List Pending)
  | [], visited, found => .inr (visited, found)
  | action :: rest, visited, found =>
      if action.token ∈ current.consumed ∨ actionIsApplicable action current.state = false then
        explore challenge current rest visited found
      else
        let following := applyEffects action current.state
        if goalIsReached challenge following then .inl (current.depth + 1)
        else
          let nextConsumed := insert action.token current.consumed
          let key := (stateFingerprint following, nextConsumed)
          if key ∈ visited then explore challenge current rest visited found
          else explore challenge current rest (visited ++ [key])
            (found ++ [⟨following, nextConsumed, current.depth + 1⟩])

theorem explore_found {challenge : PublicChallenge} {current : Pending} {actions : List PublicAction}
    {visited visited' : List (Sha256Digest × Finset ActionToken)} {found found' : List Pending}
    (h : explore challenge current actions visited found = .inr (visited', found')) :
    ∃ new, found' = found ++ new ∧ new.length ≤ actions.length ∧
      ∀ p ∈ new, p.depth = current.depth + 1 := by
  induction actions generalizing visited found with
  | nil =>
      cases h
      exact ⟨[], (List.append_nil _).symm, le_refl 0, List.forall_mem_nil _⟩
  | cons action rest ih =>
      simp only [explore] at h
      split_ifs at h
      · obtain ⟨new, hnew, hlength, hdepth⟩ := ih h
        exact ⟨new, hnew, Nat.le_succ_of_le hlength, hdepth⟩
      · obtain ⟨new, hnew, hlength, hdepth⟩ := ih h
        exact ⟨new, hnew, Nat.le_succ_of_le hlength, hdepth⟩
      · obtain ⟨new, hnew, hlength, hdepth⟩ := ih h
        refine ⟨_ :: new, by rw [hnew, List.append_assoc, List.singleton_append],
          Nat.succ_le_succ hlength, List.forall_mem_cons.mpr ⟨rfl, hdepth⟩⟩

/-- A bound for the states that are found from a state. -/
def Pending.weight (challenge : PublicChallenge) (p : Pending) : Nat :=
  (challenge.actions.length + 1) ^ (challenge.maxChainLength + 1 - p.depth)

/-- The loop over the queue. -/
def remainingLoop (challenge : PublicChallenge) (pending : List Pending)
    (visited : List (Sha256Digest × Finset ActionToken)) : Option Nat :=
  match pending with
  | [] => none
  | current :: pending =>
      if challenge.maxChainLength ≤ current.depth then remainingLoop challenge pending visited
      else
        match _hfound : explore challenge current challenge.actions visited [] with
        | .inl steps => some steps
        | .inr (visited', found) => remainingLoop challenge (pending ++ found) visited'
termination_by (pending.map (Pending.weight challenge)).sum
decreasing_by
  · rw [List.map_cons, List.sum_cons]
    exact Nat.lt_add_of_pos_left (Nat.pow_pos (Nat.succ_pos _))
  · next hdepth =>
      obtain ⟨new, hnew, hlength, hnext⟩ := explore_found _hfound
      rw [List.nil_append] at hnew
      subst hnew
      rw [List.map_append, List.sum_append, List.map_cons, List.sum_cons, Nat.add_comm]
      refine Nat.add_lt_add_right ?_ _
      have hweight : found.map (Pending.weight challenge) = List.replicate found.length
          ((challenge.actions.length + 1) ^ (challenge.maxChainLength - current.depth)) := by
        rw [List.eq_replicate_iff, List.length_map]
        refine ⟨rfl, fun w hw => ?_⟩
        obtain ⟨p, hp, rfl⟩ := List.mem_map.mp hw
        rw [Pending.weight, hnext p hp, Nat.add_sub_add_right]
      have hpow : Pending.weight challenge current =
          (challenge.actions.length + 1) ^ (challenge.maxChainLength - current.depth) *
            (challenge.actions.length + 1) := by
        rw [Pending.weight, ← Nat.pow_succ, Nat.succ_eq_add_one, Nat.sub_add_comm (by omega)]
      rw [hweight, List.sum_replicate_nat, hpow, Nat.mul_comm]
      refine Nat.mul_lt_mul_of_pos_left (by omega) (Nat.pow_pos (Nat.succ_pos _))

/-- `_minimum_remaining_steps`. -/
def minimumRemainingSteps (challenge : PublicChallenge) (state : State) (used : Finset ActionToken) :
    Option Nat :=
  if goalIsReached challenge state then some 0
  else remainingLoop challenge [⟨state, used, 0⟩] [(stateFingerprint state, used)]

omit [Sha256] in
/-- `_quality`. -/
def quality (challenge : PublicChallenge) : Option Nat → Float
  | none => 0.05
  | some 0 => 1.0
  | some remaining =>
      let q := 1.0 - Float.ofNat remaining / Float.ofNat (challenge.maxChainLength + 1)
      if 0.1 < q then q else 0.1

/-- `_distance_order`. -/
def distanceOrder (distance : Option Nat) : Nat := distance.getD 1000000

/-- `_path_order`. -/
def pathOrder (path : Path) : ℕ ×ₗ List ActionToken := toLex (path.actionTokens.length, path.actionTokens)

/-! ## Candidates -/

/-- `ScoreSignal`. -/
def scoreSignal (value : Float) : Except Exc Search.Probability :=
  if h : 0.0 ≤ value ∧ value ≤ 1.0 then .ok ⟨value, h⟩
  else .error (.validationError .scoreSignal "score is not a probability")

/-- `PositiveScoreSignal`. -/
def positiveScoreSignal (value : Float) : Except Exc Search.PositiveScore :=
  if h : 0.001 ≤ value ∧ value ≤ 1.0 then .ok ⟨value, h⟩
  else .error (.validationError .scoreSignal "score is not a positive score")

/-- The digest that identifies a path. -/
def pathDigest (challenge : PublicChallenge) (actionTokens : List ActionToken) : Sha256Digest :=
  (Writable.list [.text challenge.challengeId.val, .texts (actionTokens.map Constrained.val)]).digest

def candidateId (challenge : PublicChallenge) (actionTokens : List ActionToken) : ContractId :=
  ⟨taggedDigits "candidate." 24 (pathDigest challenge actionTokens),
    isContractId_taggedDigits (by decide) (by decide) (by decide) (by decide) (by decide) _⟩

/-- `fingerprint` of the canonical security state of a path: its flags that are set, and the path itself
if states are not compared. -/
def canonicalFingerprint (path : Path) (digest : Sha256Digest) (preservePathIdentity : Bool) :
    Sha256Digest :=
  let set := (path.state.entries.filter fun item => item.2).map fun item => item.1.val
  let capabilities := set ++ if preservePathIdentity then [taggedDigits "path." 16 digest] else []
  (Writable.mapping
    [("principals", .list []), ("roles", .list []), ("tenants", .list []), ("credentials", .list []),
      ("sessions", .list []), ("resources", .list []), ("policy_generations", .list []),
      ("cache_generations", .list []), ("pending_jobs", .list []), ("feature_flags", .list []),
      ("capabilities", .texts (capabilities.insertionSort (· ≤ ·))),
      ("controlled_time_bucket", .number 0 (by decide))]
    (by simp only [List.map_cons, List.map_nil]; decide)).digest

omit [Sha256] in
theorem isContractId_branch (key : StateKey) :
    isContractId (String.ofList ("branch.".toList ++ key.val.toList.drop 6)) = true := by
  obtain ⟨hlength, hhex⟩ := digits_of_isTaggedHex key.matchesPattern
  have hsix : "state.".toList.length = 6 := by decide
  rw [hsix] at hlength hhex
  refine isContractId_of_tag String.toList_ofList (by decide) ?_ hhex (by rw [hlength]; decide)
    (by rw [hlength]; decide)
  exact List.ne_nil_of_length_pos (by rw [hlength]; decide)

/-- The key of the first effect, as a branch. -/
def diversityKey (action : PublicAction) : ContractId :=
  let key := (action.effects.items.head action.effects.nonempty).key
  ⟨String.ofList ("branch.".toList ++ key.val.toList.drop 6), isContractId_branch key⟩

omit [Sha256] in
theorem noReferences_sorted {pattern : String → Bool} :
    ([] : List (Constrained pattern)).Pairwise (· < ·) := .nil

omit [Sha256] in
theorem allowed_unapproved : Search.PolicyGateOutcome.allow ≠ .requireApproval →
    (none : Option ContractId) = none := fun _ => rfl

/-- `_search_candidate`. -/
def searchCandidate (challenge : PublicChallenge) (path : Path) (action : PublicAction) (quality : Float)
    (preservePathIdentity : Bool) : Except Exc Search.SearchCandidate := do
  let signal ← scoreSignal quality
  let fidelity ← scoreSignal 1.0
  let uncertainty ← scoreSignal 0.1
  let normalizedCost ← positiveScoreSignal (Float.ofNat action.actionCost / 16.0)
  let operationalRisk ← positiveScoreSignal 0.1
  return {
    candidateId := candidateId challenge path.actionTokens
    tier := .ghost
    stateFingerprint :=
      canonicalFingerprint path (pathDigest challenge path.actionTokens) preservePathIdentity
    diversityKey := diversityKey action
    scores := ⟨signal, signal, signal, signal, fidelity, signal, normalizedCost, operationalRisk⟩
    uncertainty := uncertainty
    transitionFragments := []
    gates := {
      inScope := true
      policyOutcome := .allow
      reversible := true
      actionPlanRefs := ⟨[], noReferences_sorted⟩
      expectedObservations := []
      oracleRefs := ⟨[], noReferences_sorted⟩
      evidenceIds := ⟨[], noReferences_sorted⟩
      requiredCapabilities := ⟨[], noReferences_sorted⟩
      availableCapabilities := ⟨[], noReferences_sorted⟩
      snapshotCapable := true
      newFactCount := action.effects.items.length
      calibrationPath := true
      approvalCoherent := allowed_unapproved }
    promotionCost := { targetRequests := action.actionCost, cpuSeconds := 1 } }

/-! ## Levels -/

/-- `_Expansion`. -/
structure Expansion where
  candidate : Search.SearchCandidate
  path : Path
  action : PublicAction
  quality : Float

/-- The `sha256_digest`s of what a search is given and returns, which do not raise for the batches of
this solver. -/
class SearchDigests where
  batch : Search.SearchBatch → Sha256Digest
  result : Search.SearchResult → Sha256Digest

instance [SearchDigests] : Search.SearchDigest := ⟨fun batch => .ok (SearchDigests.batch batch)⟩

variable (system : StateWeaverTieredSystem) (challenge : PublicChallenge)

/-- The loop over the catalog for a path of the frontier. -/
def expandActions (seen : List Sha256Digest) (path : Path) : List PublicAction → BudgetLedger →
    List Expansion → Except Exc (BudgetLedger × List Expansion × Option BudgetExhaustion)
  | [], ledger, expansions => return (ledger, expansions, none)
  | action :: rest, ledger, expansions =>
      if action.token ∈ path.actionTokens ∨ actionIsApplicable action path.state = false then
        expandActions seen path rest ledger expansions
      else
        let nextState := applyEffects action path.state
        if system.ablation.has .stateFingerprintDedup = false ∧ stateFingerprint nextState ∈ seen then
          expandActions seen path rest ledger expansions
        else do
          let nextTokens := path.actionTokens ++ [action.token]
          match ← chargePlan ledger (challenge.challengeId.val :: nextTokens.map Constrained.val) action with
          | .error exhaustion => return (ledger, expansions, some exhaustion)
          | .ok ledger =>
              let remaining := minimumRemainingSteps challenge nextState nextTokens.toFinset
              let q := if system.ablation.has .semanticTwin then 0.5 else quality challenge remaining
              let nextPath : Path := ⟨sortedItems nextState, nextTokens⟩
              let candidate ← searchCandidate challenge nextPath action q
                (system.ablation.has .stateFingerprintDedup)
              expandActions seen path rest ledger (expansions ++ [⟨candidate, nextPath, action, q⟩])

/-- The loop over the frontier. -/
def expandPaths (seen : List Sha256Digest) : List Path → BudgetLedger → List Expansion →
    Except Exc (BudgetLedger × List Expansion × Option BudgetExhaustion)
  | [], ledger, expansions => return (ledger, expansions, none)
  | path :: rest, ledger, expansions => do
      match ← expandActions system challenge seen path challenge.actions ledger expansions with
      | (ledger, expansions, some exhaustion) => return (ledger, expansions, some exhaustion)
      | (ledger, expansions, none) => expandPaths seen rest ledger expansions

omit [Sha256] in
/-- `SearchBatch` of some candidates. -/
def searchBatch (candidates : List Search.SearchCandidate) : Except Exc Search.SearchBatch :=
  let sorted := candidates.insertionSort fun a b => a.candidateId ≤ b.candidateId
  if hnonempty : sorted ≠ [] then
    if hunique : (sorted.map Search.SearchCandidate.candidateId).Pairwise (· < ·) then
      if htier : ∀ candidate ∈ sorted, candidate.tier = .ghost then
        .ok ⟨sorted, .ghost, hnonempty, hunique, htier, nofun⟩
      else .error (.validationError .searchBatch "a search batch must contain one promotable source tier")
    else .error (.validationError .searchBatch "search candidate IDs must be unique")
  else .error (.validationError .searchBatch "search batch cannot be empty")

omit [Sha256] in
theorem nondeterminismLimit_inRange : 1 ≤ 2 ∧ 2 ≤ 100 := by decide

omit [Sha256] in
/-- The policy of the search controller. -/
def searchPolicy : Search.BeamSearchPolicy where
  seed := system.seed
  replayWidth := system.beamWidth
  simulatedWidth := 1
  materializedWidth := 1
  uncertaintyBonus := ⟨0.25, by decide +kernel⟩
  minimumFidelity := ⟨0.25, by decide +kernel⟩
  repeatedNondeterminismLimit := 2
  widthsInRange := ⟨⟨system.widthInRange.1, le_trans system.widthInRange.2 (by decide)⟩, by decide,
    by decide⟩
  limitInRange := nondeterminismLimit_inRange

omit [Sha256] in
/-- Whether an expansion is at most another: its quality is higher, or equal and its identifier lower. -/
def Expansion.le (a b : Expansion) : Bool :=
  -a.quality < -b.quality ||
    (-a.quality == -b.quality && a.candidate.candidateId ≤ b.candidate.candidateId)

variable [SearchDigests]

/-- The candidates that are promoted, with the ledger and the fingerprints of the searches. -/
def promote (expansions : List Expansion) (searchLedger : Search.BudgetLedger)
    (searchFingerprints : List Sha256Digest) :
    Except Exc (List ContractId × Search.BudgetLedger × List Sha256Digest) :=
  if system.ablation.has .budgetAwareScheduler then
    return ((expansions.take system.beamWidth).map fun item => item.candidate.candidateId, searchLedger,
      searchFingerprints)
  else if system.ablation.has .worldTiers then
    return (((expansions.insertionSort fun a b => a.le b = true).take system.beamWidth).map fun item =>
      item.candidate.candidateId, searchLedger, searchFingerprints)
  else do
    let batch ← searchBatch (expansions.map Expansion.candidate)
    let result ← (Search.advance (searchPolicy system) batch searchLedger).mapError .search
    let fingerprint := SearchDigests.result result
    return (result.promotedCandidateIds, result.ledger,
      if fingerprint ∈ searchFingerprints then searchFingerprints
      else searchFingerprints ++ [fingerprint])

/-- The variables of the loop over the levels. The budget is exhausted if `exhaustion` is set. -/
structure Progress where
  ledger : BudgetLedger
  searchLedger : Search.BudgetLedger
  frontier : List Path
  observedPaths : List Path
  seen : List Sha256Digest
  searchFingerprints : List Sha256Digest
  exhaustion : Option BudgetExhaustion

omit [SearchDigests] in
/-- The loop over the promoted candidates. -/
def executePromoted (byId : Dict ContractId Expansion) : List ContractId → Progress → Except Exc Progress
  | [], p => return p
  | candidateId :: rest, p =>
      match byId.get? candidateId with
      | none => .error .keyError
      | some expansion => do
          match ← chargeExecution p.ledger [challenge.challengeId.val, candidateId.val] expansion.action
              (!system.ablation.has .worldTiers) with
          | .error exhaustion => return { p with exhaustion := some exhaustion }
          | .ok ledger =>
              executePromoted byId rest { p with
                ledger
                frontier := p.frontier ++ [expansion.path]
                observedPaths := p.observedPaths ++ [expansion.path]
                seen := p.seen ++ [stateFingerprint expansion.path.state] }

/-- One level: whether to go on, and with which path the goal was reached. -/
def level (p : Progress) : Except Exc (Progress × Option Path × Bool) := do
  let (ledger, expansions, exhaustion) ← expandPaths system challenge p.seen p.frontier p.ledger []
  if expansions = [] then return ({ p with ledger, exhaustion }, none, false)
  else
    let byId := expansions.foldl (fun d item => d.insert item.candidate.candidateId item) Dict.empty
    let (promotedIds, searchLedger, searchFingerprints) ←
      promote system expansions p.searchLedger p.searchFingerprints
    let p ← executePromoted system challenge byId promotedIds
      { p with ledger, searchLedger, searchFingerprints, exhaustion, frontier := [] }
    let successful := p.frontier.filter fun path => goalIsReached challenge path.state
    match successful.argmin pathOrder with
    | some best => return (p, some best, false)
    | none => return (p, none, !(p.exhaustion.isSome || p.frontier.isEmpty))

/-- The loop over the levels. -/
def levels : Nat → Progress → Except Exc (Progress × Option Path)
  | 0, p => return (p, none)
  | depth + 1, p => do
      match ← level system challenge p with
      | (p, best, false) => return (p, best)
      | (p, _, true) => levels depth p

omit [SearchDigests] in
/-- `_run`. -/
def tieredRun (ledger : BudgetLedger) (path : Path) (stop : StopReason)
    (searchFingerprints : List Sha256Digest) (exhaustion : Option BudgetExhaustion) :
    Except Exc SystemRun := do
  let digest ← system.systemConfigDigest
  let submission ← CandidateSubmission.create challenge.challengeId path.actionTokens
  SystemRun.create ⟨taggedDigits "system.stateweaver_" 12 digest, isSystemId_taggedDigits digest⟩ digest
    submission ledger (!system.ablation.has .realityAnchor) stop exhaustion searchFingerprints

omit [SearchDigests] in
theorem noReservations_sequences : ([] : List Search.BudgetReservation).map (fun item => item.sequence) =
    List.range' 1 ([] : List Search.BudgetReservation).length := rfl

omit [Sha256] [SearchDigests] in
theorem noReservations_keysUnique : ([] : List (ContractId × Search.WorldTier)).Nodup := List.nodup_nil

omit [SearchDigests] in
/-- The search ledger that a budget is translated to. -/
def searchLedgerOf (budget : BudgetLimits) : Search.BudgetLedger where
  limits := ⟨0, budget.maxActionCost, 0, budget.maxLatencyUnits, max 1 budget.maxWorldCost,
    budget.maxWorldCost, 0, 0⟩
  reservations := []
  sequences := noReservations_sequences
  idsUnique := List.nodup_nil
  keysUnique := noReservations_keysUnique
  withinLimits := by
    refine Search.fits_none.mpr ⟨Nat.zero_le _, Nat.zero_le _, Nat.zero_le _, Nat.zero_le _, ?_⟩
    exact fun tier => by cases tier <;> exact Nat.zero_le _

/-- `StateWeaverTieredSystem.solve`. -/
def StateWeaverTieredSystem.solve (budget : BudgetLimits) : Except Exc SystemRun := do
  let initial : Path := ⟨sortedItems challenge.initialMapping, []⟩
  let depthLimit := if system.ablation.has .chainCompiler then 1 else challenge.maxChainLength
  let (p, reached) ← levels system challenge depthLimit
    { ledger := .empty budget
      searchLedger := searchLedgerOf budget
      frontier := [initial]
      observedPaths := [initial]
      seen := [stateFingerprint initial.state]
      searchFingerprints := []
      exhaustion := none }
  match reached with
  | some best => tieredRun system challenge p.ledger best .goalReached p.searchFingerprints none
  | none =>
      match p.observedPaths.argmin fun item => toLex (distanceOrder
          (minimumRemainingSteps challenge item.state item.actionTokens.toFinset), pathOrder item) with
      | none => .error (.valueError "min() iterable argument is empty")
      | some best =>
          let stop : StopReason :=
            if system.ablation.has .chainCompiler then .chainCompilerDisabled
            else if p.exhaustion.isSome then .budgetExhausted
            else if depthLimit ≤ best.actionTokens.length then .depthLimit
            else .noProgress
          tieredRun system challenge p.ledger best stop p.searchFingerprints
            (if stop = .budgetExhausted then p.exhaustion else none)

end StateWeaver.StateChainBench
