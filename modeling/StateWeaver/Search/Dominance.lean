import StateWeaver.Search.WorkConserving

/-!
# Duplicates of a state

Of the candidates with one fingerprint a search retains the first, and says of each other one whether it
is dominated by that winner. Costs are compared as tuples, so a winner that is cheaper in one dimension can
be dearer in a later one. The budget is tried for the winner only.
-/

namespace StateWeaver.Search

open Contracts

/-! ## Cost vectors -/

/-- Whether the first of two vectors is lower where they first differ, and higher at a later place. -/
def crosses : List Nat → List Nat → Bool
  | x :: xs, y :: ys =>
      if x = y then crosses xs ys else x < y && (xs.zip ys).any fun pair => pair.2 < pair.1
  | _, _ => false

theorem cons_le_cons_iff {x y : Nat} {xs ys : List Nat} :
    x :: xs ≤ y :: ys ↔ x < y ∨ x = y ∧ xs ≤ ys := by
  have hlt : x :: xs < y :: ys ↔ x < y ∨ x = y ∧ xs < ys := List.cons_lt_cons_iff
  rw [le_iff_lt_or_eq, le_iff_lt_or_eq, hlt, List.cons.injEq, and_or_left, or_assoc]

theorem forall₂_of_zip {xs ys : List Nat} (hlength : xs.length = ys.length) :
    List.Forall₂ (· ≤ ·) xs ys ↔ ((xs.zip ys).any fun pair => pair.2 < pair.1) = false := by
  rw [List.forall₂_iff_zip, List.any_eq_false]
  refine (and_iff_right hlength).trans ⟨fun h pair hpair => ?_, fun h x y hpair => ?_⟩
  · rw [decide_eq_true_eq]
    exact not_lt.mpr (h hpair)
  · exact not_lt.mp (of_decide_eq_false (Bool.not_eq_true _ |>.mp (h (x, y) hpair)))

/-- Of two vectors in lexicographic order the first is at most the other everywhere, or they cross. -/
theorem forall₂_iff_not_crosses {a b : List Nat} (hlength : a.length = b.length) (hle : a ≤ b) :
    List.Forall₂ (· ≤ ·) a b ↔ crosses a b = false := by
  induction a generalizing b with
  | nil =>
      rw [List.length_eq_zero_iff.mp hlength.symm]
      exact iff_of_true .nil rfl
  | cons x xs ih =>
      cases b with
      | nil => cases hlength
      | cons y ys =>
          have hlength' : xs.length = ys.length := Nat.succ.inj hlength
          rw [List.forall₂_cons, crosses]
          rcases cons_le_cons_iff.mp hle with hlt | ⟨rfl, hle'⟩
          · rw [if_neg hlt.ne, decide_eq_true hlt, Bool.true_and, ← forall₂_of_zip hlength']
            exact and_iff_right hlt.le
          · rw [if_pos rfl, ← ih hlength' hle']
            exact and_iff_right (le_refl x)

theorem le_of_crosses {a b : List Nat} (h : crosses a b = true) : a ≤ b := by
  induction a generalizing b with
  | nil => cases h
  | cons x xs ih =>
      cases b with
      | nil => cases h
      | cons y ys =>
          rw [crosses] at h
          split_ifs at h with hxy
          · subst hxy
            exact cons_le_cons_iff.mpr (.inr ⟨rfl, ih h⟩)
          · rw [Bool.and_eq_true, decide_eq_true_eq] at h
            exact cons_le_cons_iff.mpr (.inl h.1)

theorem crosses_self (a : List Nat) : crosses a a = false := by
  induction a with
  | nil => rfl
  | cons x xs ih => rw [crosses, if_pos rfl, ih]

/-- Whether a cost is at most another in each dimension. -/
structure PromotionCost.NoGreater (a b : PromotionCost) : Prop where
  targetRequests : a.targetRequests ≤ b.targetRequests
  writeRequests : a.writeRequests ≤ b.writeRequests
  cpuSeconds : a.cpuSeconds ≤ b.cpuSeconds
  llmCalls : a.llmCalls ≤ b.llmCalls

theorem noGreater_iff {c c' : SearchCandidate} : c.promotionCost.NoGreater c'.promotionCost ↔
    List.Forall₂ (· ≤ ·) (costTuple c) (costTuple c') := by
  simp only [costTuple, List.forall₂_cons, List.forall₂_nil_left_iff, and_true]
  exact ⟨fun h => ⟨h.targetRequests, h.writeRequests, h.cpuSeconds, h.llmCalls⟩,
    fun h => ⟨h.1, h.2.1, h.2.2.1, h.2.2.2⟩⟩

section

variable [Sha256] {policy : BeamSearchPolicy} {batch : SearchBatch} {ledger : BudgetLedger}
  {targetTier : WorldTier} {c : SearchCandidate}

/-! ## Specification -/

/-- Each candidate that is decided to be dominated names a winner with its fingerprint that passes the
gates and costs no more in any dimension. -/
def DominanceIsReal (policy : BeamSearchPolicy) (batch : SearchBatch) (result : SearchResult) : Prop :=
  ∀ c ∈ batch.candidates, ∀ d ∈ result.decisions, d.candidateId = c.candidateId →
    .dominatedByCheaperWorld ∈ d.reasonCodes → ∃ winner ∈ batch.candidates,
      d.deduplicatedTo = some winner.candidateId ∧ winner.stateFingerprint = c.stateFingerprint ∧
      PassesGates policy winner result.targetTier ∧ winner.promotionCost.NoGreater c.promotionCost

/-- Some candidate passes the gates, and the costs of the retained candidate with its fingerprint are lower
in the first dimension where they differ and higher in a later one. -/
def CostsCross (policy : BeamSearchPolicy) (batch : SearchBatch) : Prop :=
  ∃ targetTier, nextTier batch.tier = .ok targetTier ∧ ∃ c ∈ batch.candidates,
    PassesGates policy c targetTier ∧ ∃ winner, Retained policy batch targetTier winner ∧
      winner.stateFingerprint = c.stateFingerprint ∧ crosses (costTuple winner) (costTuple c) = true

/-- Some candidate with the fingerprint that passes the gates is promoted, or has been promoted to the tier
before. -/
def Represented (policy : BeamSearchPolicy) (batch : SearchBatch) (ledger : BudgetLedger)
    (result : SearchResult) (fingerprint : Sha256Digest) : Prop :=
  ∃ c ∈ batch.candidates, PassesGates policy c result.targetTier ∧ c.stateFingerprint = fingerprint ∧
    (c.candidateId ∈ result.promotedCandidateIds ∨ (c.candidateId, result.targetTier) ∈ ledger.keys)

/-- The cost of a candidate fits the final ledger, and the beam has room. -/
structure HasRoom (policy : BeamSearchPolicy) (result : SearchResult) (c : SearchCandidate) : Prop where
  fits : Within result.ledger.limits
    ((usage result.ledger.reservations).plus result.targetTier c.promotionCost)
  room : ∃ width, policy.width result.targetTier = .ok width ∧
    result.promotedCandidateIds.length < width

/-! ## Winners -/

/-- One candidate is retained for a fingerprint. -/
theorem Retained.eq_of_stateFingerprint {c' : SearchCandidate}
    (hfinite : ∀ c, Retained policy batch targetTier c → (priority policy c).isFinite = true)
    (h : Retained policy batch targetTier c) (h' : Retained policy batch targetTier c')
    (heq : c.stateFingerprint = c'.stateFingerprint) : c = c' := by
  by_contra hne
  exact (h.first c' h'.mem h'.gates heq.symm (Ne.symm hne)).asymm (hfinite c h) (hfinite c' h')
    (h'.first c h.mem h.gates heq hne)

omit [Sha256] in
theorem duplicateReason_eq_dominated {winner : SearchCandidate} :
    duplicateReason winner c = .dominatedByCheaperWorld ↔ costTuple winner ≤ costTuple c := by
  rw [duplicateReason]
  split_ifs with hle
  · exact iff_of_true rfl hle
  · exact iff_of_false nofun hle

variable [SearchDigest] {result : SearchResult}

omit [SearchDigest] in
/-- There is one decision for each candidate. -/
theorem eq_of_decision (hadvanced : Advanced policy batch ledger result) {d d' : SearchDecision}
    (hd : d ∈ result.decisions) (hd' : d' ∈ result.decisions) (hid : d.candidateId = d'.candidateId) :
    d = d' := by
  have hnodup := batch.nodup
  rw [← hadvanced.decided] at hnodup
  exact List.inj_on_of_nodup_map hnodup hd hd' hid

/-- The winners that a search names dominate exactly if no costs cross. -/
theorem dominanceIsReal_iff (h : advance policy batch ledger = .ok result) :
    DominanceIsReal policy batch result ↔ ¬CostsCross policy batch := by
  obtain ⟨hsettled, hfinite, -⟩ := settled_of_advance h
  have hadvanced := advanced_of_advance h
  have hlength : ∀ winner c, (costTuple winner).length = (costTuple c).length := fun _ _ => rfl
  constructor
  · rintro hreal ⟨targetTier, htier, c, hc, hpasses, winner, hwinner, hfingerprint, hcross⟩
    obtain rfl : targetTier = result.targetTier := Except.ok.inj (htier.symm.trans hadvanced.targetTier)
    have hle := le_of_crosses hcross
    have hlost : ¬Retained policy batch result.targetTier c := by
      intro hretained
      obtain rfl := hwinner.eq_of_stateFingerprint hfinite hretained hfingerprint
      rw [crosses_self] at hcross
      cases hcross
    obtain ⟨d, hd, hid, -, hduplicate, -⟩ := hsettled c hc
    obtain ⟨winner', hwinner', hfingerprint', hdeduplicated, hreasons⟩ := hduplicate hpasses hlost
    obtain rfl := hwinner.eq_of_stateFingerprint hfinite hwinner' (hfingerprint.trans hfingerprint'.symm)
    have hdominated : ReasonCode.dominatedByCheaperWorld ∈ d.reasonCodes := by
      rw [hreasons, List.mem_singleton]
      exact (duplicateReason_eq_dominated.mpr hle).symm
    obtain ⟨named, hnamed, hto, -, -, hcost⟩ := hreal c hc d hd hid hdominated
    obtain rfl := SearchBatch.eq_of_candidateId_eq hnamed hwinner.mem
      (Option.some.inj (hto.symm.trans hdeduplicated))
    rw [noGreater_iff, forall₂_iff_not_crosses (hlength _ _) hle, hcross] at hcost
    cases hcost
  · intro hcross c hc d hd hid hdominated
    obtain ⟨d', hd', hid', -, hduplicate, hother⟩ := hsettled c hc
    obtain rfl := eq_of_decision hadvanced hd hd' (hid.trans hid'.symm)
    have hlost : PassesGates policy c result.targetTier ∧ ¬Retained policy batch result.targetTier c := by
      by_contra hkept
      have hshape := d.shape.2
      rw [hother hkept] at hshape
      exact absurd (by simp) (List.any_eq_false.mp hshape _ hdominated)
    obtain ⟨winner, hwinner, hfingerprint, hdeduplicated, hreasons⟩ := hduplicate hlost.1 hlost.2
    rw [hreasons, List.mem_singleton] at hdominated
    have hle := duplicateReason_eq_dominated.mp hdominated.symm
    refine ⟨winner, hwinner.mem, hdeduplicated, hfingerprint, hwinner.gates, ?_⟩
    rw [noGreater_iff, forall₂_iff_not_crosses (hlength _ _) hle]
    by_contra hcrosses
    exact hcross ⟨_, hadvanced.targetTier, c, hc, hlost.1, winner, hwinner, hfingerprint, Bool.not_eq_false _ |>.mp hcrosses⟩

/-- A retained candidate that fits the final ledger is promoted if the beam has room, or has been before. -/
theorem represented_of_retained (h : advance policy batch ledger = .ok result)
    (hretained : Retained policy batch result.targetTier c) (hroom : HasRoom policy result c) :
    Represented policy batch ledger result c.stateFingerprint := by
  obtain ⟨width, hwidth, hlt⟩ := hroom.room
  obtain ⟨d, -, -, hsettled, -⟩ := (settled_of_advance h).1 c hretained.mem
  refine ⟨c, hretained.mem, hretained.gates, rfl, ?_⟩
  cases hsettled with
  | promoted _ _ hmem => exact .inl hmem
  | gated _ hgates => exact absurd hretained.gates hgates
  | deduplicated winner _ hwinner hfingerprint houtranks =>
      obtain ⟨-, hfinite, -⟩ := settled_of_advance h
      obtain rfl := hwinner.eq_of_stateFingerprint hfinite hretained hfingerprint
      exact absurd houtranks (houtranks.asymm (hfinite _ hwinner) (hfinite _ hwinner))
  | alreadyPromoted _ _ hkey => exact .inr hkey
  | beamCapacity _ _ hfull =>
      rw [hwidth, Except.ok.injEq] at hfull
      exact absurd hfull hlt.ne'
  | budgetExceeded _ _ hexceeded => exact absurd hroom.fits hexceeded

end

/-! ## Searches for two candidates -/

theorem defaultLimit_inRange : 1 ≤ 2 ∧ 2 ≤ 100 := by decide

def widePolicy : BeamSearchPolicy where
  uncertaintyBonus := half
  minimumFidelity := half
  widthsInRange := by decide
  limitInRange := defaultLimit_inRange

theorem fits_twoCandidates : let _ := Sha2.sha256
    let _ := zeroBatchDigest
    ((advance widePolicy twoCandidates emptyLedger).toOption.map fun result =>
      result.promotedCandidateIds.length < 8 && result.targetTier = .replay &&
        fits result.ledger.limits (usage result.ledger.reservations) (some (.replay, {}))) =
      some true := by decide +kernel

/-- The state of a candidate is promoted if the candidate is the only one with its fingerprint. -/
theorem represented_twoCandidates : let _ := Sha2.sha256
    let _ := zeroBatchDigest
    ∃ result, advance widePolicy twoCandidates emptyLedger = .ok result ∧
      Represented widePolicy twoCandidates emptyLedger result zeroDigest := by
  intro _ _
  obtain ⟨result, h, hall⟩ := Option.map_eq_some_iff.mp fits_twoCandidates
  have h := Imp.toOption_eq_some.mp h
  simp only [Bool.and_eq_true, decide_eq_true_eq] at hall
  obtain ⟨⟨hlength, htier⟩, hfits⟩ := hall
  refine ⟨result, h, represented_of_retained h (c := admissible ⟨"candidate.a", by decide⟩ zeroDigest)
    ⟨.head _, ?_, ?_⟩ ⟨?_, 8, ?_, hlength⟩⟩
  · rw [htier, ← gateReasons_eq_nil]
    decide +kernel
  · intro c hc _ hfingerprint hne
    rcases List.mem_pair.mp hc with rfl | rfl
    · exact absurd rfl hne
    · exact absurd hfingerprint (by decide +kernel)
  · rw [htier]
    exact fits_some.mp hfits
  · rw [htier]
    rfl

/-- A candidate of one class, with an impact and a cost. -/
def priced (candidateId : ContractId) (boundaryImpact : Probability) (cost : PromotionCost) :
    SearchCandidate :=
  { admissible candidateId zeroDigest with
    scores := ⟨boundaryImpact, half, half, half, half, half, halfScore, halfScore⟩
    promotionCost := cost }

theorem certain_inRange : (0.0 : Float) ≤ 1.0 ∧ (1.0 : Float) ≤ 1.0 := by decide +kernel

def certain : Probability := ⟨1.0, certain_inRange⟩

theorem isContractId_first : isContractId "candidate.a" = true := by decide

theorem isContractId_second : isContractId "candidate.b" = true := by decide

theorem ghost_promotable : WorldTier.ghost ≠ .materialized := by decide

/-- Two candidates for one state. The first one has a higher priority. -/
def rivals (cost cost' : PromotionCost) : SearchBatch where
  candidates := [priced ⟨"candidate.a", isContractId_first⟩ certain cost,
    priced ⟨"candidate.b", isContractId_second⟩ half cost']
  tier := .ghost
  nonempty := by simp
  sorted := by simp [priced, admissible, show (⟨"candidate.a", by decide⟩ : ContractId) <
    ⟨"candidate.b", by decide⟩ by decide]
  oneTier := by simp [priced, admissible]
  promotable := ghost_promotable

/-- The first candidate makes one request that writes five times, the second one makes two. -/
def writer : SearchBatch := rivals { targetRequests := 1, writeRequests := 5 } { targetRequests := 2 }

/-- The first candidate makes one request, the second one none. -/
def requester : SearchBatch := rivals { targetRequests := 1 } {}

theorem names_writer : let _ := Sha2.sha256
    let _ := zeroBatchDigest
    ((advance narrowPolicy writer emptyLedger).toOption.map fun result =>
      result.decisions.any fun d => d.candidateId.val = "candidate.b" &&
        d.reasonCodes = [.dominatedByCheaperWorld] &&
        (d.deduplicatedTo.map fun id => id.val) = some "candidate.a") = some true := by decide +kernel

/-- A candidate is decided to be dominated by one that costs more writes. -/
theorem not_dominanceIsReal_writer : let _ := Sha2.sha256
    let _ := zeroBatchDigest
    ∃ result, advance narrowPolicy writer emptyLedger = .ok result ∧
      ¬DominanceIsReal narrowPolicy writer result := by
  intro _ _
  obtain ⟨result, h, hany⟩ := Option.map_eq_some_iff.mp names_writer
  refine ⟨result, Imp.toOption_eq_some.mp h, fun hreal => ?_⟩
  obtain ⟨d, hd, hsays⟩ := List.any_eq_true.mp hany
  simp only [Bool.and_eq_true, decide_eq_true_eq] at hsays
  obtain ⟨⟨hid, hreasons⟩, hto⟩ := hsays
  obtain ⟨winner, hwinner, hnamed, -, -, hcost⟩ := hreal _ (.tail _ (.head _)) d hd
    (Constrained.val_injective hid) (hreasons ▸ List.mem_cons_self)
  rcases List.mem_pair.mp hwinner with rfl | rfl
  · exact absurd hcost.writeRequests (by decide)
  · rw [hnamed] at hto
    exact absurd hto (by decide)

theorem promotes_none : let _ := Sha2.sha256
    let _ := zeroBatchDigest
    ((advance narrowPolicy requester emptyLedger).toOption.map fun result =>
      result.promotedCandidateIds.isEmpty && result.targetTier = .replay &&
        fits result.ledger.limits (usage result.ledger.reservations) (some (.replay, {}))) =
      some true := by decide +kernel

/-- No costs cross if the one that is dearer in requests has the higher priority. -/
theorem dominanceIsReal_requester : let _ := Sha2.sha256
    let _ := zeroBatchDigest
    ∃ result, advance narrowPolicy requester emptyLedger = .ok result ∧
      DominanceIsReal narrowPolicy requester result := by
  intro _ _
  obtain ⟨result, h, -⟩ := Option.map_eq_some_iff.mp promotes_none
  have h := Imp.toOption_eq_some.mp h
  refine ⟨result, h, (dominanceIsReal_iff h).mpr ?_⟩
  rintro ⟨targetTier, -, c, hc, -, winner, hwinner, -, hcrosses⟩
  have hnone : ∀ c ∈ requester.candidates, ∀ c' ∈ requester.candidates,
      crosses (costTuple c) (costTuple c') = false := by decide
  rw [hnone winner hwinner.mem c hc] at hcrosses
  cases hcrosses

/-- A candidate fits the budget and the beam is empty, but the one with a higher priority for the same state
exceeds the budget. -/
theorem not_represented_requester : let _ := Sha2.sha256
    let _ := zeroBatchDigest
    ∃ result, advance narrowPolicy requester emptyLedger = .ok result ∧
      ∃ c ∈ requester.candidates, PassesGates narrowPolicy c result.targetTier ∧
        HasRoom narrowPolicy result c ∧
        ¬Represented narrowPolicy requester emptyLedger result c.stateFingerprint := by
  intro _ _
  obtain ⟨result, h, hall⟩ := Option.map_eq_some_iff.mp promotes_none
  simp only [Bool.and_eq_true, decide_eq_true_eq, List.isEmpty_iff] at hall
  obtain ⟨⟨hnone, htier⟩, hfits⟩ := hall
  refine ⟨result, Imp.toOption_eq_some.mp h, _, .tail _ (.head _), ?_, ⟨?_, 1, ?_, ?_⟩, ?_⟩
  · rw [htier, ← gateReasons_eq_nil]
    decide +kernel
  · rw [htier]
    exact fits_some.mp hfits
  · rw [htier]
    rfl
  · rw [hnone]
    exact Nat.one_pos
  · rintro ⟨c, -, -, -, hmem | hkey⟩
    · rw [hnone] at hmem
      cases hmem
    · cases hkey

end StateWeaver.Search
