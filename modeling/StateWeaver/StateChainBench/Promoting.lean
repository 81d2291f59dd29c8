import StateWeaver.StateChainBench.Expanding

/-!
# Promoting and executing

What a level promotes is a part of what it planned. A promoted expansion is executed if the budget pays for
it, and is then a path of the next frontier.
-/

namespace StateWeaver.StateChainBench

open Contracts

/-! ## Lists -/

/-- A list of values of a function comes from a list of arguments. -/
theorem exists_map_eq {α β : Type*} {f : α → β} {l : List α} {l' : List β} (h : ∀ b ∈ l', ∃ a ∈ l, f a = b) :
    ∃ chosen : List α, chosen ⊆ l ∧ chosen.map f = l' := by
  induction l' with
  | nil => exact ⟨[], List.nil_subset _, rfl⟩
  | cons b l' ih =>
      obtain ⟨a, ha, rfl⟩ := h b List.mem_cons_self
      obtain ⟨chosen, hsub, rfl⟩ := ih fun b hb => h b (List.mem_cons_of_mem _ hb)
      exact ⟨a :: chosen, List.cons_subset.mpr ⟨ha, hsub⟩, rfl⟩

/-- A list without repetition whose values repeat has two elements with one value. -/
theorem exists_of_not_nodup_map {α β : Type*} {f : α → β} {l : List α} (hl : l.Nodup) (h : ¬(l.map f).Nodup) :
    ∃ a ∈ l, ∃ b ∈ l, a ≠ b ∧ f a = f b := by
  by_contra hnone
  refine h (hl.map_on fun a ha b hb heq => ?_)
  by_contra hne
  exact hnone ⟨a, ha, b, hb, hne, heq⟩

/-! ## Searches -/

variable [Sha256]

/-- The digits of the seed that Python writes. -/
def SeedIsWritable (system : StateWeaverTieredSystem) : Prop := (Nat.toDigits 10 system.seed).length ≤ 4300

/-- The ledger of the searches of a run. -/
structure Searched (challenge : PublicChallenge) (budget : BudgetLimits) (ledger : Search.BudgetLedger) :
    Prop where
  limits : ledger.limits = (searchLedgerOf budget).limits
  planned : ∀ r ∈ ledger.reservations, Planned challenge budget r.toReservationContent

/-- What a level promotes: some of its expansions, each once. -/
structure Promoted (challenge : PublicChallenge) (budget : BudgetLimits) (expansions : List Expansion)
    (result : List ContractId × Search.BudgetLedger × List Sha256Digest) : Prop where
  chosen : ∃ chosen : List Expansion, chosen ⊆ expansions ∧ (chosen.map fun e => e.path.actionTokens).Nodup ∧
    chosen.map (fun e => e.candidate.candidateId) = result.1
  searched : Searched challenge budget result.2.1
  fingerprints : result.2.2.Nodup

variable {system : StateWeaverTieredSystem} {challenge : PublicChallenge} {budget : BudgetLimits}
  {old : List Entry} {depth : Nat}

/-- The identifiers of the expansions as a function of their chains. -/
theorem map_candidateId {expansions : List Expansion}
    (h : ∀ e ∈ expansions, Expanded system challenge old depth e) :
    (expansions.map fun e => e.candidate.candidateId) =
      (expansions.map fun e => e.path.actionTokens).map (candidateId challenge) := by
  rw [List.map_map]
  exact List.map_congr_left fun e he => (h e he).candidateId

theorem worlds_searchLedgerOf_lt (budget : BudgetLimits) : (searchLedgerOf budget).limits.worlds < 1000000000 := by
  obtain ⟨-, hworld, -⟩ := budget.inRange
  change max 1 budget.maxWorldCost + budget.maxWorldCost + 0 + 0 < 1000000000
  omega

/-- A batch of the expansions of a level is created, unless two of them have one identifier. -/
theorem ends_searchBatch {expansions : List Expansion} (hne : expansions ≠ [])
    (h : ∀ e ∈ expansions, Expanded system challenge old depth e)
    (hnodup : (expansions.map fun e => e.path.actionTokens).Nodup) :
    Imp.Ends (fun batch : Search.SearchBatch => batch.tier = .ghost ∧
        ∀ c ∈ batch.candidates, ∃ e ∈ expansions, e.candidate = c)
      (IsCollision challenge budget) (searchBatch (expansions.map Expansion.candidate)) := by
  let sorted := (expansions.map Expansion.candidate).insertionSort fun a b => a.candidateId ≤ b.candidateId
  have hperm : sorted.Perm (expansions.map Expansion.candidate) := List.perm_insertionSort _ _
  have hmem : ∀ c ∈ sorted, ∃ e ∈ expansions, e.candidate = c := fun c hc =>
    List.mem_map.mp (hperm.mem_iff.mp hc)
  have hnonempty : sorted ≠ [] := by
    intro hnil
    rw [hnil] at hperm
    exact hne (List.map_eq_nil_iff.mp hperm.nil_eq.symm)
  have hghost : ∀ c ∈ sorted, c.tier = .ghost := fun c hc => by
    obtain ⟨e, he, rfl⟩ := hmem c hc
    exact (h e he).tier
  have hle : (sorted.map Search.SearchCandidate.candidateId).Pairwise (· ≤ ·) :=
    List.pairwise_map.mpr (List.pairwise_insertionSort _ _)
  unfold searchBatch
  dsimp only
  rw [dif_pos hnonempty]
  by_cases hunique : (sorted.map Search.SearchCandidate.candidateId).Pairwise (· < ·)
  · rw [dif_pos hunique, dif_pos hghost]
    exact Imp.ends_ok ⟨rfl, hmem⟩
  · rw [dif_neg hunique]
    have hids : ¬((expansions.map fun e => e.path.actionTokens).map (candidateId challenge)).Nodup := by
      intro hids
      rw [← map_candidateId h, ← Function.comp_def Search.SearchCandidate.candidateId Expansion.candidate,
        ← List.map_map] at hids
      have hne : (sorted.map Search.SearchCandidate.candidateId).Pairwise (· ≠ ·) :=
        ((hperm.map _).nodup_iff).mpr hids
      exact hunique ((hle.and hne).imp fun ⟨hle, hne⟩ => lt_of_le_of_ne hle hne)
    obtain ⟨chain, hchain, chain', hchain', hne', heq⟩ := exists_of_not_nodup_map hnodup hids
    obtain ⟨e, he, rfl⟩ := List.mem_map.mp hchain
    obtain ⟨e', he', rfl⟩ := List.mem_map.mp hchain'
    exact Imp.ends_error (.candidates _ _ (h e he).played.chain (h e' he').played.chain hne' heq)

/-- A new reservation of a search is for a chain that was planned. -/
theorem planned_of_expanded {e : Expansion} (h : Expanded system challenge old depth e)
    {content : Search.ReservationContent} (hid : content.candidateId = e.candidate.candidateId)
    (htier : content.targetTier = .replay) (hcost : content.cost = e.candidate.promotionCost)
    (hsequence : content.sequence ≤ (searchLedgerOf budget).limits.worlds) : Planned challenge budget content :=
  ⟨⟨_, h.played.chain, hid.trans h.candidateId⟩, htier, hsequence, e.action, h.action, hcost.trans h.cost⟩

variable [SearchDigests]

/-- A search of the expansions of a level. -/
theorem ends_advance {expansions : List Expansion} (h : ∀ e ∈ expansions, Expanded system challenge old depth e)
    (hseed : SeedIsWritable system) {batch : Search.SearchBatch} (htier : batch.tier = .ghost)
    (hbatch : ∀ c ∈ batch.candidates, ∃ e ∈ expansions, e.candidate = c) {ledger : Search.BudgetLedger}
    (hledger : Searched challenge budget ledger) :
    Imp.Ends (fun result : Search.SearchResult => Searched challenge budget result.ledger ∧
        result.promotedCandidateIds.Nodup ∧
        ∀ id ∈ result.promotedCandidateIds, ∃ e ∈ expansions, e.candidate.candidateId = id)
      (IsCollision challenge budget) ((Search.advance (searchPolicy system) batch ledger).mapError .search) := by
  have hreplay : Search.nextTier batch.tier = .ok .replay := by rw [htier]; rfl
  have hraises : Imp.RaisesOnly (Search.RepeatsReservation batch ledger .replay)
      (Search.advance (searchPolicy system) batch ledger) :=
    Search.raisesOnly_advance_of_admissible rfl hreplay hseed (hledger.limits ▸ worlds_searchLedgerOf_lt budget)
      fun c hc => by
        obtain ⟨e, he, rfl⟩ := hbatch c hc
        exact (h e he).admissible
  have hplanned : ∀ content, Search.Known batch ledger .replay content → Planned challenge budget content := by
    rintro content (⟨r, hr, rfl⟩ | ⟨htier', hsequence, c, hc, hid, hcost⟩)
    · exact hledger.planned r hr
    · obtain ⟨e, he, rfl⟩ := hbatch c hc
      exact planned_of_expanded (h e he) hid htier' hcost (hledger.limits ▸ hsequence)
  have hreturns : ∀ result, Search.advance (searchPolicy system) batch ledger = .ok result →
      Search.Advanced (searchPolicy system) batch ledger result := fun _ => Search.advanced_of_advance
  generalize Search.advance (searchPolicy system) batch ledger = outcome at hraises hreturns
  cases outcome with
  | error e =>
      obtain ⟨rfl, content, content', id, hknown, hknown', hne, hid, hid'⟩ := hraises e rfl
      exact Imp.ends_error (.reservations content content' id (hplanned _ hknown) (hplanned _ hknown') hne hid hid')
  | ok result =>
      have hadvanced := hreturns result rfl
      obtain ⟨new, hreservations, hperm, hnew⟩ := hadvanced.reserved
      have hresult : result.targetTier = .replay := Except.ok.inj (hadvanced.targetTier.symm.trans hreplay)
      have hlimits : result.ledger.limits = (searchLedgerOf budget).limits := hadvanced.limits.trans hledger.limits
      have hexpansion : ∀ r ∈ new, ∃ e ∈ expansions, e.candidate.candidateId = r.candidateId ∧
          r.cost = e.candidate.promotionCost := by
        intro r hr
        obtain ⟨-, -, c, hc, hid, hcost⟩ := hnew r hr
        obtain ⟨e, he, rfl⟩ := hbatch c hc
        exact ⟨e, he, hid, hcost⟩
      refine Imp.ends_ok ⟨⟨hlimits, fun r hr => ?_⟩, hperm.nodup_iff.mp ?_, fun id hid => ?_⟩
      · have hsequence : r.sequence ≤ (searchLedgerOf budget).limits.worlds := by
          have hmem := List.mem_map_of_mem (f := fun r : Search.BudgetReservation => r.sequence) hr
          have hlength := result.ledger.length_le_worlds
          rw [result.ledger.sequences, List.mem_range'_1] at hmem
          rw [hlimits] at hlength
          omega
        rw [hreservations, List.mem_append] at hr
        rcases hr with hr | hr
        · exact hledger.planned r hr
        · obtain ⟨e, he, hid, hcost⟩ := hexpansion r hr
          exact planned_of_expanded (h e he) hid.symm ((hnew r hr).1.trans hresult) hcost hsequence
      · have hkeys := result.ledger.keysUnique
        rw [hreservations, List.map_append] at hkeys
        have hkeys' : (new.map fun r => (r.candidateId, r.targetTier)).Nodup := (List.nodup_append.mp hkeys).2.1
        have hpairs : new.map (fun r => (r.candidateId, r.targetTier)) =
            (new.map fun r => r.candidateId).map fun id => (id, Search.WorldTier.replay) := by
          rw [List.map_map]
          exact List.map_congr_left fun r hr => Prod.ext rfl ((hnew r hr).1.trans hresult)
        rw [hpairs] at hkeys'
        exact hkeys'.of_map _
      · obtain ⟨r, hr, rfl⟩ := List.mem_map.mp (hperm.mem_iff.mpr hid)
        obtain ⟨e, he, hid, -⟩ := hexpansion r hr
        exact ⟨e, he, hid⟩

/-- Promoting some of the expansions of a level. -/
theorem ends_promote (hseed : SeedIsWritable system) {expansions : List Expansion} (hne : expansions ≠ [])
    (h : ∀ e ∈ expansions, Expanded system challenge old depth e)
    (hnodup : (expansions.map fun e => e.path.actionTokens).Nodup) {ledger : Search.BudgetLedger}
    (hledger : Searched challenge budget ledger) {fingerprints : List Sha256Digest}
    (hfingerprints : fingerprints.Nodup) :
    Imp.Ends (Promoted challenge budget expansions) (IsCollision challenge budget)
      (promote system expansions ledger fingerprints) := by
  unfold promote
  split_ifs
  · exact Imp.ends_ok ⟨⟨_, List.take_subset _ _, hnodup.sublist ((List.take_sublist _ _).map _), rfl⟩, hledger,
      hfingerprints⟩
  · have hperm : (expansions.insertionSort fun a b => a.le b = true).Perm expansions :=
      List.perm_insertionSort _ _
    refine Imp.ends_ok ⟨⟨_, fun e he => hperm.subset (List.take_subset _ _ he), ?_, rfl⟩, hledger, hfingerprints⟩
    exact ((hperm.map fun e => e.path.actionTokens).nodup_iff.mpr hnodup).sublist ((List.take_sublist _ _).map _)
  · refine (ends_searchBatch hne h hnodup).bind fun batch ⟨htier, hbatch⟩ => ?_
    refine (ends_advance h hseed htier hbatch hledger).bind fun result ⟨hsearched, hids, hpromoted⟩ => ?_
    obtain ⟨chosen, hsub, hchosen⟩ := exists_map_eq hpromoted
    refine Imp.ends_ok ⟨⟨chosen, hsub, ?_, hchosen⟩, hsearched, ?_⟩
    · rw [← hchosen, map_candidateId fun e he => h e (hsub he)] at hids
      exact hids.of_map _
    · change (if _ ∈ fingerprints then fingerprints else _).Nodup
      split_ifs with hmem
      · exact hfingerprints
      · exact hfingerprints.append (List.nodup_singleton _) (List.disjoint_singleton.mpr hmem)

end StateWeaver.StateChainBench
