import StateWeaver.Lib.Sha2
import StateWeaver.Search.Order

/-!
# A search is work-conserving

At the end of a search each candidate of the batch is promoted, or there is a reason against it that holds
of the result: a gate, a retained candidate with its fingerprint, an earlier promotion, a full beam, or a
cost that does not fit the final ledger. Candidates are promoted in the order of the policy.
-/

namespace StateWeaver.Search

open Contracts

section

variable [Sha256]

/-! ## Specification -/

/-- How a candidate is settled by its decision at the end of a search. -/
inductive Settled (policy : BeamSearchPolicy) (batch : SearchBatch) (ledger : BudgetLedger)
    (result : SearchResult) (c : SearchCandidate) (d : SearchDecision) : Prop where
  | promoted (hretained : Retained policy batch result.targetTier c) (hpromote : d.disposition = .promote)
      (hmem : c.candidateId ∈ result.promotedCandidateIds)
  | gated (hprune : d.disposition = .prune) (hgates : ¬PassesGates policy c result.targetTier)
      (hreasons : d.reasonCodes = gateReasons policy c result.targetTier)
  | deduplicated (winner : SearchCandidate) (hprune : d.disposition = .prune)
      (hwinner : Retained policy batch result.targetTier winner)
      (hfingerprint : winner.stateFingerprint = c.stateFingerprint) (houtranks : Outranks policy winner c)
      (hdeduplicated : d.deduplicatedTo = some winner.candidateId)
  | alreadyPromoted (hprune : d.disposition = .prune)
      (hretained : Retained policy batch result.targetTier c)
      (hkey : (c.candidateId, result.targetTier) ∈ ledger.keys)
      (hreasons : d.reasonCodes = [.alreadyPromoted])
  | beamCapacity (hprune : d.disposition = .prune) (hretained : Retained policy batch result.targetTier c)
      (hfull : policy.width result.targetTier = .ok result.promotedCandidateIds.length)
      (hreasons : d.reasonCodes = [.beamCapacity])
  | budgetExceeded (hprune : d.disposition = .prune)
      (hretained : Retained policy batch result.targetTier c)
      (hexceeded : ¬Within result.ledger.limits
        ((usage result.ledger.reservations).plus result.targetTier c.promotionCost))
      (hreasons : d.reasonCodes = [.budgetExceeded])

/-! ## Priorities -/

variable {policy : BeamSearchPolicy} {batch : SearchBatch} {ledger : BudgetLedger} {targetTier : WorldTier}
  {width : Nat} {c : SearchCandidate}

omit [Sha256] in
theorem SearchDecision.isFinite (d : SearchDecision) : d.priority.isFinite = true :=
  Py.isFinite_of_between d.priorityInRange.1 d.priorityInRange.2 (by decide +kernel) (by decide +kernel)

omit [Sha256] in
/-- A candidate that a decision is made about has a finite priority. -/
theorem isFinite_of_create {id : ContractId} {source target : WorldTier} {disposition : DecisionDisposition}
    {reasons : List ReasonCode} {reservation dedup : Option ContractId} {decision : SearchDecision}
    (h : SearchDecision.create id source target disposition reasons (priority policy c) reservation dedup =
      .ok decision) : (priority policy c).isFinite = true :=
  (reasons_of_create h).2.2 ▸ decision.isFinite

/-! ## Selection -/

/-- What the loop that selects has added from one state to another, for some candidates. -/
structure Extends (policy : BeamSearchPolicy) (width : Nat) (l : List SearchCandidate) (s s' : Selection)
    (new : List BudgetReservation) : Prop where
  reservations : s'.ledger.reservations = s.ledger.reservations ++ new
  limits : s'.ledger.limits = s.ledger.limits
  promoted : s'.promoted = s.promoted + new.length
  promoted_le : s.promoted ≤ width → s'.promoted ≤ width
  /-- The candidates with a new reservation are in the order of the loop. -/
  chosen : ∃ chosen : List SearchCandidate, chosen.Sublist l ∧
    (new.map fun r => r.candidateId) = chosen.map SearchCandidate.candidateId
  frame : ∀ id, id ∉ l.map SearchCandidate.candidateId → s'.decisions.get? id = s.decisions.get? id
  finite : ∀ c ∈ l, (priority policy c).isFinite = true

theorem Extends.nil {s : Selection} : Extends policy width [] s s [] :=
  ⟨(List.append_nil _).symm, rfl, rfl, id, ⟨[], List.Sublist.slnil, rfl⟩, fun _ _ => rfl,
    List.forall_mem_nil _⟩

theorem exists_extends {l : List SearchCandidate} {s s' : Selection}
    (hpolicy : policy.width targetTier = .ok width)
    (h : l.foldlM (select policy targetTier) s = .ok s') : ∃ new, Extends policy width l s s' new := by
  induction l generalizing s with
  | nil =>
      cases h
      exact ⟨[], .nil⟩
  | cons c l ih =>
      rw [List.foldlM_cons] at h
      obtain ⟨s₁, hstep, h⟩ := Imp.except_bind_eq_ok.mp h
      obtain ⟨new, hnew⟩ := ih h
      obtain ⟨chosen, hsub, hchosen⟩ := hnew.chosen
      have hframe : ∀ id, id ∉ (c :: l).map SearchCandidate.candidateId →
          id ≠ c.candidateId ∧ s'.decisions.get? id = s₁.decisions.get? id := by
        intro id hid
        rw [List.map_cons, List.mem_cons, not_or] at hid
        exact ⟨hid.1, hnew.frame id hid.2⟩
      rcases select_eq_ok hpolicy hstep with ⟨reason, decision, hdecision, rfl, -⟩ |
        ⟨hwidth, r, ledger', decision, hcontent, hlimits, hreservations, hdecision, rfl⟩
      · refine ⟨new, hnew.reservations, hnew.limits, hnew.promoted, hnew.promoted_le,
          ⟨chosen, hsub.cons c, hchosen⟩, fun id hid => ?_,
          List.forall_mem_cons.mpr ⟨isFinite_of_create hdecision, hnew.finite⟩⟩
        obtain ⟨hne, hget⟩ := hframe id hid
        rw [hget, Dict.get?_insert_of_ne _ hne]
      · refine ⟨r :: new, ?_, hnew.limits.trans hlimits, ?_, fun _ => hnew.promoted_le hwidth,
          ⟨c :: chosen, hsub.cons_cons c, ?_⟩, fun id hid => ?_,
          List.forall_mem_cons.mpr ⟨isFinite_of_create hdecision, hnew.finite⟩⟩
        · rw [hnew.reservations, hreservations, List.append_assoc, List.singleton_append]
        · rw [hnew.promoted, List.length_cons, Nat.add_assoc, Nat.add_comm 1]
        · rw [List.map_cons, List.map_cons, hchosen, hcontent]
        · obtain ⟨hne, hget⟩ := hframe id hid
          rw [hget, Dict.get?_insert_of_ne _ hne]

/-- The reasons of the loop against a candidate still hold at its end. -/
theorem selected_or_pruned {l : List SearchCandidate} {s s' : Selection}
    (hpolicy : policy.width targetTier = .ok width) (hwidth : s.promoted ≤ width)
    (hnodup : (l.map SearchCandidate.candidateId).Nodup)
    (h : l.foldlM (select policy targetTier) s = .ok s') (hc : c ∈ l) :
    ∃ d, s'.decisions.get? c.candidateId = some d ∧
      (d.disposition = .promote ∨ d.disposition = .prune ∧
        (d.reasonCodes = [.alreadyPromoted] ∧ (c.candidateId, targetTier) ∈ s.ledger.keys ∨
          d.reasonCodes = [.beamCapacity] ∧ s'.promoted = width ∨
          d.reasonCodes = [.budgetExceeded] ∧ ¬Within s'.ledger.limits
            ((usage s'.ledger.reservations).plus targetTier c.promotionCost))) := by
  obtain ⟨before, after, rfl⟩ := List.append_of_mem hc
  obtain ⟨s₁, hbefore, h⟩ := Imp.foldlM_append_eq_ok.mp h
  rw [List.foldlM_cons] at h
  obtain ⟨s₂, hstep, hafter⟩ := Imp.except_bind_eq_ok.mp h
  obtain ⟨old, hold⟩ := exists_extends hpolicy hbefore
  obtain ⟨new, hnew⟩ := exists_extends hpolicy hafter
  rw [List.map_append, List.map_cons, List.nodup_append, List.nodup_cons] at hnodup
  obtain ⟨-, ⟨hafterFresh, -⟩, hdisjoint⟩ := hnodup
  have hbeforeFresh : c.candidateId ∉ before.map SearchCandidate.candidateId := fun hmem =>
    hdisjoint _ hmem _ List.mem_cons_self rfl
  rcases select_eq_ok hpolicy hstep with ⟨reason, decision, hdecision, rfl, hreason⟩ |
    ⟨-, r, ledger', decision, -, -, -, hdecision, rfl⟩
  · obtain ⟨hreasons, -, -⟩ := reasons_of_create hdecision
    obtain ⟨-, -, -, hprune, -⟩ := create_eq_ok hdecision
    refine ⟨decision, ?_, .inr ⟨hprune, ?_⟩⟩
    · rw [hnew.frame _ hafterFresh, Dict.get?_insert_self]
    · rcases hreason with ⟨rfl, hfull⟩ | ⟨rfl, hkey⟩ | ⟨rfl, hexceeded⟩
      · refine .inr (.inl ⟨hreasons, le_antisymm (hnew.promoted_le (hold.promoted_le hwidth)) ?_⟩)
        rw [hnew.promoted]
        exact le_trans hfull (Nat.le_add_right _ _)
      · -- an earlier reservation of the loop is for another candidate
        refine .inl ⟨hreasons, ?_⟩
        rw [BudgetLedger.keys, hold.reservations, List.map_append] at hkey
        refine (List.mem_append.mp hkey).resolve_right fun hmem => hbeforeFresh ?_
        obtain ⟨r, hr, heq⟩ := List.mem_map.mp hmem
        obtain ⟨chosen, hsub, hchosen⟩ := hold.chosen
        have hid := List.mem_map_of_mem (f := fun r : BudgetReservation => r.candidateId) hr
        rw [hchosen] at hid
        have hcandidate : r.candidateId = c.candidateId := (Prod.ext_iff.mp heq).1
        exact hcandidate ▸ (hsub.map _).subset hid
      · refine .inr (.inr ⟨hreasons, fun hwithin => hexceeded ?_⟩)
        rw [hnew.limits, hnew.reservations] at hwithin
        exact hwithin.of_append
  · obtain ⟨-, -, -, hpromote, -⟩ := create_eq_ok hdecision
    refine ⟨decision, ?_, .inl hpromote⟩
    rw [hnew.frame _ hafterFresh, Dict.get?_insert_self]

/-! ## Decisions before the loop -/

omit [Sha256] in
/-- A candidate with a reason against it is pruned by the gates for all of its reasons. -/
theorem gated_of_foldlM {l : List SearchCandidate} {s s' : Decisions × List SearchCandidate}
    (hnodup : (l.map SearchCandidate.candidateId).Nodup)
    (h : l.foldlM (gateStep policy targetTier) s = .ok s') :
    (∀ id, id ∉ l.map SearchCandidate.candidateId → s'.1.get? id = s.1.get? id) ∧
      ∀ c ∈ l, gateReasons policy c targetTier ≠ [] → ∃ d, s'.1.get? c.candidateId = some d ∧
        pruned policy c targetTier (gateReasons policy c targetTier) none = .ok d := by
  induction l generalizing s with
  | nil =>
      cases h
      exact ⟨fun _ _ => rfl, List.forall_mem_nil _⟩
  | cons c l ih =>
      rw [List.foldlM_cons] at h
      obtain ⟨s₁, hstep, h⟩ := Imp.except_bind_eq_ok.mp h
      rw [List.map_cons, List.nodup_cons] at hnodup
      obtain ⟨hframe, hgated⟩ := ih hnodup.2 h
      rw [gateStep] at hstep
      split_ifs at hstep with hreasons
      · obtain ⟨d, hd, hstep⟩ := Imp.except_bind_eq_ok.mp hstep
        cases hstep
        refine ⟨fun id hid => ?_, List.forall_mem_cons.mpr ⟨fun _ => ⟨d, ?_, hd⟩, hgated⟩⟩
        · rw [List.map_cons, List.mem_cons, not_or] at hid
          rw [hframe id hid.2, Dict.get?_insert_of_ne _ hid.1]
        · rw [hframe _ hnodup.1, Dict.get?_insert_self]
      · cases hstep
        refine ⟨fun id hid => ?_, List.forall_mem_cons.mpr ⟨fun h => absurd h hreasons, hgated⟩⟩
        rw [List.map_cons, List.mem_cons, not_or] at hid
        exact hframe id hid.2

omit [Sha256] in
/-- `decisions.update(duplicates)`: the decisions about duplicates replace others. -/
theorem get?_update {decisions : Decisions} (duplicates : Decisions) (id : ContractId) :
    (duplicates.entries.foldl (fun d e => d.insert e.1 e.2) decisions).get? id =
      (duplicates.get? id).or (decisions.get? id) := by
  obtain ⟨entries, hnodup⟩ := duplicates
  simp only [Dict.get?]
  induction entries generalizing decisions with
  | nil => rfl
  | cons e entries ih =>
      obtain ⟨key, d⟩ := e
      rw [List.map_cons, List.nodup_cons] at hnodup
      have hrest := @ih (decisions.insert key d) hnodup.2
      rw [List.foldl_cons, List.lookup_cons]
      refine hrest.trans ?_
      change (entries.lookup id).or ((decisions.insert key d).get? id) = _
      rw [Dict.get?_insert]
      by_cases hid : id = key
      · subst hid
        have hfresh : entries.lookup id = none := by
          rw [List.lookup_eq_none_iff]
          rintro ⟨key', d'⟩ hmem
          exact bne_iff_ne.mpr fun heq => hnodup.1 (List.mem_map.mpr ⟨_, hmem, heq.symm⟩)
        rw [hfresh, if_pos rfl, beq_self_eq_true]
        rfl
      · rw [if_neg hid, beq_false_of_ne hid]
        rfl

/-! ## What decisions say -/

omit [Sha256] in
/-- A promotion has one reason, and a decision names a winner exactly if it is about a duplicate. -/
theorem SearchDecision.shape (d : SearchDecision) :
    (d.disposition = .promote → d.reasonCodes = [.promoted]) ∧
      (d.reasonCodes.any fun reason => reason = .duplicateState || reason = .dominatedByCheaperWorld) =
        d.deduplicatedTo.isSome := by
  have hshape := d.shapeIsCoherent
  rw [decisionShapeIsCoherent, Imp.check_bind_eq_ok] at hshape
  obtain ⟨-, hshape⟩ := hshape
  cases hdisposition : d.disposition with
  | promote =>
      rw [hdisposition] at hshape
      simp only [Imp.check_bind_eq_ok, Imp.require_eq_ok] at hshape
      exact ⟨fun _ => hshape.1.1, hshape.2.2⟩
  | prune =>
      rw [hdisposition] at hshape
      simp only [Imp.check_bind_eq_ok, Imp.require_eq_ok] at hshape
      exact ⟨(fun h => by cases h), hshape.2⟩

omit [Sha256] in
theorem SearchDecision.deduplicatedTo_eq_none (d : SearchDecision) {reason : ReasonCode}
    (h : d.reasonCodes = [reason])
    (hreason : reason ≠ .duplicateState ∧ reason ≠ .dominatedByCheaperWorld) : d.deduplicatedTo = none := by
  have hshape := d.shape.2
  rw [h, List.any_cons, List.any_nil, decide_eq_false hreason.1, decide_eq_false hreason.2] at hshape
  exact Option.isNone_iff_eq_none.mp (by rw [← Option.not_isSome, ← hshape]; rfl)

/-! ## One search -/

/-- What is known of the candidates that pass the gates, when they have been ranked and deduplicated. -/
structure Ordered (policy : BeamSearchPolicy) (batch : SearchBatch) (targetTier : WorldTier)
    (deduplicated : List SearchCandidate) (duplicates : Decisions) : Prop where
  retained : ∀ c, c ∈ deduplicated ↔ Retained policy batch targetTier c
  nodup : (deduplicated.map SearchCandidate.candidateId).Nodup
  order : (diverseOrder deduplicated).Pairwise (Precedes policy batch targetTier)
  duplicate : ∀ c ∈ batch.candidates, PassesGates policy c targetTier →
    ¬Retained policy batch targetTier c → ∃ winner d, Retained policy batch targetTier winner ∧
      winner.stateFingerprint = c.stateFingerprint ∧ Outranks policy winner c ∧
      duplicates.get? c.candidateId = some d ∧ d.disposition = .prune ∧
      d.deduplicatedTo = some winner.candidateId ∧ d.reasonCodes = [duplicateReason winner c]
  kept : ∀ c ∈ batch.candidates, ¬PassesGates policy c targetTier →
    duplicates.get? c.candidateId = none

theorem ordered_of_eq_ok {decisions duplicates : Decisions}
    {eligible ranking deduplicated : List SearchCandidate}
    (hgates : batch.candidates.foldlM (gateStep policy targetTier) (Dict.empty, []) =
      .ok (decisions, eligible))
    (hranked : ranked policy eligible = .ok ranking)
    (hdeduplicate : deduplicate policy ranking = .ok (deduplicated, duplicates))
    (hfinite : ∀ c ∈ deduplicated, (priority policy c).isFinite = true) :
    Ordered policy batch targetTier deduplicated duplicates := by
  have hperm := ranked_perm hranked
  obtain ⟨heligible, -, -⟩ := gates_eq_ok hgates
  have hranking : ∀ c, c ∈ ranking ↔ c ∈ batch.candidates ∧ PassesGates policy c targetTier := by
    intro c
    rw [hperm.mem_iff, heligible, List.mem_filter, decide_eq_true_eq, gateReasons_eq_nil]
  have hnodup : (eligible.map SearchCandidate.candidateId).Nodup := by
    rw [heligible]
    exact batch.nodup.sublist (List.filter_sublist.map _)
  have hnodup' := (hperm.map SearchCandidate.candidateId).nodup_iff.mpr hnodup
  rw [deduplicate] at hdeduplicate
  obtain ⟨⟨retained, duplicates'⟩, hfold, hdeduplicate⟩ := Imp.except_bind_eq_ok.mp hdeduplicate
  cases hdeduplicate
  obtain ⟨hvalues, -, hframe, hdecided⟩ := foldlM_deduplicateStep hfold hnodup'
    (by rintro fingerprint winner hget; cases hget)
  have hvalues : retained.values = List.firstsFrom SearchCandidate.stateFingerprint [] ranking := hvalues
  have hrankedFinite : ∀ c ∈ ranking, (priority policy c).isFinite = true := by
    intro c hc
    rcases hdecided c hc with hfirst | ⟨winner, -, -, target, d, hd, -⟩
    · exact hfinite c (hvalues ▸ hfirst)
    · exact isFinite_of_create hd
  have hsorted := ranked_pairwise hranked (fun c hc => hrankedFinite c (hperm.mem_iff.mpr hc)) hnodup
  have hretained : ∀ c, c ∈ retained.values ↔ Retained policy batch targetTier c := by
    intro c
    rw [hvalues]
    exact mem_firsts_iff hsorted hranking hrankedFinite c
  refine ⟨hretained, ?_, ?_, fun c hc hpasses hlost => ?_, fun c hc hfails => ?_⟩
  · exact hvalues ▸ hnodup'.sublist (List.firstsFrom_sublist.map _)
  · refine diverseOrder_pairwise (hvalues ▸ hsorted.sublist List.firstsFrom_sublist) hretained hfinite
  · rcases hdecided c ((hranking c).mpr ⟨hc, hpasses⟩) with hfirst | ⟨winner, hduplicate⟩
    · exact absurd ((hretained c).mp (hvalues ▸ hfirst)) hlost
    · have hwinner := (hretained winner).mp (mem_values_of_get? hduplicate.won)
      obtain ⟨target, d, hd, hget⟩ := hduplicate.decided
      refine ⟨winner, d, hwinner, hduplicate.fingerprint, ?_, hget, (create_eq_ok hd).2.2.2.1,
        (reasons_of_create hd).2.1, (reasons_of_create hd).1⟩
      refine hwinner.first c hc hpasses hduplicate.fingerprint.symm ?_
      rintro rfl
      exact hlost hwinner
  · refine (hframe _ fun hmem => ?_).trans (Dict.get?_empty _)
    obtain ⟨c', hc', heq⟩ := List.mem_map.mp hmem
    obtain ⟨hbatch, hpasses⟩ := (hranking c').mp hc'
    obtain rfl := SearchBatch.eq_of_candidateId_eq hbatch hc heq
    exact hfails hpasses

variable [SearchDigest] {result : SearchResult}

/-- What a search does about each candidate, and with the ledger. -/
theorem settled_of_advance (h : advance policy batch ledger = .ok result) :
    (∀ c ∈ batch.candidates, ∃ d ∈ result.decisions, d.candidateId = c.candidateId ∧
      Settled policy batch ledger result c d ∧
      (PassesGates policy c result.targetTier → ¬Retained policy batch result.targetTier c → ∃ winner,
        Retained policy batch result.targetTier winner ∧ winner.stateFingerprint = c.stateFingerprint ∧
        d.deduplicatedTo = some winner.candidateId ∧ d.reasonCodes = [duplicateReason winner c]) ∧
      (¬(PassesGates policy c result.targetTier ∧ ¬Retained policy batch result.targetTier c) →
        d.deduplicatedTo = none)) ∧
    (∀ c, Retained policy batch result.targetTier c → (priority policy c).isFinite = true) ∧
    ∃ new : List BudgetReservation, ∃ promoted : List SearchCandidate,
      result.ledger.reservations = ledger.reservations ++ new ∧
      (new.map fun r => r.candidateId) = promoted.map SearchCandidate.candidateId ∧
      (promoted.map SearchCandidate.candidateId).Perm result.promotedCandidateIds ∧
      (∀ c ∈ promoted, Retained policy batch result.targetTier c) ∧
      promoted.Pairwise (Precedes policy batch result.targetTier) := by
  have hadvanced := advanced_of_advance h
  rw [advance] at h
  obtain ⟨targetTier, htier, h⟩ := Imp.except_bind_eq_ok.mp h
  obtain ⟨⟨gateDecisions, eligible⟩, hgates, h⟩ := Imp.except_bind_eq_ok.mp h
  obtain ⟨ranking, hranked, h⟩ := Imp.except_bind_eq_ok.mp h
  obtain ⟨⟨deduplicated, duplicates⟩, hdeduplicate, h⟩ := Imp.except_bind_eq_ok.mp h
  obtain ⟨s, hselect, h⟩ := Imp.except_bind_eq_ok.mp h
  obtain ⟨decisions, hlist, h⟩ := Imp.except_bind_eq_ok.mp h
  obtain ⟨fingerprint, -, h⟩ := Imp.except_bind_eq_ok.mp h
  obtain ⟨width, hwidth⟩ := exists_width policy htier
  obtain ⟨order, new', hphases⟩ := exists_phases hwidth hgates hranked hdeduplicate hselect
  obtain ⟨hids, hfiled, hlisted⟩ := hphases.listed hlist
  obtain ⟨new, hnew⟩ := exists_extends hwidth hselect
  have hperm := diverseOrder_perm deduplicated
  have hordered := ordered_of_eq_ok hgates hranked hdeduplicate
    fun c hc => hnew.finite c (hperm.mem_iff.mpr hc)
  obtain ⟨hframe, hgated⟩ := gated_of_foldlM batch.nodup hgates
  have hretained : ∀ c, c ∈ diverseOrder deduplicated ↔ Retained policy batch targetTier c := fun c =>
    hperm.mem_iff.trans (hordered.retained c)
  have horder := ((hperm.map SearchCandidate.candidateId).nodup_iff).mpr hordered.nodup
  -- a candidate that is not in the loop keeps its decision
  have hkept : ∀ c ∈ batch.candidates, ¬Retained policy batch targetTier c →
      s.decisions.get? c.candidateId =
        (duplicates.get? c.candidateId).or (gateDecisions.get? c.candidateId) := by
    intro c hc hlost
    rw [hnew.frame _ fun hmem => ?_, get?_update]
    obtain ⟨c', hc', heq⟩ := List.mem_map.mp hmem
    have hmem' := (hretained c').mp hc'
    exact hlost (SearchBatch.eq_of_candidateId_eq hmem'.mem hc heq ▸ hmem')
  obtain rfl : new = new' :=
    List.append_cancel_left (hnew.reservations.symm.trans hphases.reservations)
  have hpromoted := (hphases.perm_promotedIds hlist).trans
    (List.perm_insertionSort (· ≤ ·) (promotedIds decisions)).symm
  have hcount : ((promotedIds decisions).insertionSort (· ≤ ·)).length = s.promoted := by
    rw [← hpromoted.length_eq, List.length_map, hnew.promoted, Nat.zero_add]
  rw [SearchResult.create] at h
  split at h
  · cases h
    refine ⟨fun c hc => ?_, fun c hc => hnew.finite c ((hretained c).mpr hc), ?_⟩
    · by_cases hpasses : PassesGates policy c targetTier
      · by_cases hkeep : Retained policy batch targetTier c
        · obtain ⟨d, hget, hsettled⟩ := selected_or_pruned hwidth (Nat.zero_le _) horder hselect
            ((hretained c).mpr hkeep)
          have hid := (hphases.filed _ d hget).1
          have hmem := hlisted c hc d hget
          refine ⟨d, hmem, hid, ?_⟩
          rw [and_iff_right fun _ hlost => absurd hkeep hlost]
          rcases hsettled with hpromote | ⟨hprune, ⟨hreasons, hkey⟩ | ⟨hreasons, hfull⟩ | ⟨hreasons, hexceeded⟩⟩
          · refine ⟨.promoted hkeep hpromote ((List.perm_insertionSort _ _).mem_iff.mpr ?_),
              fun _ => d.deduplicatedTo_eq_none (d.shape.1 hpromote) (by decide)⟩
            exact mem_promotedIds.mpr ⟨d, hmem, hpromote, hid⟩
          · exact ⟨.alreadyPromoted hprune hkeep hkey hreasons,
              fun _ => d.deduplicatedTo_eq_none hreasons (by decide)⟩
          · refine ⟨.beamCapacity hprune hkeep ?_ hreasons,
              fun _ => d.deduplicatedTo_eq_none hreasons (by decide)⟩
            rw [hcount, hfull]
            exact hwidth
          · exact ⟨.budgetExceeded hprune hkeep hexceeded hreasons,
              fun _ => d.deduplicatedTo_eq_none hreasons (by decide)⟩
        · obtain ⟨winner, d, hwinner, hfingerprint, houtranks, hget, hprune, hdeduplicated, hreasons⟩ :=
            hordered.duplicate c hc hpasses hkeep
          have hfinal := hkept c hc hkeep
          rw [hget, Option.some_or] at hfinal
          exact ⟨d, hlisted c hc d hfinal, (hphases.filed _ d hfinal).1,
            .deduplicated winner hprune hwinner hfingerprint houtranks hdeduplicated,
            fun _ _ => ⟨winner, hwinner, hfingerprint, hdeduplicated, hreasons⟩,
            fun hkept => absurd ⟨hpasses, hkeep⟩ hkept⟩
      · obtain ⟨d, hget, hd⟩ := hgated c hc fun hnil => hpasses (gateReasons_eq_nil.mp hnil)
        have hfinal := hkept c hc fun hkeep => hpasses hkeep.gates
        rw [hordered.kept c hc hpasses, hget, Option.none_or] at hfinal
        exact ⟨d, hlisted c hc d hfinal, (hphases.filed _ d hfinal).1,
          .gated (create_eq_ok hd).2.2.2.1 hpasses (reasons_of_create hd).1,
          fun hgates => absurd hgates hpasses, fun _ => (reasons_of_create hd).2.1⟩
    · obtain ⟨promoted, hsub, hchosen⟩ := hnew.chosen
      exact ⟨new, promoted, hnew.reservations, hchosen, hchosen ▸ hpromoted,
        fun c hc => (hretained c).mp (hsub.subset hc), hordered.order.sublist hsub⟩
  · cases h

/-- Each candidate is settled by its decision for a reason that holds at the end of the search, and the
new reservations are for retained candidates in the order of the policy. -/
theorem work_conserving (h : advance policy batch ledger = .ok result) :
    (∀ c ∈ batch.candidates, ∃ d ∈ result.decisions, d.candidateId = c.candidateId ∧
      Settled policy batch ledger result c d) ∧
    ∃ new : List BudgetReservation, ∃ promoted : List SearchCandidate,
      result.ledger.reservations = ledger.reservations ++ new ∧
      (new.map fun r => r.candidateId) = promoted.map SearchCandidate.candidateId ∧
      (promoted.map SearchCandidate.candidateId).Perm result.promotedCandidateIds ∧
      (∀ c ∈ promoted, Retained policy batch result.targetTier c) ∧
      promoted.Pairwise (Precedes policy batch result.targetTier) := by
  obtain ⟨hsettled, -, hreserved⟩ := settled_of_advance h
  refine ⟨fun c hc => ?_, hreserved⟩
  obtain ⟨d, hd, hid, hc, -⟩ := hsettled c hc
  exact ⟨d, hd, hid, hc⟩

end

/-! ## A search in which the beam is full -/

def half : Probability := ⟨0.5, by decide +kernel⟩

def halfScore : PositiveScore := ⟨0.5, by decide +kernel⟩

def zeroDigest : Sha256Digest := ⟨"sha256:" ++ String.ofList (List.replicate 64 '0'), by decide +kernel⟩

def oneDigest : Sha256Digest := ⟨"sha256:" ++ String.ofList (List.replicate 64 '1'), by decide +kernel⟩

/-- A candidate that passes the gates of a search for `replay`. -/
def admissible (candidateId : ContractId) (stateFingerprint : Sha256Digest) : SearchCandidate where
  candidateId := candidateId
  tier := .ghost
  stateFingerprint := stateFingerprint
  diversityKey := candidateId
  scores := ⟨half, half, half, half, half, half, halfScore, halfScore⟩
  uncertainty := half
  transitionFragments := []
  gates :=
    { inScope := true, policyOutcome := .allow, reversible := true, actionPlanRefs := ⟨[], .nil⟩
      expectedObservations := [], oracleRefs := ⟨[], .nil⟩, evidenceIds := ⟨[], .nil⟩
      requiredCapabilities := ⟨[], .nil⟩, availableCapabilities := ⟨[], .nil⟩, snapshotCapable := false
      newFactCount := 1, calibrationPath := false, approvalCoherent := fun _ => rfl }
  promotionCost := {}

def twoCandidates : SearchBatch where
  candidates := [admissible ⟨"candidate.a", by decide⟩ zeroDigest,
    admissible ⟨"candidate.b", by decide⟩ oneDigest]
  tier := .ghost
  nonempty := by decide
  sorted := by decide
  oneTier := by simp [admissible]
  promotable := by decide

def narrowPolicy : BeamSearchPolicy where
  replayWidth := 1
  uncertaintyBonus := half
  minimumFidelity := half
  widthsInRange := by decide
  limitInRange := by decide

def emptyLedger [Sha256] : BudgetLedger where
  limits := ⟨0, 0, 0, 0, 64, 16, 8, 4⟩
  reservations := []
  sequences := rfl
  idsUnique := List.nodup_nil
  keysUnique := List.nodup_nil
  withinLimits := rfl

@[reducible]
def zeroBatchDigest : SearchDigest := ⟨fun _ => .ok zeroDigest⟩

theorem promotes_one : let _ := Sha2.sha256
    let _ := zeroBatchDigest
    ((advance narrowPolicy twoCandidates emptyLedger).toOption.map fun result =>
      result.promotedCandidateIds.length) = some 1 := by decide +kernel

/-- One of two candidates is promoted, and the other one is pruned as the beam is full. -/
theorem work_conserving_twoCandidates : let _ := Sha2.sha256
    let _ := zeroBatchDigest
    ∃ result, advance narrowPolicy twoCandidates emptyLedger = .ok result ∧
      result.promotedCandidateIds.length = 1 ∧
      ∀ c ∈ twoCandidates.candidates, ∃ d ∈ result.decisions, d.candidateId = c.candidateId ∧
        Settled narrowPolicy twoCandidates emptyLedger result c d := by
  intro _ _
  obtain ⟨result, h, hone⟩ := Option.map_eq_some_iff.mp promotes_one
  have h := Imp.toOption_eq_some.mp h
  exact ⟨result, h, hone, (work_conserving h).1⟩

end StateWeaver.Search
