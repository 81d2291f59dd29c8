import StateWeaver.Lib.Firsts
import StateWeaver.Lib.FloatOrder
import StateWeaver.Search.Advance

/-!
# The order of a search

Candidates that pass the gates are considered by priority. Of those with one fingerprint the first is
retained, and the first retained candidate of each diversity key comes before the others.
-/

namespace StateWeaver.Search

open Contracts

/-! ## Specification -/

/-- A higher priority comes first. Ties are broken by a digest, then by the identifiers. -/
def Outranks [Sha256] (policy : BeamSearchPolicy) (c c' : SearchCandidate) : Prop :=
  priority policy c' < priority policy c ∨ (priority policy c == priority policy c') = true ∧
    ∃ digest digest', digestOf (tieValue policy c) = .ok digest ∧
      digestOf (tieValue policy c') = .ok digest' ∧
      (digest < digest' ∨ digest = digest' ∧ c.candidateId < c'.candidateId)

/-- A candidate that passes the gates and outranks the others with its fingerprint that do. -/
structure Retained [Sha256] (policy : BeamSearchPolicy) (batch : SearchBatch) (targetTier : WorldTier)
    (c : SearchCandidate) : Prop where
  mem : c ∈ batch.candidates
  gates : PassesGates policy c targetTier
  first : ∀ c' ∈ batch.candidates, PassesGates policy c' targetTier →
    c'.stateFingerprint = c.stateFingerprint → c' ≠ c → Outranks policy c c'

/-- The candidate outranks the other retained ones with its diversity key. -/
def Leads [Sha256] (policy : BeamSearchPolicy) (batch : SearchBatch) (targetTier : WorldTier)
    (c : SearchCandidate) : Prop :=
  ∀ c', Retained policy batch targetTier c' → c'.diversityKey = c.diversityKey → c' ≠ c →
    Outranks policy c c'

/-- The order in which retained candidates are considered: those that lead first, by rank, then the others,
by rank. -/
def Precedes [Sha256] (policy : BeamSearchPolicy) (batch : SearchBatch) (targetTier : WorldTier)
    (c c' : SearchCandidate) : Prop :=
  Leads policy batch targetTier c ∧ ¬Leads policy batch targetTier c' ∨
    (Leads policy batch targetTier c ↔ Leads policy batch targetTier c') ∧ Outranks policy c c'

/-! ## Ranking -/

/-- What a key is compared by. -/
def RankKey.rank (k : RankKey) : (ℤ ×ₗ ℤ ×ₗ ℤ) ×ₗ Sha256Digest ×ₗ ContractId :=
  toLex (Py.floatRank k.negatedPriority, toLex (k.digest, k.candidateId))

theorem RankKey.le_eq_true {a b : RankKey} (ha : a.negatedPriority.isNaN = false)
    (hb : b.negatedPriority.isNaN = false) : a.le b = true ↔ a.rank ≤ b.rank := by
  simp only [RankKey.le, Bool.or_eq_true, Bool.and_eq_true, decide_eq_true_eq, beq_iff_eq,
    RankKey.rank, Prod.Lex.toLex_le_toLex]
  rw [Py.lt_iff_floatRank ha hb, Py.beq_iff_floatRank ha hb]

variable [Sha256] {policy : BeamSearchPolicy} {batch : SearchBatch} {targetTier : WorldTier}
  {c c' : SearchCandidate}

theorem rankKey_eq_ok {key : RankKey} (h : rankKey policy c = .ok key) :
    key.negatedPriority = -priority policy c ∧ digestOf (tieValue policy c) = .ok key.digest ∧
      key.candidateId = c.candidateId := by
  rw [rankKey] at h
  obtain ⟨digest, hdigest, h⟩ := Imp.except_bind_eq_ok.mp h
  cases h
  refine ⟨rfl, ?_, rfl⟩
  cases hd : digestOf (tieValue policy c) with
  | error e =>
      rw [hd] at hdigest
      cases hdigest
  | ok d =>
      rw [hd] at hdigest
      cases hdigest
      rfl

/-- Candidates with finite priorities are ranked like their keys. -/
theorem rank_lt_rank_iff {key key' : RankKey} (hc : (priority policy c).isFinite = true)
    (hc' : (priority policy c').isFinite = true) (hkey : rankKey policy c = .ok key)
    (hkey' : rankKey policy c' = .ok key') : key.rank < key'.rank ↔ Outranks policy c c' := by
  obtain ⟨hpriority, hdigest, hid⟩ := rankKey_eq_ok hkey
  obtain ⟨hpriority', hdigest', hid'⟩ := rankKey_eq_ok hkey'
  have hnumber := Py.isNaN_neg hc
  have hnumber' := Py.isNaN_neg hc'
  simp only [RankKey.rank, Prod.Lex.toLex_lt_toLex, hpriority, hpriority', hid, hid']
  rw [← Py.lt_iff_floatRank hnumber hnumber', ← Py.beq_iff_floatRank hnumber hnumber',
    Py.float_neg_lt_neg hc hc', Py.float_neg_beq_neg hc hc', Outranks]
  refine or_congr_right (and_congr_right fun _ => ?_)
  constructor
  · exact fun h => ⟨_, _, hdigest, hdigest', h⟩
  · rintro ⟨digest, digest', hd, hd', h⟩
    rw [hdigest] at hd
    rw [hdigest'] at hd'
    cases hd
    cases hd'
    exact h

/-- The candidates that are ranked, with their keys. -/
theorem ranked_eq_ok {candidates ranking : List SearchCandidate}
    (h : ranked policy candidates = .ok ranking) : ∃ keyed : List (RankKey × SearchCandidate),
      keyed.map Prod.snd = candidates ∧ (∀ e ∈ keyed, rankKey policy e.2 = .ok e.1) ∧
      ranking = (keyed.insertionSort fun a b => a.1.le b.1 = true).map Prod.snd := by
  rw [ranked] at h
  obtain ⟨keyed, hkeyed, h⟩ := Imp.except_bind_eq_ok.mp h
  cases h
  refine ⟨keyed, mapM_pair_map_snd hkeyed, fun e he => ?_, rfl⟩
  obtain ⟨c, -, hc⟩ := Imp.exists_of_mem_mapM hkeyed he
  obtain ⟨key, hkey, hc⟩ := Imp.except_bind_eq_ok.mp hc
  cases hc
  exact hkey

/-- Ranked candidates with finite priorities outrank those that come after them. -/
theorem ranked_pairwise {candidates ranking : List SearchCandidate}
    (h : ranked policy candidates = .ok ranking)
    (hfinite : ∀ c ∈ candidates, (priority policy c).isFinite = true)
    (hnodup : (candidates.map SearchCandidate.candidateId).Nodup) :
    ranking.Pairwise (Outranks policy) := by
  obtain ⟨keyed, hcandidates, hkeys, rfl⟩ := ranked_eq_ok h
  subst hcandidates
  have hpriority : ∀ e ∈ keyed, (priority policy e.2).isFinite = true := fun e he =>
    hfinite e.2 (List.mem_map_of_mem he)
  have hnumber : ∀ e ∈ keyed, e.1.negatedPriority.isNaN = false := by
    intro e he
    rw [(rankKey_eq_ok (hkeys e he)).1]
    exact Py.isNaN_neg (hpriority e he)
  -- comparing the keys is comparing in a linear order
  have hsort : keyed.insertionSort (fun a b => a.1.le b.1 = true) =
      keyed.insertionSort fun a b => a.1.rank ≤ b.1.rank := by
    have := List.map_insertionSort (r := fun a b : RankKey × SearchCandidate => a.1.le b.1 = true)
      (s := fun a b : RankKey × SearchCandidate => a.1.rank ≤ b.1.rank) id keyed
      fun a ha b hb => RankKey.le_eq_true (hnumber a ha) (hnumber b hb)
    rwa [List.map_id, List.map_id] at this
  have htotal : Std.Total fun a b : RankKey × SearchCandidate => a.1.rank ≤ b.1.rank :=
    ⟨fun a b => le_total _ _⟩
  have htrans : IsTrans (RankKey × SearchCandidate) fun a b => a.1.rank ≤ b.1.rank :=
    ⟨fun a b c => le_trans⟩
  rw [hsort, List.pairwise_map]
  generalize hl : keyed.insertionSort (fun a b => a.1.rank ≤ b.1.rank) = l
  have hperm : l.Perm keyed := hl ▸ List.perm_insertionSort _ _
  have hle : l.Pairwise fun a b => a.1.rank ≤ b.1.rank := hl ▸ List.pairwise_insertionSort _ keyed
  have hids : l.Pairwise fun a b => a.2.candidateId ≠ b.2.candidateId := by
    rw [List.map_map] at hnodup
    exact List.pairwise_map.mp ((hperm.map _).nodup_iff.mpr hnodup)
  refine (hle.and hids).imp_of_mem fun {a b} ha hb hab => ?_
  have ha := hperm.mem_iff.mp ha
  have hb := hperm.mem_iff.mp hb
  rw [← rank_lt_rank_iff (hpriority a ha) (hpriority b hb) (hkeys a ha) (hkeys b hb)]
  refine lt_of_le_of_ne hab.1 fun heq => hab.2 ?_
  have hkey : a.1.candidateId = b.1.candidateId :=
    (Prod.ext_iff.mp (toLex_inj.mp (Prod.ext_iff.mp (toLex_inj.mp heq)).2)).2
  rw [← (rankKey_eq_ok (hkeys a ha)).2.2, ← (rankKey_eq_ok (hkeys b hb)).2.2, hkey]

/-- No two candidates outrank each other. -/
theorem Outranks.asymm (hc : (priority policy c).isFinite = true)
    (hc' : (priority policy c').isFinite = true) (h : Outranks policy c c') : ¬Outranks policy c' c := by
  have hnumber := Py.isNaN_of_isFinite hc
  have hnumber' := Py.isNaN_of_isFinite hc'
  rw [Outranks, Py.lt_iff_floatRank hnumber' hnumber, Py.beq_iff_floatRank hnumber hnumber'] at h
  rw [Outranks, Py.lt_iff_floatRank hnumber hnumber', Py.beq_iff_floatRank hnumber' hnumber]
  rintro (hlt | ⟨heq, d', d, hd', hd, hlt⟩)
  · rcases h with hgt | ⟨heq, -⟩
    · exact lt_asymm hlt hgt
    · exact absurd heq.ge (not_le.mpr hlt)
  · rcases h with hgt | ⟨-, e, e', he, he', hgt⟩
    · exact absurd heq.ge (not_le.mpr hgt)
    · rw [hd] at he
      rw [hd'] at he'
      cases he
      cases he'
      rcases hlt with hlt | ⟨rfl, hlt⟩ <;> rcases hgt with hgt | ⟨hd, hgt⟩
      · exact lt_asymm hlt hgt
      · exact absurd hd.le (not_le.mpr hlt)
      · exact lt_irrefl _ hgt
      · exact lt_asymm hlt hgt

/-! ## Diversity -/

omit [Sha256] in
theorem diverseOrder_eq (l : List SearchCandidate) : diverseOrder l =
    List.firstsFrom SearchCandidate.diversityKey [] l ++
      List.repeatsFrom SearchCandidate.diversityKey [] l := by
  have hfold : ∀ step : List SearchCandidate × List SearchCandidate × List ContractId → SearchCandidate →
        List SearchCandidate × List SearchCandidate × List ContractId,
      (∀ first deferred seen candidate, step (first, deferred, seen) candidate =
        if candidate.diversityKey ∈ seen then (first, deferred ++ [candidate], seen)
        else (first ++ [candidate], deferred, seen ++ [candidate.diversityKey])) →
      ∀ (l first deferred : List SearchCandidate) (seen : List ContractId), ∃ seen', l.foldl step
        ((first, deferred, seen) : List SearchCandidate × List SearchCandidate × List ContractId) =
      (first ++ List.firstsFrom SearchCandidate.diversityKey seen l,
        deferred ++ List.repeatsFrom SearchCandidate.diversityKey seen l, seen') := by
    intro step hstep l
    induction l with
    | nil =>
        intro first deferred seen
        refine ⟨seen, ?_⟩
        rw [List.firstsFrom, List.repeatsFrom, List.append_nil, List.append_nil]
        rfl
    | cons c l ih =>
        intro first deferred seen
        rw [List.foldl_cons, hstep]
        rw [List.firstsFrom, List.repeatsFrom]
        split_ifs
        · obtain ⟨seen', h⟩ := ih first (deferred ++ [c]) seen
          exact ⟨seen', by rw [h, List.append_assoc, List.singleton_append]⟩
        · obtain ⟨seen', h⟩ := ih (first ++ [c]) deferred (seen ++ [c.diversityKey])
          exact ⟨seen', by rw [h, List.append_assoc, List.singleton_append]⟩
  have hparts : ∀ order : List SearchCandidate × List SearchCandidate × List ContractId,
      (∃ seen', order = ([] ++ List.firstsFrom SearchCandidate.diversityKey [] l,
        [] ++ List.repeatsFrom SearchCandidate.diversityKey [] l, seen')) →
      order.1 ++ order.2.1 = List.firstsFrom SearchCandidate.diversityKey [] l ++
        List.repeatsFrom SearchCandidate.diversityKey [] l := by
    rintro _ ⟨seen', rfl⟩
    rfl
  exact hparts _ (hfold _ (fun _ _ _ _ => rfl) l [] [] [])

/-- Retained candidates in the order of their ranks are considered in the order of the policy. -/
theorem diverseOrder_pairwise {l : List SearchCandidate} (hsorted : l.Pairwise (Outranks policy))
    (hretained : ∀ c, c ∈ l ↔ Retained policy batch targetTier c)
    (hfinite : ∀ c ∈ l, (priority policy c).isFinite = true) :
    (diverseOrder l).Pairwise (Precedes policy batch targetTier) := by
  have hleads : ∀ c ∈ List.firstsFrom SearchCandidate.diversityKey [] l,
      Leads policy batch targetTier c := fun c hc c' hc' hkey hne =>
    List.before_of_mem_firstsFrom hsorted hc ((hretained c').mpr hc') hkey hne
  have hrepeats : ∀ c ∈ List.repeatsFrom SearchCandidate.diversityKey [] l,
      ¬Leads policy batch targetTier c := by
    intro c hc hlead
    rcases List.exists_of_mem_repeatsFrom hsorted hc with hseen | ⟨c', hc', hkey, houtranks⟩
    · cases hseen
    · have hmem := List.repeatsFrom_sublist.subset hc
      have hmem' := List.firstsFrom_sublist.subset hc'
      have hne : c' ≠ c := by
        rintro rfl
        exact houtranks.asymm (hfinite c' hmem) (hfinite c' hmem) houtranks
      exact houtranks.asymm (hfinite c' hmem') (hfinite c hmem)
        (hlead c' ((hretained c').mp hmem') hkey hne)
  rw [diverseOrder_eq, List.pairwise_append]
  refine ⟨?_, ?_, fun c hc c' hc' => .inl ⟨hleads c hc, hrepeats c' hc'⟩⟩
  · refine (hsorted.sublist List.firstsFrom_sublist).imp_of_mem fun hc hc' h => .inr ⟨?_, h⟩
    exact iff_of_true (hleads _ hc) (hleads _ hc')
  · refine (hsorted.sublist List.repeatsFrom_sublist).imp_of_mem fun hc hc' h => .inr ⟨?_, h⟩
    exact iff_of_false (hrepeats _ hc) (hrepeats _ hc')

/-! ## Deduplication -/

/-- Of the ranked candidates that pass the gates, the first ones of their fingerprints are retained. -/
theorem mem_firsts_iff {ranking : List SearchCandidate} (hsorted : ranking.Pairwise (Outranks policy))
    (hranking : ∀ c, c ∈ ranking ↔ c ∈ batch.candidates ∧ PassesGates policy c targetTier)
    (hfinite : ∀ c ∈ ranking, (priority policy c).isFinite = true) (c : SearchCandidate) :
    c ∈ List.firstsFrom SearchCandidate.stateFingerprint [] ranking ↔
      Retained policy batch targetTier c := by
  constructor
  · intro hc
    obtain ⟨hmem, hgates⟩ := (hranking c).mp (List.firstsFrom_sublist.subset hc)
    refine ⟨hmem, hgates, fun c' hc' hgates' hfingerprint hne => ?_⟩
    exact List.before_of_mem_firstsFrom hsorted hc ((hranking c').mpr ⟨hc', hgates'⟩) hfingerprint hne
  · intro hc
    have hmem := (hranking c).mpr ⟨hc.mem, hc.gates⟩
    refine (List.mem_firstsFrom_or_repeatsFrom hmem).resolve_right fun hrepeat => ?_
    rcases List.exists_of_mem_repeatsFrom hsorted hrepeat with hseen | ⟨c', hc', hfingerprint, houtranks⟩
    · cases hseen
    · have hmem' := List.firstsFrom_sublist.subset hc'
      have hne : c' ≠ c := by
        rintro rfl
        exact houtranks.asymm (hfinite c' hmem) (hfinite c' hmem) houtranks
      obtain ⟨hbatch, hgates⟩ := (hranking c').mp hmem'
      exact houtranks.asymm (hfinite c' hmem') (hfinite c hmem)
        (hc.first c' hbatch hgates hfingerprint hne)

/-- Why a candidate is not retained, when another one with its fingerprint is. -/
def duplicateReason (winner c : SearchCandidate) : ReasonCode :=
  if costTuple winner ≤ costTuple c then .dominatedByCheaperWorld else .duplicateState

/-- What became of a candidate that is not retained. -/
structure Duplicate (policy : BeamSearchPolicy) (retained : Dict Sha256Digest SearchCandidate)
    (duplicates : Decisions) (c : SearchCandidate) (winner : SearchCandidate) : Prop where
  won : retained.get? c.stateFingerprint = some winner
  fingerprint : winner.stateFingerprint = c.stateFingerprint
  decided : ∃ target decision,
    pruned policy c target [duplicateReason winner c] (some winner.candidateId) = .ok decision ∧
    duplicates.get? c.candidateId = some decision

omit [Sha256] in
/-- Deduplication retains the first candidates of their fingerprints. The others are pruned in favour of
the retained ones. -/
theorem foldlM_deduplicateStep {ranking : List SearchCandidate}
    {retained retained' : Dict Sha256Digest SearchCandidate} {duplicates duplicates' : Decisions}
    (h : ranking.foldlM (deduplicateStep policy) (retained, duplicates) = .ok (retained', duplicates'))
    (hnodup : (ranking.map SearchCandidate.candidateId).Nodup)
    (hown : ∀ fingerprint winner, retained.get? fingerprint = some winner →
      winner.stateFingerprint = fingerprint) :
    retained'.values = retained.values ++
        List.firstsFrom SearchCandidate.stateFingerprint retained.keys ranking ∧
      (∀ fingerprint winner, retained.get? fingerprint = some winner →
        retained'.get? fingerprint = some winner) ∧
      (∀ id, id ∉ ranking.map SearchCandidate.candidateId → duplicates'.get? id = duplicates.get? id) ∧
      ∀ c ∈ ranking, c ∈ List.firstsFrom SearchCandidate.stateFingerprint retained.keys ranking ∨
        ∃ winner, Duplicate policy retained' duplicates' c winner := by
  induction ranking generalizing retained duplicates with
  | nil =>
      cases h
      refine ⟨(List.append_nil _).symm, fun _ _ h => h, fun _ _ => rfl, List.forall_mem_nil _⟩
  | cons c ranking ih =>
      rw [List.foldlM_cons] at h
      obtain ⟨⟨retained₁, duplicates₁⟩, hstep, h⟩ := Imp.except_bind_eq_ok.mp h
      rw [List.map_cons, List.nodup_cons] at hnodup
      rw [deduplicateStep] at hstep
      simp only at hstep
      split at hstep
      · next hnew =>
          cases hstep
          obtain ⟨hvalues, hkept, hframe, hdecided⟩ := ih h hnodup.2 fun fingerprint winner hget => by
            rw [Dict.get?_insert] at hget
            split_ifs at hget with heq
            · cases hget
              exact heq.symm
            · exact hown fingerprint winner hget
          have hkey := Dict.not_mem_keys.mpr hnew
          rw [List.firstsFrom, if_neg hkey]
          have hentries := Dict.entries_insert_of_get?_none hnew c
          have hkeys : (retained.insert c.stateFingerprint c).keys =
              retained.keys ++ [c.stateFingerprint] := by
            rw [Dict.keys, hentries, List.map_append]
            rfl
          rw [hkeys] at hvalues hdecided
          refine ⟨?_, fun fingerprint winner hget => hkept fingerprint winner ?_, fun id hid => ?_, ?_⟩
          · rw [hvalues, Dict.values, hentries, List.map_append, List.append_assoc]
            rfl
          · rw [Dict.get?_insert_of_ne _ _ _]
            · exact hget
            · rintro rfl
              rw [hnew] at hget
              cases hget
          · exact hframe id fun hmem => hid (List.mem_cons_of_mem _ hmem)
          · refine List.forall_mem_cons.mpr ⟨.inl List.mem_cons_self, fun c' hc' => ?_⟩
            exact (hdecided c' hc').imp_left (List.mem_cons_of_mem _)
      · next winner hwon =>
          obtain ⟨target, -, hstep⟩ := Imp.except_bind_eq_ok.mp hstep
          obtain ⟨decision, hdecision, hstep⟩ := Imp.except_bind_eq_ok.mp hstep
          cases hstep
          obtain ⟨hvalues, hkept, hframe, hdecided⟩ := ih h hnodup.2 hown
          rw [List.firstsFrom, if_pos (Dict.mem_keys.mpr ⟨winner, hwon⟩)]
          refine ⟨hvalues, hkept, fun id hid => ?_, List.forall_mem_cons.mpr ⟨.inr ⟨winner, ?_⟩, hdecided⟩⟩
          · rw [List.map_cons, List.mem_cons, not_or] at hid
            rw [hframe id hid.2, Dict.get?_insert_of_ne _ hid.1]
          · refine ⟨hkept _ _ hwon, hown _ _ hwon, target, decision, hdecision, ?_⟩
            rw [hframe _ hnodup.1, Dict.get?_insert_self]

end StateWeaver.Search
