import StateWeaver.StateChainBench.Promoting

/-!
# Executing a level

The promoted expansions of a level are executed in their order until the budget refuses one. What was
refused when the level was planned is refused again here, so an exhaustion is always for the last ledger.
-/

namespace StateWeaver.StateChainBench

open Contracts

/-! ## Looking up expansions -/

/-- An expansion is found under its identifier, or another one with this identifier. -/
theorem exists_get?_byId {expansions : List Expansion} {e : Expansion} (h : e ∈ expansions) :
    ∃ found ∈ expansions, found.candidate.candidateId = e.candidate.candidateId ∧
      (expansions.foldl (fun d item => d.insert item.candidate.candidateId item) Dict.empty).get?
        e.candidate.candidateId = some found := by
  rw [Dict.get?_foldl_insert fun item : Expansion => item.candidate.candidateId, Dict.get?_empty, Option.or_none]
  cases hfind : expansions.reverse.find? fun item => item.candidate.candidateId = e.candidate.candidateId with
  | none =>
      have hnone := List.find?_eq_none.mp hfind e (List.mem_reverse.mpr h)
      exact absurd (decide_eq_true rfl) hnone
  | some found =>
      exact ⟨found, List.mem_reverse.mp (List.mem_of_find?_eq_some hfind),
        by simpa only [decide_eq_true_eq] using List.find?_some hfind, rfl⟩

/-! ## The loop over the promoted candidates -/

theorem not_within_execution {budget : BudgetLimits} {u : BudgetUsage}
    (h : ¬Within budget (u + planCost)) (action : PublicAction) (inWorld : Bool) :
    ¬Within budget (u + executionCost action inWorld) := by
  refine fun hwithin => h ⟨le_trans ?_ hwithin.actionCost, le_trans ?_ hwithin.worldCost,
    le_trans ?_ hwithin.latencyUnits⟩
  · exact Nat.add_le_add_left (Nat.zero_le _) _
  · exact Nat.add_le_add_left (Nat.zero_le _) _
  · refine Nat.add_le_add_left (le_trans action.costInRange.1 ?_) _
    cases inWorld with
    | false => exact le_refl _
    | true => exact Nat.le_add_right _ 2

variable [Sha256] {system : StateWeaverTieredSystem} {challenge : PublicChallenge} {budget : BudgetLimits}
  {old : List Entry} {depth : Nat} {expansions : List Expansion}

/-- What is known while a level is executed, after some of its promoted expansions. -/
structure Executing (system : StateWeaverTieredSystem) (challenge : PublicChallenge) (budget : BudgetLimits)
    (old : List Entry) (depth : Nat) (expansions done : List Expansion) (p : Progress) (entries : List Entry) :
    Prop where
  books : Books challenge budget p.ledger entries
  orderly : Orderly challenge (!system.ablation.has .worldTiers) entries
  extended : ∃ more, entries = old ++ more
  planned : ∀ e ∈ expansions, e.planEntry ∈ entries
  /-- An operation that is not of the levels before, or for planning, is for an executed expansion. -/
  fresh : ∀ entry ∈ entries, entry.operation.kind = .plan ∨ entry.operation.chain.length ≤ depth ∨
    entry.operation.chain ∈ done.map fun e => e.path.actionTokens
  shallow : ∀ entry ∈ entries, entry.operation.chain.length ≤ depth + 1
  frontier : ∀ path ∈ p.frontier, Walked challenge entries path ∧ path.actionTokens.length = depth + 1
  keys : (p.frontier.map fun path => (Operation.execute path.actionTokens).key challenge).Sublist
    (entries.map fun entry => entry.operation.key challenge)

/-- What the loop over the promoted candidates does. -/
structure Executes (system : StateWeaverTieredSystem) (challenge : PublicChallenge) (budget : BudgetLimits)
    (old : List Entry) (depth : Nat) (expansions : List Expansion) (p p' : Progress) : Prop where
  executing : ∃ done entries, Executing system challenge budget old depth expansions done p' entries
  observed : ∃ new, p'.frontier = p.frontier ++ new ∧ p'.observedPaths = p.observedPaths ++ new
  searchLedger : p'.searchLedger = p.searchLedger
  searchFingerprints : p'.searchFingerprints = p.searchFingerprints
  refused : ∀ x, p'.exhaustion = some x →
    Refused challenge budget p'.ledger (!system.ablation.has .worldTiers) x

/-- Executing an expansion. -/
theorem Executing.execute {done : List Expansion} {p : Progress} {entries : List Entry}
    (h : Executing system challenge budget old depth expansions done p entries)
    (hexpanded : ∀ e ∈ expansions, Expanded system challenge old depth e) {chosen found : Expansion}
    (hchosen : chosen ∈ expansions) (hfound : found ∈ expansions)
    (hid : found.candidate.candidateId = chosen.candidate.candidateId) {ledger : BudgetLedger} {seen : List Sha256Digest}
    (hbooks : Books challenge budget ledger (entries ++ executionEntries (.execute chosen.path.actionTokens)
      (.world chosen.path.actionTokens) found.action (!system.ablation.has .worldTiers))) :
    Executing system challenge budget old depth expansions (done ++ [chosen])
      { p with
        ledger
        frontier := p.frontier ++ [found.path]
        observedPaths := p.observedPaths ++ [found.path]
        seen }
      (entries ++ executionEntries (.execute chosen.path.actionTokens) (.world chosen.path.actionTokens)
        found.action (!system.ablation.has .worldTiers)) := by
  obtain ⟨more, hmore⟩ := h.extended
  have hexpansion := hexpanded found hfound
  have hnew : ∀ entry ∈ executionEntries (.execute chosen.path.actionTokens) (.world chosen.path.actionTokens)
      found.action (!system.ablation.has .worldTiers), entry.operation.chain = chosen.path.actionTokens := by
    intro entry hentry
    rcases List.mem_cons.mp hentry with rfl | hentry
    · rfl
    · split_ifs at hentry
      · rw [List.mem_singleton.mp hentry]
        rfl
      · cases hentry
  refine ⟨hbooks, h.orderly.execution rfl rfl ⟨_, h.planned found hfound, rfl, rfl⟩ hexpansion.action,
    ⟨more ++ _, by rw [hmore, List.append_assoc]⟩, fun e he => List.mem_append_left _ (h.planned e he),
    fun entry hentry => ?_, fun entry hentry => ?_, fun path hpath => ?_, ?_⟩
  · rw [List.map_append, List.mem_append]
    rcases List.mem_append.mp hentry with hentry | hentry
    · rcases h.fresh entry hentry with hplan | hlength | hmem
      · exact .inl hplan
      · exact .inr (.inl hlength)
      · exact .inr (.inr (.inl hmem))
    · exact .inr (.inr (.inr (List.mem_singleton.mpr (hnew entry hentry))))
  · rcases List.mem_append.mp hentry with hentry | hentry
    · exact h.shallow entry hentry
    · rw [hnew entry hentry, (hexpanded chosen hchosen).length]
  · rcases List.mem_append.mp hpath with hpath | hpath
    · obtain ⟨hwalked, hlength⟩ := h.frontier path hpath
      exact ⟨hwalked.append _, hlength⟩
    · obtain rfl := List.mem_singleton.mp hpath
      refine ⟨⟨hexpansion.played, fun token htoken => ?_⟩, hexpansion.length⟩
      obtain ⟨parent, hwalked, -, htokens⟩ := hexpansion.parent
      rw [htokens, List.mem_append, List.mem_singleton] at htoken
      rcases htoken with htoken | rfl
      · rw [hmore, List.append_assoc]
        exact (hwalked.executed token htoken).append _
      · exact ⟨⟨.execute chosen.path.actionTokens, found.action⟩, List.mem_append_right _ List.mem_cons_self, rfl, rfl⟩
  · rw [List.map_append, List.map_append, List.map_singleton]
    refine h.keys.append ?_
    have hkey : (Operation.execute found.path.actionTokens).key challenge =
        (Operation.execute chosen.path.actionTokens).key challenge := by
      rw [Operation.key, Operation.key, Operation.parts, Operation.parts, ← hexpansion.candidateId, hid,
        (hexpanded chosen hchosen).candidateId]
      rfl
    rw [hkey, executionEntries, List.map_cons]
    exact List.Sublist.cons_cons _ (List.nil_sublist _)

/-- The loop over the promoted candidates. -/
theorem ends_executePromoted (hexpanded : ∀ e ∈ expansions, Expanded system challenge old depth e)
    {chosen done : List Expansion} (hchosen : chosen ⊆ expansions)
    (hnodup : ((done ++ chosen).map fun e => e.path.actionTokens).Nodup) {p : Progress} {entries : List Entry}
    (h : Executing system challenge budget old depth expansions done p entries)
    (hsaturated : ∀ x, p.exhaustion = some x →
      Refused challenge budget p.ledger (!system.ablation.has .worldTiers) x ∧
      ¬Within budget (p.ledger.usage + planCost)) :
    Imp.Ends (Executes system challenge budget old depth expansions p) (IsCollision challenge budget)
      (executePromoted system challenge
        (expansions.foldl (fun d item => d.insert item.candidate.candidateId item) Dict.empty)
        (chosen.map fun e => e.candidate.candidateId) p) := by
  induction chosen generalizing done p entries with
  | nil =>
      exact Imp.ends_ok ⟨⟨done, entries, h⟩, ⟨[], (List.append_nil _).symm, (List.append_nil _).symm⟩, rfl, rfl,
        fun x hx => (hsaturated x hx).1⟩
  | cons e chosen ih =>
      obtain ⟨he, hrest⟩ := List.cons_subset.mp hchosen
      obtain ⟨found, hfound, hid, hget⟩ := exists_get?_byId he
      have hnew : ∀ op : Operation, op.chain = e.path.actionTokens → op.kind ≠ .plan →
          op ∉ entries.map Entry.operation := by
        intro op hchain hkind hmem
        obtain ⟨entry, hentry, rfl⟩ := List.mem_map.mp hmem
        rcases h.fresh entry hentry with hplan | hlength | hdone
        · exact hkind hplan
        · rw [hchain, (hexpanded e he).length] at hlength
          exact Nat.not_succ_le_self _ hlength
        · rw [List.map_append, List.nodup_append] at hnodup
          exact hnodup.2.2 _ hdone _ List.mem_cons_self hchain
      have hcharge := ends_chargeExecution h.books (.execute e.path.actionTokens) (.world e.path.actionTokens)
        rfl rfl rfl nofun found.action (!system.ablation.has .worldTiers) (hnew _ rfl nofun) (hnew _ rfl nofun)
      rw [Operation.parts, ← (hexpanded e he).candidateId] at hcharge
      rw [List.map_cons]
      unfold executePromoted
      simp only [hget]
      refine hcharge.bind fun charged hcharged => ?_
      cases charged with
      | error x =>
          obtain ⟨hattempt, hexceeded⟩ := hcharged.raises x rfl
          refine Imp.ends_ok ⟨⟨done, entries, ?_⟩, ⟨[], (List.append_nil _).symm, (List.append_nil _).symm⟩, rfl,
            rfl, fun x' hx' => ?_⟩
          · exact ⟨h.books, h.orderly, h.extended, h.planned, h.fresh, h.shallow, h.frontier, h.keys⟩
          · obtain rfl := Option.some.inj hx'
            exact ⟨⟨found.action, (hexpanded found hfound).action, .inr hattempt⟩, hexceeded⟩
      | ok ledger =>
          obtain ⟨hbooks, husage⟩ := hcharged.returns ledger rfl
          have hwithin : Within budget ledger.usage := hbooks.limits ▸ ledger.within
          have hnone : p.exhaustion = none := by
            cases hx : p.exhaustion with
            | none => rfl
            | some x =>
                exact absurd (husage ▸ hwithin) (not_within_execution (hsaturated x hx).2 _ _)
          refine (ih hrest ?_ (h.execute hexpanded he hfound hid hbooks) ?_).mono (fun p' hp' => ?_) fun _ he => he
          · rwa [List.append_assoc, List.singleton_append]
          · rw [hnone]
            exact nofun
          · obtain ⟨new, hfrontier, hobserved⟩ := hp'.observed
            refine ⟨hp'.executing, ⟨found.path :: new, ?_, ?_⟩, hp'.searchLedger, hp'.searchFingerprints,
              hp'.refused⟩
            · rw [hfrontier, List.append_assoc, List.singleton_append]
            · rw [hobserved, List.append_assoc, List.singleton_append]

end StateWeaver.StateChainBench
