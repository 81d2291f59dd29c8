import StateWeaver.StateChainBench.Agreement
import StateWeaver.StateChainBench.Scores

/-!
# Planning a level

A level of the tiered solver plans the actions that are applicable at the end of each path of its frontier.
The paths of a frontier are different, so no chain is planned twice.
-/

namespace StateWeaver.StateChainBench

open Contracts

/-! ## Orderly entries -/

/-- Entries of an honest run: they are for actions of the catalog, and an action is planned before it is
executed. -/
inductive Orderly (challenge : PublicChallenge) (inWorld : Bool) : List Entry → Prop
  | nil : Orderly challenge inWorld []
  | plan {entries : List Entry} {op : Operation} {action : PublicAction} (h : Orderly challenge inWorld entries)
      (hkind : op.kind = .plan) (haction : action ∈ challenge.actions) :
      Orderly challenge inWorld (entries ++ [⟨op, action⟩])
  | execution {entries : List Entry} {execute world : Operation} {action : PublicAction}
      (h : Orderly challenge inWorld entries) (hexecute : execute.kind = .action) (hworld : world.kind = .world)
      (hplanned : ∃ entry ∈ entries, entry.operation.kind = .plan ∧ entry.action = action)
      (haction : action ∈ challenge.actions) :
      Orderly challenge inWorld (entries ++ executionEntries execute world action inWorld)

variable [Sha256]

/-- An attempt that a ledger refuses. -/
structure Refused (challenge : PublicChallenge) (budget : BudgetLimits) (ledger : BudgetLedger) (inWorld : Bool)
    (x : BudgetExhaustion) : Prop where
  attempt : ∃ action ∈ challenge.actions, x = .ofPlan ledger.usage action ∨ x = .ofAction ledger.usage action ∨
    inWorld = true ∧ x = .ofActionWorld ledger.usage action
  exceeded : ¬Within budget (ledger.usage + x.delta)

/-! ## Expansions -/

/-- The entry for planning an expansion. -/
def Expansion.planEntry (e : Expansion) : Entry := ⟨.plan e.path.actionTokens, e.action⟩

/-- The chain that an operation of the tiered solver is for. -/
def Operation.chain : Operation → List ActionToken
  | .plan chain | .execute chain | .world chain => chain
  | .linearPlan _ _ | .linearExecute _ | .linearWorld _ => []

/-- A path along which a chain of the catalog is played. -/
structure Played (challenge : PublicChallenge) (path : Path) : Prop where
  chain : IsChain challenge path.actionTokens
  state : ∃ state, play challenge path.actionTokens challenge.initialMapping = some state ∧
    SameState path.state state

/-- A path whose actions are executed. -/
structure Walked (challenge : PublicChallenge) (entries : List Entry) (path : Path) : Prop
    extends Played challenge path where
  executed : ∀ token ∈ path.actionTokens, IsExecuted entries token

omit [Sha256] in
theorem Walked.append {challenge : PublicChallenge} {entries : List Entry} {path : Path}
    (h : Walked challenge entries path) (new : List Entry) : Walked challenge (entries ++ new) path :=
  ⟨h.toPlayed, fun token htoken => (h.executed token htoken).append new⟩

/-- The expansion of a path by an applicable action. -/
structure Expanded (system : StateWeaverTieredSystem) (challenge : PublicChallenge) (entries : List Entry)
    (depth : Nat) (e : Expansion) : Prop where
  action : e.action ∈ challenge.actions
  played : Played challenge e.path
  parent : ∃ path, Walked challenge entries path ∧ path.actionTokens.length = depth ∧
    e.path.actionTokens = path.actionTokens ++ [e.action.token]
  candidateId : e.candidate.candidateId = StateChainBench.candidateId challenge e.path.actionTokens
  tier : e.candidate.tier = .ghost
  cost : e.candidate.promotionCost = { targetRequests := e.action.actionCost, cpuSeconds := 1 }
  admissible : Search.Admissible (searchPolicy system) .replay e.candidate

variable {system : StateWeaverTieredSystem} {challenge : PublicChallenge} {budget : BudgetLimits}
  {old : List Entry} {depth : Nat}

theorem Expanded.length {e : Expansion} (h : Expanded system challenge old depth e) :
    e.path.actionTokens.length = depth + 1 := by
  obtain ⟨path, -, hlength, htokens⟩ := h.parent
  rw [htokens, List.length_append, hlength, List.length_singleton]

omit [Sha256] in
/-- A path is played one action further. -/
theorem Played.concat {path : Path} (h : Played challenge path) {action : PublicAction}
    (haction : action ∈ challenge.actions) (hnew : action.token ∉ path.actionTokens)
    (happlicable : actionIsApplicable action path.state = true) :
    Played challenge ⟨sortedItems (applyEffects action path.state), path.actionTokens ++ [action.token]⟩ := by
  obtain ⟨state, hplay, hsame⟩ := h.state
  refine ⟨⟨?_, fun token htoken => ?_⟩, applyEffects action state, ?_, fun key => ?_⟩
  · exact h.chain.nodup.append (List.nodup_singleton _) (List.disjoint_singleton.mpr hnew)
  · rcases List.mem_append.mp htoken with htoken | htoken
    · exact h.chain.known token htoken
    · rw [List.mem_singleton.mp htoken]
      exact List.mem_map_of_mem haction
  · exact play_concat hplay haction (hsame.isApplicable action ▸ happlicable)
  · rw [sameState_sortedItems _ key, hsame.applyEffects action key]

/-! ## The loop over the catalog -/

/-- What planning has done on a level. -/
structure Plans (system : StateWeaverTieredSystem) (challenge : PublicChallenge) (budget : BudgetLimits)
    (old : List Entry) (depth : Nat) (ledger : BudgetLedger) (done : List Expansion) : Prop where
  books : Books challenge budget ledger (old ++ done.map Expansion.planEntry)
  expanded : ∀ e ∈ done, Expanded system challenge old depth e

theorem Plans.nodup {ledger : BudgetLedger} {done : List Expansion}
    (h : Plans system challenge budget old depth ledger done) :
    (done.map fun e => e.path.actionTokens).Nodup := by
  have hnodup := h.books.nodup
  rw [List.map_append, List.map_map] at hnodup
  refine List.Nodup.of_map Operation.plan ?_
  rw [List.map_map]
  exact (List.nodup_append.mp hnodup).2.1

/-- How planning ends, when the expansions of some paths were planned. -/
structure Expands (system : StateWeaverTieredSystem) (challenge : PublicChallenge) (budget : BudgetLimits)
    (old : List Entry) (depth : Nat) (paths : List Path) (done : List Expansion)
    (result : BudgetLedger × List Expansion × Option BudgetExhaustion) : Prop where
  plans : Plans system challenge budget old depth result.1 result.2.1
  new : ∀ e ∈ result.2.1, e ∈ done ∨ ∃ path ∈ paths, e.path.actionTokens.dropLast = path.actionTokens
  refused : ∀ x, result.2.2 = some x → ∃ action ∈ challenge.actions, x = .ofPlan result.1.usage action ∧
    ¬Within budget (result.1.usage + planCost)

/-- Planning ends. -/
theorem Plans.ends {ledger : BudgetLedger} {done : List Expansion}
    (h : Plans system challenge budget old depth ledger done) (paths : List Path) :
    Expands system challenge budget old depth paths done (ledger, done, none) :=
  ⟨h, fun _ he => .inl he, nofun⟩

omit [Sha256] in
/-- A chain that is longer than those before, and is not planned on this level, is new. -/
theorem fresh_plan {done : List Expansion} (hshallow : ∀ entry ∈ old, entry.operation.chain.length ≤ depth)
    {chain : List ActionToken} (hlength : chain.length = depth + 1)
    (hnew : chain ∉ done.map fun e => e.path.actionTokens) :
    Operation.plan chain ∉ (old ++ done.map Expansion.planEntry).map Entry.operation := by
  intro hmem
  obtain ⟨entry, hentry, hop⟩ := List.mem_map.mp hmem
  rcases List.mem_append.mp hentry with hentry | hentry
  · have hle := hshallow entry hentry
    rw [hop] at hle
    change chain.length ≤ depth at hle
    exact absurd hle (by rw [hlength]; exact Nat.not_succ_le_self depth)
  · obtain ⟨e, he, rfl⟩ := List.mem_map.mp hentry
    exact hnew (List.mem_map.mpr ⟨e, he, Operation.plan.inj hop⟩)

/-- The loop over the actions of the catalog plans the expansions of a path. -/
theorem ends_expandActions (seen : List Sha256Digest) {path : Path} (hwalked : Walked challenge old path)
    (hdepth : path.actionTokens.length = depth)
    (hshallow : ∀ entry ∈ old, entry.operation.chain.length ≤ depth) {rest : List PublicAction}
    (hcatalog : rest ⊆ challenge.actions) (hnodup : (rest.map PublicAction.token).Nodup)
    {ledger : BudgetLedger} {done : List Expansion}
    (h : Plans system challenge budget old depth ledger done)
    (hnew : ∀ action ∈ rest, path.actionTokens ++ [action.token] ∉ done.map fun e => e.path.actionTokens) :
    Imp.Ends (Expands system challenge budget old depth [path] done) (IsCollision challenge budget)
      (expandActions system challenge seen path rest ledger done) := by
  induction rest generalizing ledger done with
  | nil => exact Imp.ends_ok (h.ends _)
  | cons action rest ih =>
      have haction : action ∈ challenge.actions := hcatalog List.mem_cons_self
      have hcatalog' : rest ⊆ challenge.actions := fun a ha => hcatalog (List.mem_cons_of_mem _ ha)
      rw [List.map_cons, List.nodup_cons] at hnodup
      have hskip := ih hcatalog' hnodup.2 h fun a ha => hnew a (List.mem_cons_of_mem _ ha)
      unfold expandActions
      by_cases hblocked : action.token ∈ path.actionTokens ∨ actionIsApplicable action path.state = false
      · rw [if_pos hblocked]
        exact hskip
      rw [if_neg hblocked]
      rw [not_or, Bool.not_eq_false] at hblocked
      by_cases hseen : system.ablation.has .stateFingerprintDedup = false ∧
          stateFingerprint (applyEffects action path.state) ∈ seen
      · simp only [hseen, and_self, if_true]
        exact hskip
      simp only [hseen, if_false]
      have hplayed := hwalked.toPlayed.concat haction hblocked.1 hblocked.2
      have hlength : (path.actionTokens ++ [action.token]).length = depth + 1 := by
        rw [List.length_append, hdepth, List.length_singleton]
      have hplan := ends_chargePlan h.books (.plan (path.actionTokens ++ [action.token])) rfl action
        (fresh_plan hshallow hlength (hnew action List.mem_cons_self))
      refine hplan.bind fun planned hplanned => ?_
      cases planned with
      | error x =>
          obtain ⟨rfl, hexceeded⟩ := hplanned.raises x rfl
          refine Imp.ends_ok ⟨h, fun _ he => .inl he, fun x hx => ?_⟩
          exact ⟨action, haction, (Option.some.inj hx).symm, hexceeded⟩
      | ok ledger' =>
          obtain ⟨hbooks, -⟩ := hplanned.returns ledger' rfl
          let following : Path :=
            ⟨sortedItems (applyEffects action path.state), path.actionTokens ++ [action.token]⟩
          have hquality : IsQuality (if system.ablation.has .semanticTwin then 0.5 else
              quality challenge (minimumRemainingSteps challenge (applyEffects action path.state)
                (path.actionTokens ++ [action.token]).toFinset)) := by
            split_ifs
            · exact isQuality_half
            · exact isQuality_quality challenge (minimumRemainingSteps_le challenge _ _)
          obtain ⟨c, hc, hid, htier, hcost, hadmissible⟩ := exists_searchCandidate system challenge following
            action hquality (system.ablation.has .stateFingerprintDedup)
          refine Imp.ends_bind_of_ok hc ?_
          have hplans : ∀ q, Plans system challenge budget old depth ledger'
              (done ++ [⟨c, following, action, q⟩]) := by
            refine fun q => ⟨?_, fun e he => ?_⟩
            · rw [List.map_append, ← List.append_assoc]
              exact hbooks
            · rcases List.mem_append.mp he with he | he
              · exact h.expanded e he
              · obtain rfl := List.mem_singleton.mp he
                exact ⟨haction, hplayed, ⟨path, hwalked, hdepth, rfl⟩, hid, htier, hcost, hadmissible⟩
          refine (ih hcatalog' hnodup.2 (hplans _) fun a ha hmem => ?_).mono (fun result hresult => ?_) fun _ he => he
          · rw [List.map_append, List.mem_append, List.map_singleton, List.mem_singleton] at hmem
            rcases hmem with hmem | hmem
            · exact hnew a (List.mem_cons_of_mem _ ha) hmem
            · have htoken := List.singleton_inj.mp (List.append_cancel_left hmem)
              exact hnodup.1 (htoken ▸ List.mem_map_of_mem ha)
          · refine ⟨hresult.plans, fun e he => ?_, hresult.refused⟩
            rcases hresult.new e he with he | he
            · rcases List.mem_append.mp he with he | he
              · exact .inl he
              · obtain rfl := List.mem_singleton.mp he
                exact .inr ⟨path, List.mem_singleton.mpr rfl, List.dropLast_concat⟩
            · exact .inr he

/-- The loop over the frontier plans the expansions of its paths. -/
theorem ends_expandPaths (seen : List Sha256Digest)
    (hshallow : ∀ entry ∈ old, entry.operation.chain.length ≤ depth) {paths : List Path}
    (hpaths : ∀ path ∈ paths, Walked challenge old path ∧ path.actionTokens.length = depth)
    (hdistinct : (paths.map Path.actionTokens).Nodup) {ledger : BudgetLedger} {done : List Expansion}
    (h : Plans system challenge budget old depth ledger done)
    (hnew : ∀ path ∈ paths, ∀ token, path.actionTokens ++ [token] ∉ done.map fun e => e.path.actionTokens) :
    Imp.Ends (Expands system challenge budget old depth paths done) (IsCollision challenge budget)
      (expandPaths system challenge seen paths ledger done) := by
  induction paths generalizing ledger done with
  | nil => exact Imp.ends_ok (h.ends _)
  | cons path rest ih =>
      rw [List.map_cons, List.nodup_cons] at hdistinct
      obtain ⟨hwalked, hdepth⟩ := hpaths path List.mem_cons_self
      have hactions := ends_expandActions seen hwalked hdepth hshallow (List.Subset.refl _)
        challenge.tokensUnique h fun action _ => hnew path List.mem_cons_self action.token
      unfold expandPaths
      refine hactions.bind fun result hresult => ?_
      obtain ⟨ledger', done', x⟩ := result
      cases x with
      | some x =>
          refine Imp.ends_ok ⟨hresult.plans, fun e he => ?_, hresult.refused⟩
          rcases hresult.new e he with he | ⟨_, hmem, heq⟩
          · exact .inl he
          · exact .inr ⟨path, List.mem_cons_self, List.mem_singleton.mp hmem ▸ heq⟩
      | none =>
          refine (ih (fun p hp => hpaths p (List.mem_cons_of_mem _ hp)) hdistinct.2 hresult.plans
            fun p hp token hmem => ?_).mono (fun result' hresult' => ?_) fun _ he => he
          · obtain ⟨e, he, heq⟩ := List.mem_map.mp hmem
            rcases hresult.new e he with he | ⟨_, hsame, hparent⟩
            · exact hnew p (List.mem_cons_of_mem _ hp) token (List.mem_map.mpr ⟨e, he, heq⟩)
            · rw [heq, List.dropLast_concat, List.mem_singleton.mp hsame] at hparent
              exact hdistinct.1 (hparent ▸ List.mem_map_of_mem hp)
          · refine ⟨hresult'.plans, fun e he => ?_, hresult'.refused⟩
            rcases hresult'.new e he with he | ⟨p, hp, heq⟩
            · rcases hresult.new e he with he | ⟨_, hmem, heq⟩
              · exact .inl he
              · exact .inr ⟨path, List.mem_cons_self, List.mem_singleton.mp hmem ▸ heq⟩
            · exact .inr ⟨p, List.mem_cons_of_mem _ hp, heq⟩

end StateWeaver.StateChainBench
