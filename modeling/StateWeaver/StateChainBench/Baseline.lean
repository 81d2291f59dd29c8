import StateWeaver.StateChainBench.Agreement

/-!
# The baseline and the oracle

The baseline applies each action of the catalog that is applicable in its turn, up to the goal or to the
end of its budget. It has no bound for the length of its chain, so it agrees with the oracle exactly where
the part of the catalog that the budget pays for applies no more actions than the bound.
-/

namespace StateWeaver.StateChainBench

open Contracts

/-! ## One pass over the catalog -/

/-- The actions that a pass over a part of the catalog applies. -/
def pass (challenge : PublicChallenge) : List PublicAction → State → List ActionToken
  | [], _ => []
  | action :: rest, state =>
      if actionIsApplicable action state = false then pass challenge rest state
      else
        let following := applyEffects action state
        action.token :: if goalIsReached challenge following then [] else pass challenge rest following

/-- The tariff of the pass. -/
def passCost (challenge : PublicChallenge) : List PublicAction → State → BudgetUsage
  | [], _ => {}
  | action :: rest, state =>
      if actionIsApplicable action state = false then planCost + passCost challenge rest state
      else
        let following := applyEffects action state
        planCost + (executionCost action true +
          if goalIsReached challenge following then {} else passCost challenge rest following)

theorem exists_passCost_cons (challenge : PublicChallenge) (action : PublicAction) (rest : List PublicAction)
    (state : State) : ∃ more, passCost challenge (action :: rest) state = planCost + more := by
  rw [passCost]
  split_ifs
  · exact ⟨_, rfl⟩
  · exact ⟨_, rfl⟩

theorem exists_passCost_apply (challenge : PublicChallenge) {action : PublicAction} (rest : List PublicAction)
    {state : State} (h : actionIsApplicable action state = true) :
    ∃ more, passCost challenge (action :: rest) state = planCost + (executionCost action true + more) := by
  rw [passCost, if_neg (by rw [h]; nofun)]
  exact ⟨_, rfl⟩

/-- Each part of the catalog that the budget pays for applies no more actions than the bound. -/
def PassIsBounded (challenge : PublicChallenge) (budget : BudgetLimits) : Prop :=
  ∀ scanned, scanned <+: challenge.actions →
    Within budget (passCost challenge scanned challenge.initialMapping) →
    (pass challenge scanned challenge.initialMapping).length ≤ challenge.maxChainLength

/-! ## Runs of the pass -/

variable [Sha256] {challenge : PublicChallenge} {budget : BudgetLimits}

/-- The action that an operation of the baseline is for. -/
def Operation.linearToken : Operation → Option ActionToken
  | .linearPlan _ token | .linearExecute token | .linearWorld token => some token
  | .plan _ | .execute _ | .world _ => none

/-- What is known when a part of the catalog has been scanned. -/
structure Scanned (challenge : PublicChallenge) (budget : BudgetLimits) (scanned : List PublicAction)
    (s : LinearState) (entries : List Entry) : Prop where
  books : Books challenge budget s.ledger entries
  linear : ∀ entry ∈ entries, entry.operation.linearToken = some entry.action.token ∧ entry.action ∈ scanned
  played : play challenge s.selected challenge.initialMapping = some s.state
  executed : ∀ token ∈ s.selected, IsExecuted entries token
  sublist : s.selected.Sublist (scanned.map PublicAction.token)

theorem Scanned.mono {scanned scanned' : List PublicAction} {s : LinearState} {entries : List Entry}
    (h : Scanned challenge budget scanned s entries) (hsublist : scanned.Sublist scanned') :
    Scanned challenge budget scanned' s entries :=
  ⟨h.books, fun entry he => ⟨(h.linear entry he).1, hsublist.subset (h.linear entry he).2⟩, h.played,
    h.executed, h.sublist.trans (hsublist.map _)⟩

/-- The operations for an action that is not scanned yet are new. -/
theorem Scanned.fresh {scanned : List PublicAction} {s : LinearState} {entries : List Entry}
    (h : Scanned challenge budget scanned s entries) {action : PublicAction}
    (hnew : action.token ∉ scanned.map PublicAction.token) {op : Operation}
    (hop : op.linearToken = some action.token) : op ∉ entries.map Entry.operation := by
  intro hmem
  obtain ⟨entry, hentry, rfl⟩ := List.mem_map.mp hmem
  obtain ⟨hlinear, hscanned⟩ := h.linear entry hentry
  exact hnew (List.mem_map.mpr ⟨entry.action, hscanned, Option.some.inj (hlinear.symm.trans hop)⟩)

/-- Planning an action. -/
theorem Scanned.plan {scanned : List PublicAction} {s : LinearState} {entries : List Entry}
    (h : Scanned challenge budget scanned s entries) (action : PublicAction) {state : Sha256Digest}
    {ledger : BudgetLedger}
    (hbooks : Books challenge budget ledger (entries ++ [⟨.linearPlan state action.token, action⟩])) :
    Scanned challenge budget (scanned ++ [action]) { s with ledger }
      (entries ++ [⟨.linearPlan state action.token, action⟩]) := by
  have hmono := h.mono (List.sublist_append_left scanned [action])
  refine ⟨hbooks, fun entry he => ?_, h.played, fun token htoken => (h.executed token htoken).append _,
    hmono.sublist⟩
  rcases List.mem_append.mp he with he | he
  · exact hmono.linear entry he
  · rw [List.mem_singleton.mp he]
    exact ⟨rfl, List.mem_append_right _ List.mem_cons_self⟩

/-- Executing an action. -/
theorem Scanned.execute {scanned : List PublicAction} {s : LinearState} {entries : List Entry}
    (h : Scanned challenge budget scanned s entries) {action : PublicAction} (haction : action ∈ challenge.actions)
    (happlicable : actionIsApplicable action s.state = true)
    {new : List Entry} {ledger : BudgetLedger} {state : Sha256Digest}
    (hnew : new = [⟨.linearPlan state action.token, action⟩] ++
      executionEntries (.linearExecute action.token) (.linearWorld action.token) action true)
    (hbooks : Books challenge budget ledger (entries ++ new)) :
    Scanned challenge budget (scanned ++ [action])
      ⟨ledger, applyEffects action s.state, s.selected ++ [action.token]⟩ (entries ++ new) := by
  have hmono := h.mono (List.sublist_append_left scanned [action])
  subst hnew
  refine ⟨hbooks, fun entry he => ?_, play_concat h.played haction happlicable, fun token htoken => ?_, ?_⟩
  · rcases List.mem_append.mp he with he | he
    · exact hmono.linear entry he
    · have hmem : action ∈ scanned ++ [action] := List.mem_append_right _ List.mem_cons_self
      rw [executionEntries, if_pos rfl, List.cons_append, List.nil_append, List.mem_cons, List.mem_cons,
        List.mem_singleton] at he
      rcases he with rfl | rfl | rfl <;> exact ⟨rfl, hmem⟩
  · rcases List.mem_append.mp htoken with htoken | htoken
    · exact (h.executed token htoken).append _
    · rw [List.mem_singleton.mp htoken]
      refine ⟨⟨.linearExecute action.token, action⟩, List.mem_append_right _ ?_, rfl, rfl⟩
      exact List.mem_append_right _ List.mem_cons_self
  · rw [List.map_append, List.map_singleton]
    exact h.sublist.append (List.Sublist.refl _)

/-- How a pass ends that starts with the rest of the catalog. -/
structure Passed (challenge : PublicChallenge) (budget : BudgetLimits) (rest : List PublicAction)
    (s : LinearState) (result : LinearState × StopReason × Option BudgetExhaustion) : Prop where
  scanned : ∃ entries, Scanned challenge budget challenge.actions result.1 entries
  stop : (result.2.1 = .goalReached ↔ goalIsReached challenge result.1.state = true) ∧
    (result.2.1 = .budgetExhausted ↔ result.2.2.isSome = true)
  /-- The pass applies what some part of the rest applies, which the budget pays for. -/
  applied : ∃ part, part <+: rest ∧ Within budget (s.ledger.usage + passCost challenge part s.state) ∧
    result.1.selected = s.selected ++ pass challenge part s.state
  /-- No part of the rest that the budget pays for applies more. -/
  longest : ∀ part, part <+: rest → Within budget (s.ledger.usage + passCost challenge part s.state) →
    s.selected.length + (pass challenge part s.state).length ≤ result.1.selected.length

theorem Passed.length_le {rest : List PublicAction} {s : LinearState}
    {result : LinearState × StopReason × Option BudgetExhaustion} (h : Passed challenge budget rest s result) :
    s.selected.length ≤ result.1.selected.length := by
  obtain ⟨part, -, -, hselected⟩ := h.applied
  rw [hselected, List.length_append]
  exact Nat.le_add_right _ _

/-- A pass that ends at the next action, as the budget does not pay for it. -/
theorem passed_of_refused {rest : List PublicAction} {s s' : LinearState} {entries : List Entry}
    {x : BudgetExhaustion} (h : Scanned challenge budget challenge.actions s' entries)
    (hselected : s'.selected = s.selected) (hstate : s'.state = s.state)
    (hlimits : s.ledger.limits = budget) (hgoal : goalIsReached challenge s.state = false)
    (hrefused : ∀ action part, action :: part <+: rest →
      ¬Within budget (s.ledger.usage + passCost challenge (action :: part) s.state)) :
    Passed challenge budget rest s (s', .budgetExhausted, some x) := by
  refine ⟨⟨entries, h⟩, ⟨iff_of_false nofun ?_, iff_of_true rfl rfl⟩,
    ⟨[], List.nil_prefix, hlimits ▸ s.ledger.within, ?_⟩, fun part hpart hwithin => ?_⟩
  · rw [hstate, hgoal]
    exact Bool.false_ne_true
  · rw [pass, List.append_nil, hselected]
  · cases part with
    | nil => exact (congrArg List.length hselected).ge
    | cons action part => exact absurd hwithin (hrefused action part hpart)

/-- A pass goes on after an action that it skips. -/
theorem Passed.skip {rest : List PublicAction} {s : LinearState} {ledger : BudgetLedger} {action : PublicAction}
    {result : LinearState × StopReason × Option BudgetExhaustion}
    (h : Passed challenge budget rest { s with ledger } result)
    (happlicable : actionIsApplicable action s.state = false)
    (husage : ledger.usage = s.ledger.usage + planCost) : Passed challenge budget (action :: rest) s result := by
  have hcost : ∀ part, s.ledger.usage + passCost challenge (action :: part) s.state =
      ledger.usage + passCost challenge part s.state := by
    intro part
    rw [passCost, if_pos happlicable, husage, BudgetUsage.add_assoc]
  have hpass : ∀ part, pass challenge (action :: part) s.state = pass challenge part s.state := by
    intro part
    rw [pass, if_pos happlicable]
  obtain ⟨done, hdone, hpaid, hselected⟩ := h.applied
  refine ⟨h.scanned, h.stop, ⟨action :: done, List.prefix_cons_inj action |>.mpr hdone, ?_, ?_⟩,
    fun part hpart hwithin => ?_⟩
  · rw [hcost]
    exact hpaid
  · rw [hpass]
    exact hselected
  · cases part with
    | nil => exact h.length_le
    | cons action' part =>
        obtain ⟨rfl, hpart'⟩ := List.cons_prefix_cons.mp hpart
        rw [hcost] at hwithin
        rw [hpass]
        exact h.longest part hpart' hwithin

/-- A pass goes on after an action that it applies. -/
theorem Passed.apply {rest : List PublicAction} {s : LinearState} {ledger : BudgetLedger} {action : PublicAction}
    {result : LinearState × StopReason × Option BudgetExhaustion}
    (h : Passed challenge budget rest ⟨ledger, applyEffects action s.state, s.selected ++ [action.token]⟩ result)
    (happlicable : actionIsApplicable action s.state = true)
    (hgoal : goalIsReached challenge (applyEffects action s.state) = false)
    (husage : ledger.usage = s.ledger.usage + planCost + executionCost action true) :
    Passed challenge budget (action :: rest) s result := by
  have hcost : ∀ part, s.ledger.usage + passCost challenge (action :: part) s.state =
      ledger.usage + passCost challenge part (applyEffects action s.state) := by
    intro part
    rw [passCost, if_neg (by rw [happlicable]; nofun), husage, BudgetUsage.add_assoc, BudgetUsage.add_assoc]
    simp only [hgoal, Bool.false_eq_true, if_false]
  have hpass : ∀ part, pass challenge (action :: part) s.state =
      action.token :: pass challenge part (applyEffects action s.state) := by
    intro part
    rw [pass, if_neg (by rw [happlicable]; nofun)]
    simp only [hgoal, Bool.false_eq_true, if_false]
  obtain ⟨done, hdone, hpaid, hselected⟩ := h.applied
  refine ⟨h.scanned, h.stop, ⟨action :: done, List.prefix_cons_inj action |>.mpr hdone, ?_, ?_⟩,
    fun part hpart hwithin => ?_⟩
  · rw [hcost]
    exact hpaid
  · rw [hpass, hselected, List.append_assoc, List.singleton_append]
  · cases part with
    | nil =>
        refine le_trans ?_ h.length_le
        rw [List.length_append]
        exact Nat.le_add_right _ _
    | cons action' part =>
        obtain ⟨rfl, hpart'⟩ := List.cons_prefix_cons.mp hpart
        rw [hcost] at hwithin
        have hlength : (s.selected ++ [action'.token]).length +
            (pass challenge part (applyEffects action' s.state)).length ≤ result.1.selected.length :=
          h.longest part hpart' hwithin
        rw [List.length_append, List.length_singleton] at hlength
        rw [hpass, List.length_cons]
        omega

/-- A pass ends with an action that reaches the goal. -/
theorem passed_of_goal {rest : List PublicAction} {s : LinearState} {ledger : BudgetLedger}
    {action : PublicAction} {entries : List Entry}
    (h : Scanned challenge budget challenge.actions
      ⟨ledger, applyEffects action s.state, s.selected ++ [action.token]⟩ entries)
    (happlicable : actionIsApplicable action s.state = true)
    (hgoal : goalIsReached challenge (applyEffects action s.state) = true)
    (husage : ledger.usage = s.ledger.usage + planCost + executionCost action true) :
    Passed challenge budget (action :: rest) s
      (⟨ledger, applyEffects action s.state, s.selected ++ [action.token]⟩, .goalReached, none) := by
  have hpass : ∀ part, pass challenge (action :: part) s.state = [action.token] := by
    intro part
    rw [pass, if_neg (by rw [happlicable]; nofun)]
    simp only [hgoal, if_true]
  refine ⟨⟨entries, h⟩, ⟨iff_of_true rfl hgoal, iff_of_false nofun nofun⟩,
    ⟨[action], List.prefix_cons_inj action |>.mpr List.nil_prefix, ?_, ?_⟩, fun part hpart _ => ?_⟩
  · rw [passCost, if_neg (by rw [happlicable]; nofun)]
    simp only [hgoal, if_true]
    rw [BudgetUsage.add_zero, ← BudgetUsage.add_assoc, ← husage]
    exact h.books.limits ▸ ledger.within
  · rw [hpass]
  · rw [List.length_append]
    refine Nat.add_le_add_left ?_ _
    cases part with
    | nil => exact Nat.zero_le _
    | cons action' part =>
        obtain ⟨rfl, -⟩ := List.cons_prefix_cons.mp hpart
        rw [hpass]

/-- The loop over the rest of the catalog. -/
theorem ends_linearPass {scanned rest : List PublicAction} (hcatalog : scanned ++ rest = challenge.actions)
    {s : LinearState} {entries : List Entry} (h : Scanned challenge budget scanned s entries)
    (hgoal : goalIsReached challenge s.state = false) :
    Imp.Ends (Passed challenge budget rest s) (IsCollision challenge budget)
      (linearPass challenge rest s) := by
  induction rest generalizing scanned s entries with
  | nil =>
      rw [List.append_nil] at hcatalog
      refine Imp.ends_ok ⟨⟨entries, hcatalog ▸ h⟩, ⟨iff_of_false nofun ?_, iff_of_false nofun nofun⟩,
        ⟨[], List.nil_prefix, h.books.limits ▸ s.ledger.within, (List.append_nil _).symm⟩, fun part hpart _ => ?_⟩
      · exact (hgoal ▸ Bool.false_ne_true)
      · rw [List.prefix_nil.mp hpart]
        exact le_refl _
  | cons action rest ih =>
      have haction : action ∈ challenge.actions := hcatalog ▸ List.mem_append_right _ List.mem_cons_self
      have hcatalog' : (scanned ++ [action]) ++ rest = challenge.actions := by
        rw [List.append_assoc]
        exact hcatalog
      have hsublist : (scanned ++ [action]).Sublist challenge.actions :=
        hcatalog' ▸ List.sublist_append_left _ _
      have hnew : action.token ∉ scanned.map PublicAction.token := by
        have hnodup := challenge.tokensUnique
        rw [← hcatalog, List.map_append, List.map_cons] at hnodup
        exact fun hmem => (List.nodup_append.mp hnodup).2.2 _ hmem _ List.mem_cons_self rfl
      have hplan := ends_chargePlan h.books (.linearPlan (stateFingerprint s.state) action.token) rfl action
        (h.fresh hnew rfl)
      rw [linearPass]
      refine hplan.bind fun planned hplanned => ?_
      cases planned with
      | error x =>
          obtain ⟨rfl, hexceeded⟩ := hplanned.raises x rfl
          refine Imp.ends_ok (passed_of_refused ((h.mono (List.sublist_append_left _ _)).mono hsublist) rfl rfl
            h.books.limits hgoal fun action' part hpart hwithin => hexceeded ?_)
          obtain ⟨rfl, -⟩ := List.cons_prefix_cons.mp hpart
          obtain ⟨more, hcost⟩ := exists_passCost_cons challenge action' part s.state
          rw [hcost, ← BudgetUsage.add_assoc] at hwithin
          exact hwithin.of_add
      | ok ledger =>
          obtain ⟨hbooks, husage⟩ := hplanned.returns ledger rfl
          have hplanned := h.plan action hbooks
          by_cases happlicable : actionIsApplicable action s.state = false
          · simp only [happlicable, if_true]
            exact (ih hcatalog' hplanned hgoal).mono
              (fun result hpassed => hpassed.skip happlicable husage) fun _ he => he
          · rw [Bool.not_eq_false] at happlicable
            have hfresh : ∀ op : Operation, op.linearToken = some action.token → op.kind ≠ .plan →
                op ∉ (entries ++ [Entry.mk (.linearPlan (stateFingerprint s.state) action.token) action]).map
                  Entry.operation := by
              intro op htoken hkind hmem
              rw [List.map_append, List.mem_append] at hmem
              rcases hmem with hmem | hmem
              · exact h.fresh hnew htoken hmem
              · exact hkind (List.mem_singleton.mp hmem ▸ rfl)
            have hexecution := ends_chargeExecution hbooks (.linearExecute action.token)
              (.linearWorld action.token) rfl rfl rfl nofun action true (hfresh _ rfl nofun)
              (hfresh _ rfl nofun)
            simp only [happlicable, Bool.true_eq_false, if_false]
            refine hexecution.bind fun executed hexecuted => ?_
            cases executed with
            | error x =>
                obtain ⟨hattempt, hexceeded⟩ := hexecuted.raises x rfl
                refine Imp.ends_ok (passed_of_refused (hplanned.mono hsublist) rfl rfl h.books.limits hgoal
                  fun action' part hpart hwithin => hexceeded ?_)
                obtain ⟨rfl, -⟩ := List.cons_prefix_cons.mp hpart
                obtain ⟨more, hcost⟩ := exists_passCost_apply challenge part happlicable
                rw [hcost, ← BudgetUsage.add_assoc, ← husage, ← BudgetUsage.add_assoc] at hwithin
                rcases hattempt with rfl | ⟨-, rfl⟩
                · have hsplit : executionCost action' true =
                      (BudgetExhaustion.ofAction ledger.usage action').delta + ⟨0, 1, 2⟩ := rfl
                  have hfit := hwithin.of_add
                  rw [hsplit, ← BudgetUsage.add_assoc] at hfit
                  exact hfit.of_add
                · exact hwithin.of_add
            | ok ledger' =>
                obtain ⟨hbooks', husage'⟩ := hexecuted.returns ledger' rfl
                rw [List.append_assoc] at hbooks'
                rw [husage] at husage'
                have hscanned := h.execute haction happlicable rfl hbooks'
                by_cases hreached : goalIsReached challenge (applyEffects action s.state) = true
                · simp only [hreached, if_true]
                  exact Imp.ends_ok (passed_of_goal (hscanned.mono hsublist) happlicable hreached husage')
                · rw [Bool.not_eq_true] at hreached
                  simp only [hreached, Bool.false_eq_true, if_false]
                  exact (ih hcatalog' hscanned hreached).mono
                    (fun result hpassed => hpassed.apply happlicable hreached husage') fun _ he => he

/-! ## Runs of the baseline -/

theorem scanned_empty :
    Scanned challenge budget [] ⟨.empty budget, challenge.initialMapping, []⟩ [] :=
  ⟨books_empty, List.forall_mem_nil _, rfl, List.forall_mem_nil _, List.Sublist.refl _⟩

/-- The baseline raises only for a collision, and its run agrees with the oracle exactly if the pass over
the catalog is bounded. -/
theorem ends_baseline (challenge : PublicChallenge) (budget : BudgetLimits) :
    Imp.Ends (fun run => Agrees challenge budget run ↔ PassIsBounded challenge budget)
      (IsCollision challenge budget) (LinearBaseline.solve challenge budget) := by
  have hscanned : Scanned challenge budget [] _ _ := scanned_empty
  have hpass := ends_linearPass (List.nil_append challenge.actions) hscanned (goalIsReached_initialMapping challenge)
  rw [LinearBaseline.solve]
  refine hpass.bind fun result hpassed => ?_
  obtain ⟨s, stop, x⟩ := result
  obtain ⟨entries, hscanned⟩ := hpassed.scanned
  have hnodup : s.selected.Nodup := hscanned.sublist.nodup challenge.tokensUnique
  refine Imp.ends_bind_of_ok (submission_create hnodup) ?_
  refine Imp.ends_of_eq_ok (systemRun_create List.nodup_nil hpassed.stop.2) ?_
  rw [agrees_iff hscanned.books rfl hscanned.played hscanned.executed hpassed.stop.1]
  obtain ⟨part, hpart, hwithin, hselected⟩ := hpassed.applied
  have hzero : ∀ u : BudgetUsage, (BudgetLedger.empty budget).usage + u = u := by
    intro u
    change BudgetUsage.mk _ _ _ = u
    simp [BudgetLedger.empty, BudgetLedger.usage, usage]
  rw [hzero] at hwithin
  constructor
  · intro hlength part' hpart' hwithin'
    have hlongest := hpassed.longest part' hpart' ((hzero _).symm ▸ hwithin')
    rw [List.length_nil, Nat.zero_add] at hlongest
    exact hlongest.trans hlength
  · intro hbounded
    change s.selected.length ≤ _
    rw [hselected]
    exact hbounded part hpart hwithin

end StateWeaver.StateChainBench
