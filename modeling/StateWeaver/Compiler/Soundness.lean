import StateWeaver.Compiler.Scheduling

/-!
# Soundness of the compiler

A chain that the compiler returns is an execution: in the order of the chain, every fragment is ready
when its turn comes, and the state at the end meets the goal. `Plan` is what the compiler looks for.
`attempt` finds the plan of the subset it is given if there is one, `firstPlan` the plan of the first
subset that has one, and `assemble` turns a plan into a chain without changing it.
-/

namespace StateWeaver.Compiler

open Contracts

/-! ## Compatible effects -/

/-- Any two `SET` effects on one path set equal values. -/
def SetsAgree (effects : List StateEffect) : Prop :=
  ∀ e ∈ effects, ∀ e' ∈ effects, e.operation = .set → e'.operation = .set → e.path = e'.path →
    e.value.val.eq e'.value.val = true

instance (effects : List StateEffect) : Decidable (SetsAgree effects) :=
  inferInstanceAs (Decidable (∀ e ∈ effects, ∀ e' ∈ effects, _))

/-- Any two `SET` effects of the fragments on one path set equal values. -/
def EffectsCompatible (l : List CompilerFragment) : Prop :=
  SetsAgree (l.flatMap fun f => f.fragment.effects)

instance (l : List CompilerFragment) : Decidable (EffectsCompatible l) :=
  inferInstanceAs (Decidable (SetsAgree _))

theorem SetsAgree.subset {effects effects' : List StateEffect} (h : SetsAgree effects')
    (hsub : effects ⊆ effects') : SetsAgree effects :=
  fun e he e' he' => h e (hsub he) e' (hsub he')

theorem EffectsCompatible.subset {l l' : List CompilerFragment} (h : EffectsCompatible l')
    (hsub : l ⊆ l') : EffectsCompatible l := by
  refine SetsAgree.subset h fun e he => ?_
  obtain ⟨f, hf, he⟩ := List.mem_flatMap.mp he
  exact List.mem_flatMap.mpr ⟨f, hsub hf, he⟩

/-- A JSON scalar is equal to itself, since it is no NaN. -/
theorem eq_self (value : JsonScalar) : value.val.eq value.val = true := by
  refine Py.Scalar.eq_self fun x hx => ?_
  have hfinite := value.finite
  rw [hx] at hfinite
  exact hfinite

/-- The dictionary of the values that the effects seen so far have set. -/
structure Recorded (seen : List StateEffect) (values : Dict StatePath Py.Scalar) : Prop where
  agrees : ∀ e ∈ seen, e.operation = .set →
    ∃ v, values.get? e.path = some v ∧ v.eq e.value.val = true
  set_by : ∀ path v, values.get? path = some v →
    ∃ e ∈ seen, e.operation = .set ∧ e.path = path ∧ e.value.val = v

theorem recorded_empty : Recorded [] .empty := by
  constructor
  · intro e he
    cases he
  · intro path v hget
    rw [Dict.get?_empty] at hget
    cases hget

/-- What is recorded agrees with itself. -/
theorem Recorded.setsAgree {seen : List StateEffect} {values : Dict StatePath Py.Scalar}
    (h : Recorded seen values) : SetsAgree seen := by
  intro e he e' he' hset hset' hpath
  obtain ⟨v, hget, heq⟩ := h.agrees e he hset
  obtain ⟨v', hget', heq'⟩ := h.agrees e' he' hset'
  rw [hpath, hget', Option.some.injEq] at hget
  rw [hget] at heq'
  exact Py.Scalar.eq_trans (Py.Scalar.eq_symm heq) heq'

/-- An effect that is no `SET` changes nothing that is recorded. -/
theorem Recorded.skip {seen : List StateEffect} {values : Dict StatePath Py.Scalar}
    (h : Recorded seen values) {effect : StateEffect} (hset : effect.operation ≠ .set) :
    Recorded (seen ++ [effect]) values := by
  constructor
  · intro e he hop
    rcases List.mem_append.mp he with he | he
    · exact h.agrees e he hop
    · rw [List.mem_singleton.mp he] at hop
      exact absurd hop hset
  · intro path v hget
    obtain ⟨e, he, hrest⟩ := h.set_by path v hget
    exact ⟨e, List.mem_append_left _ he, hrest⟩

/-- A `SET` that agrees with what is under its path is recorded. -/
theorem Recorded.record {seen : List StateEffect} {values : Dict StatePath Py.Scalar}
    (h : Recorded seen values) {effect : StateEffect} (hset : effect.operation = .set)
    (hagree : ∀ v, values.get? effect.path = some v → v.eq effect.value.val = true) :
    Recorded (seen ++ [effect]) (values.setdefault effect.path effect.value.val) := by
  constructor
  · intro e he hop
    rw [Dict.get?_setdefault]
    rcases List.mem_append.mp he with he | he
    · obtain ⟨v, hget, heq⟩ := h.agrees e he hop
      refine ⟨v, ?_, heq⟩
      split
      · next hpath => rw [← hpath, hget, Option.getD_some]
      · exact hget
    · rw [List.mem_singleton.mp he, if_pos rfl]
      refine ⟨_, rfl, ?_⟩
      cases hget : values.get? effect.path with
      | none => exact eq_self effect.value
      | some v => exact hagree v hget
  · intro path v hget
    rw [Dict.get?_setdefault] at hget
    split at hget
    · next hpath =>
        cases hold : values.get? effect.path with
        | none =>
            rw [hold, Option.getD_none, Option.some.injEq] at hget
            exact ⟨effect, List.mem_append_right _ (List.mem_singleton_self effect), hset,
              hpath.symm, hget⟩
        | some w =>
            rw [hold, Option.getD_some, Option.some.injEq] at hget
            obtain ⟨e, he, hop, hp, hv⟩ := h.set_by effect.path w hold
            exact ⟨e, List.mem_append_left _ he, hop, hp.trans hpath.symm, hv.trans hget⟩
    · obtain ⟨e, he, hrest⟩ := h.set_by path v hget
      exact ⟨e, List.mem_append_left _ he, hrest⟩

theorem assertEffect_of_ne {id : ContractId} {values : Dict StatePath Py.Scalar}
    {effect : StateEffect} (hset : effect.operation ≠ .set) :
    assertEffect id values effect = .ok values := by
  rw [assertEffect]
  split
  · next h => exact absurd h hset
  · rfl

theorem assertEffect_set {id : ContractId} {values values' : Dict StatePath Py.Scalar}
    {effect : StateEffect} (hset : effect.operation = .set) :
    assertEffect id values effect = .ok values' ↔
      (∀ v, values.get? effect.path = some v → v.eq effect.value.val = true) ∧
        values' = values.setdefault effect.path effect.value.val := by
  simp only [assertEffect, hset]
  rw [Imp.check_bind_eq_ok, Imp.require_eq_ok, Dict.get?_setdefault, if_pos rfl]
  refine and_congr ?_ ⟨?_, ?_⟩
  · cases values.get? effect.path with
    | none =>
        constructor
        · intro _ v hv
          cases hv
        · intro _ v hv
          cases hv
          exact eq_self effect.value
    | some w => rfl
  · intro h
    cases h
    rfl
  · rintro rfl
    rfl

/-- Checking an effect records it. -/
theorem Recorded.assertEffect {seen : List StateEffect} {id : ContractId}
    {values values' : Dict StatePath Py.Scalar} {effect : StateEffect} (h : Recorded seen values)
    (hassert : assertEffect id values effect = .ok values') :
    Recorded (seen ++ [effect]) values' := by
  by_cases hset : effect.operation = .set
  · obtain ⟨hagree, rfl⟩ := (assertEffect_set hset).mp hassert
    exact h.record hset hagree
  · rw [assertEffect_of_ne hset] at hassert
    cases hassert
    exact h.skip hset

/-- An effect that agrees with those recorded passes. -/
theorem Recorded.exists_assertEffect {seen : List StateEffect} (id : ContractId)
    {values : Dict StatePath Py.Scalar} {effect : StateEffect} (h : Recorded seen values)
    (hagree : SetsAgree (seen ++ [effect])) :
    ∃ values', Compiler.assertEffect id values effect = .ok values' := by
  by_cases hset : effect.operation = .set
  · refine ⟨_, (assertEffect_set hset).mpr ⟨fun v hget => ?_, rfl⟩⟩
    obtain ⟨e, he, hop, hpath, rfl⟩ := h.set_by effect.path v hget
    exact hagree e (List.mem_append_left _ he) effect
      (List.mem_append_right _ (List.mem_singleton_self effect)) hop hset hpath
  · exact ⟨values, assertEffect_of_ne hset⟩

/-- Checking the effects of the fragments in turn records them. -/
theorem recorded_of_assertEffects {selected : List CompilerFragment}
    {values : Dict StatePath Py.Scalar}
    (h : selected.foldlM (fun values node =>
      node.fragment.effects.foldlM (assertEffect node.fragmentId) values) Dict.empty = .ok values) :
    Recorded (selected.flatMap fun f => f.fragment.effects) values := by
  refine Imp.foldlM_invariant
    (I := fun done values => Recorded (done.flatMap fun f => f.fragment.effects) values)
    (d := []) ?_ recorded_empty h
  intro done before node after hbefore hnode
  rw [List.flatMap_append, List.flatMap_singleton]
  exact Imp.foldlM_invariant (fun _ _ _ _ hrecorded hassert => hrecorded.assertEffect hassert)
    hbefore hnode

/-- Fragments whose effects are compatible pass. -/
theorem exists_assertEffects {selected : List CompilerFragment} (h : EffectsCompatible selected) :
    ∃ values, selected.foldlM (fun values node =>
      node.fragment.effects.foldlM (assertEffect node.fragmentId) values) Dict.empty = .ok values := by
  refine Exists.imp (fun values hvalues => hvalues.1) (Imp.foldlM_succeeds (d := [])
    (I := fun done values => Recorded (done.flatMap fun f => f.fragment.effects) values)
    ?_ recorded_empty)
  intro before values node after hsplit hrecorded
  rw [List.flatMap_append, List.flatMap_singleton]
  refine Imp.foldlM_succeeds ?_ hrecorded
  intro seen values effect rest hsplitEffects hseen
  have hagree : SetsAgree (seen ++ [effect]) := by
    refine SetsAgree.subset h ?_
    rw [← List.nil_append selected, ← hsplit, List.flatMap_append, List.flatMap_cons,
      ← List.append_assoc, ← hsplitEffects, List.append_cons seen effect rest, List.append_assoc]
    exact List.subset_append_left _ _
  obtain ⟨values', hassert⟩ := hseen.exists_assertEffect node.fragmentId hagree
  exact ⟨values', hassert, hseen.assertEffect hassert⟩

/-- `_assert_effects_compatible` passes if the effects are compatible. -/
theorem assertEffectsCompatible_eq_ok {selected : List CompilerFragment} :
    assertEffectsCompatible selected = .ok () ↔ EffectsCompatible selected := by
  rw [assertEffectsCompatible, Imp.except_bind_eq_ok]
  constructor
  · rintro ⟨values, h, -⟩
    exact (recorded_of_assertEffects h).setsAgree
  · intro h
    obtain ⟨values, hvalues⟩ := exists_assertEffects h
    exact ⟨values, hvalues, rfl⟩

/-! ## Plans -/

/-- What the compiler looks for: fragments in the order in which the scheduler takes them, with
compatible effects, that lead from the root to the goal. -/
structure Plan (root : RootState) (initial : State) (goal : TerminalGoal)
    (l : List CompilerFragment) : Prop where
  compatible : EffectsCompatible l
  reaches : ∃ final, planning.Greedy CompilerFragment.fragmentId (rootConfig root initial) l final ∧
    allConditions goal.conditions final.state = true

section Attempts

variable {root : RootState} {initial : State} {clockMs : Nat} {goal : TerminalGoal}
  {selected : List CompilerFragment} {simulation : Simulation}

/-- A subset passes if its effects are compatible and its simulation reaches the goal. -/
theorem attempt_eq_ok :
    attempt initial clockMs goal selected = .ok simulation ↔
      EffectsCompatible selected ∧
      scheduleLoop selected.length ⟨initial, clockMs, []⟩ selected = .ok simulation ∧
      allConditions goal.conditions simulation.state = true := by
  rw [attempt, Imp.check_bind_eq_ok, assertEffectsCompatible_eq_ok, schedule, Imp.except_bind_eq_ok]
  refine and_congr_right fun _ => ⟨?_, ?_⟩
  · rintro ⟨reached, hloop, hgoal⟩
    obtain ⟨hmet, hret⟩ := Imp.check_bind_eq_ok.mp hgoal
    cases hret
    exact ⟨hloop, Imp.require_eq_ok.mp hmet⟩
  · rintro ⟨hloop, hgoal⟩
    exact ⟨simulation, hloop, Imp.check_bind_eq_ok.mpr ⟨Imp.require_eq_ok.mpr hgoal, rfl⟩⟩

/-- A subset that passes is the plan of its simulation. -/
theorem plan_of_attempt (h : attempt initial root.clockMs goal selected = .ok simulation) :
    simulation.ordered.Perm selected ∧ Plan root initial goal simulation.ordered := by
  obtain ⟨hcompatible, hloop, hgoal⟩ := attempt_eq_ok.mp h
  obtain ⟨l, hperm, hordered, hgreedy⟩ := greedy_of_scheduleLoop rfl hloop
  rw [List.nil_append] at hordered
  rw [hordered]
  exact ⟨hperm, hcompatible.subset hperm.subset, simulation.config, hgreedy, hgoal⟩

/-- A subset with a plan passes. -/
theorem exists_attempt {l : List CompilerFragment} (hunique : UniqueIds selected)
    (hperm : l.Perm selected) (h : Plan root initial goal l) :
    ∃ simulation, attempt initial root.clockMs goal selected = .ok simulation := by
  obtain ⟨final, hgreedy, hgoal⟩ := h.reaches
  have hstart : rootConfig root initial = Simulation.config ⟨initial, root.clockMs, []⟩ := rfl
  rw [hstart] at hgreedy
  obtain ⟨simulation, hloop, hfinal⟩ := scheduleLoop_of_greedy hunique hperm hgreedy
  rw [← hfinal] at hgoal
  exact ⟨simulation, attempt_eq_ok.mpr ⟨h.compatible.subset hperm.symm.subset, hloop, hgoal⟩⟩

end Attempts

/-! ## The first plan -/

section FirstPlan

variable {initial : State} {clockMs : Nat} {goal : TerminalGoal} {failures failures' : Failures}
  {sets : List (List CompilerFragment)} {simulation : Simulation}

/-- The subset that is found is the first one that passes. -/
theorem firstPlan_eq_inl (h : firstPlan initial clockMs goal failures sets = .ok (.inl simulation)) :
    ∃ before selected after, sets = before ++ selected :: after ∧
      (∀ set ∈ before, ∃ error, attempt initial clockMs goal set = .error error) ∧
      attempt initial clockMs goal selected = .ok simulation := by
  induction sets generalizing failures with
  | nil => cases h
  | cons set rest ih =>
      rw [firstPlan] at h
      cases hattempt : attempt initial clockMs goal set with
      | ok found =>
          simp only [hattempt, (attempt_eq_ok.mp hattempt).2.2, if_true] at h
          cases h
          exact ⟨[], set, rest, rfl, fun _ hset => absurd hset List.not_mem_nil, hattempt⟩
      | error error =>
          simp only [hattempt] at h
          split at h
          · obtain ⟨before, selected, after, rfl, hbefore, hfound⟩ := ih h
            exact ⟨set :: before, selected, after, rfl,
              List.forall_mem_cons.mpr ⟨⟨error, hattempt⟩, hbefore⟩, hfound⟩
          · cases h

/-- If nothing is found, no subset passes. -/
theorem firstPlan_eq_inr (h : firstPlan initial clockMs goal failures sets = .ok (.inr failures')) :
    ∀ set ∈ sets, ∃ error, attempt initial clockMs goal set = .error error := by
  induction sets generalizing failures with
  | nil => exact fun _ hset => absurd hset List.not_mem_nil
  | cons set rest ih =>
      rw [firstPlan] at h
      cases hattempt : attempt initial clockMs goal set with
      | ok found =>
          simp only [hattempt, (attempt_eq_ok.mp hattempt).2.2, if_true] at h
          cases h
      | error error =>
          simp only [hattempt] at h
          split at h
          · exact List.forall_mem_cons.mpr ⟨⟨error, hattempt⟩, ih h⟩
          · cases h

/-- What leaves the loop is no compilation error. -/
theorem firstPlan_eq_error {error : Exc}
    (h : firstPlan initial clockMs goal failures sets = .error error) :
    error.isCompilationError = false ∧
      ∃ set ∈ sets, attempt initial clockMs goal set = .error error := by
  induction sets generalizing failures with
  | nil => cases h
  | cons set rest ih =>
      rw [firstPlan] at h
      cases hattempt : attempt initial clockMs goal set with
      | ok found =>
          simp only [hattempt, (attempt_eq_ok.mp hattempt).2.2, if_true] at h
          cases h
      | error raised =>
          simp only [hattempt] at h
          split at h
          · obtain ⟨hverdict, set', hset', hraised⟩ := ih h
            exact ⟨hverdict, set', List.mem_cons_of_mem set hset', hraised⟩
          · next hverdict =>
              cases h
              exact ⟨Bool.eq_false_iff.mpr hverdict, set, List.mem_cons_self, hattempt⟩

end FirstPlan

/-- The subsets that are tried are those of at least one fragment. -/
theorem mem_candidateSets {relevant selected : List CompilerFragment} :
    selected ∈ candidateSets relevant ↔ selected.Sublist relevant ∧ selected ≠ [] := by
  rw [candidateSets, List.mem_flatMap]
  constructor
  · rintro ⟨size, hsize, hselected⟩
    obtain ⟨hsub, hlength⟩ := List.mem_combinations.mp hselected
    refine ⟨hsub, fun hnil => ?_⟩
    rw [hnil] at hlength
    have hpositive := (List.mem_range'_1.mp hsize).1
    rw [← hlength] at hpositive
    cases hpositive
  · rintro ⟨hsub, hnonempty⟩
    refine ⟨selected.length, List.mem_range'_1.mpr ⟨?_, ?_⟩, List.mem_combinations.mpr ⟨hsub, rfl⟩⟩
    · exact List.length_pos_iff.mpr hnonempty
    · have hlength := hsub.length_le
      omega

/-! ## The chain -/

/-- The fragments that a request brings: in the order of their identifiers, each once. -/
theorem admitRoot_eq_ok {root : RootState} {fragments nodes : List CompilerFragment} {initial : State}
    (h : admitRoot root fragments = .ok (nodes, initial)) :
    nodes.Perm fragments ∧ UniqueIds nodes ∧ stateFromConditions root.conditions = .ok initial := by
  obtain ⟨-, h⟩ := Imp.check_bind_eq_ok.mp h
  obtain ⟨hunique, h⟩ := Imp.check_bind_eq_ok.mp h
  obtain ⟨-, h⟩ := Imp.check_bind_eq_ok.mp h
  obtain ⟨state, hstate, hret⟩ := Imp.except_bind_eq_ok.mp h
  cases hret
  have hnodup := Imp.require_eq_ok.mp hunique
  exact ⟨List.perm_insertionSort _ fragments, hnodup, hstate⟩

/-- A chain lists the fragments of its simulation, the envelopes numbered from zero. -/
theorem assemble_eq_ok [ModelDigest] {chainId : String} {root : RootState} {goal : TerminalGoal}
    {simulation : Simulation} {chain : CompiledChain}
    (h : assemble chainId root goal simulation = .ok chain) :
    chain.fragmentIds = simulation.ordered.map CompilerFragment.fragmentId ∧
      chain.actionEnvelopes = simulation.ordered.mapIdx
        fun index item => resequencedEnvelope item.envelope index := by
  obtain ⟨rootStateHash, -, h⟩ := Imp.except_bind_eq_ok.mp h
  obtain ⟨hashes, -, h⟩ := Imp.except_bind_eq_ok.mp h
  obtain ⟨causalHash, -, h⟩ := Imp.except_bind_eq_ok.mp h
  split at h
  · cases h
  · obtain ⟨-, h⟩ := Imp.check_bind_eq_ok.mp h
    obtain ⟨-, h⟩ := Imp.check_bind_eq_ok.mp h
    obtain ⟨expected, -, h⟩ := Imp.except_bind_eq_ok.mp h
    obtain ⟨-, hret⟩ := Imp.check_bind_eq_ok.mp h
    cases hret
    exact ⟨rfl, rfl⟩

section Compile

variable [ModelDigest] {chainId : String} {root : RootState} {fragments : List CompilerFragment}
  {goal : TerminalGoal} {chain : CompiledChain}

/-- A chain that is returned is that of the first subset that passes. -/
theorem compile_eq_ok [SetOrder] (h : compile chainId root fragments goal = .ok chain) :
    ∃ nodes initial before selected after simulation,
      admitRoot root fragments = .ok (nodes, initial) ∧
      candidateSets (relevantNodes nodes goal) = before ++ selected :: after ∧
      (∀ set ∈ before, ∃ error, attempt initial root.clockMs goal set = .error error) ∧
      attempt initial root.clockMs goal selected = .ok simulation ∧
      assemble chainId root goal simulation = .ok chain := by
  obtain ⟨⟨nodes, initial⟩, hadmitted, h⟩ := Imp.except_bind_eq_ok.mp h
  obtain ⟨-, h⟩ := Imp.check_bind_eq_ok.mp h
  obtain ⟨found, hfirst, h⟩ := Imp.except_bind_eq_ok.mp h
  split at h
  · obtain ⟨before, selected, after, hsets, hbefore, hattempt⟩ := firstPlan_eq_inl hfirst
    exact ⟨nodes, initial, before, selected, after, _, hadmitted, hsets, hbefore, hattempt, h⟩
  · cases h

/-- The fragments of a chain, in its order, as an execution of the request. -/
structure Realizes (root : RootState) (fragments : List CompilerFragment) (goal : TerminalGoal)
    (chain : CompiledChain) (ordered : List CompilerFragment) : Prop where
  /-- Every fragment is ready in its turn, and the last state meets the goal. -/
  runs : ∃ initial final, stateFromConditions root.conditions = .ok initial ∧
    planning.Executes (rootConfig root initial) ordered final ∧
    allConditions goal.conditions final.state = true
  compatible : EffectsCompatible ordered
  fromInput : ordered ⊆ fragments
  once : (ordered.map CompilerFragment.fragmentId).Nodup
  fragmentIds : chain.fragmentIds = ordered.map CompilerFragment.fragmentId
  envelopes : chain.actionEnvelopes =
    ordered.mapIdx fun index f => { f.envelope with sequence := index }

/-- The chain that is assembled from a subset that passes. -/
theorem realizes_of_attempt {nodes selected : List CompilerFragment} {initial : State}
    {simulation : Simulation} (hadmitted : admitRoot root fragments = .ok (nodes, initial))
    (hselected : selected ∈ candidateSets (relevantNodes nodes goal))
    (hattempt : attempt initial root.clockMs goal selected = .ok simulation)
    (hchain : assemble chainId root goal simulation = .ok chain) :
    Realizes root fragments goal chain simulation.ordered := by
  obtain ⟨hnodes, hunique, hinitial⟩ := admitRoot_eq_ok hadmitted
  have hsub : selected.Sublist nodes :=
    (mem_candidateSets.mp hselected).1.trans List.filter_sublist
  obtain ⟨hperm, hplan⟩ := plan_of_attempt hattempt
  obtain ⟨final, hgreedy, hgoal⟩ := hplan.reaches
  obtain ⟨hids, henvelopes⟩ := assemble_eq_ok hchain
  refine ⟨⟨initial, final, hinitial, hgreedy.executes, hgoal⟩, hplan.compatible, ?_, ?_, hids,
    henvelopes⟩
  · exact fun f hf => hnodes.subset (hsub.subset (hperm.subset hf))
  · exact (hunique.sublist hsub).perm hperm.symm

/-- Every chain that is returned is an execution of fragments of the request that reaches the goal. -/
theorem realizes_of_compile [SetOrder] (h : compile chainId root fragments goal = .ok chain) :
    ∃ ordered, Realizes root fragments goal chain ordered := by
  obtain ⟨nodes, initial, before, selected, after, simulation, hadmitted, hsets, -, hattempt, hchain⟩ :=
    compile_eq_ok h
  have hselected : selected ∈ candidateSets (relevantNodes nodes goal) := by
    rw [hsets]
    exact List.mem_append_right _ List.mem_cons_self
  exact ⟨simulation.ordered, realizes_of_attempt hadmitted hselected hattempt hchain⟩

end Compile

end StateWeaver.Compiler

namespace StateWeaver.Compiler.Demo

open Contracts

/-- Digests and a set order that let requests be compiled. -/
def digest : Sha256Digest :=
  ⟨"sha256:0000000000000000000000000000000000000000000000000000000000000000", by decide +kernel⟩

@[reducible]
def modelDigest : ModelDigest := ⟨fun _ => .ok digest, fun _ => .ok digest, fun _ => .ok digest⟩

@[reducible]
def setOrder : SetOrder := ⟨fun l => l, fun _ _ => Iff.rfl⟩

def world : ContractId := ⟨"world.demo", by decide +kernel⟩

def true_ : JsonScalar := ⟨.bool true, rfl⟩

/-- `path == true`. -/
def isTrue (path : StatePath) : StateCondition := ⟨path, .eq, true_, none, nofun, fun _ => by decide⟩

def setTrue (path : StatePath) : StateEffect := ⟨path, .set, true_, rfl⟩

def remove (path : StatePath) : StateEffect := ⟨path, .remove, .none, rfl⟩

def click : Action := .browserClick ⟨"selector:demo", by decide +kernel⟩

def envelope : ActionEnvelope where
  actionId := ⟨"action.demo", by decide +kernel⟩
  experimentId := ⟨"experiment.demo", by decide +kernel⟩
  worldId := world
  scopeAction := .browserInteraction
  action := click
  riskClass := .reversibleStateChange
  idempotencyKey := digest
  requestedBy := ⟨.workflow, ⟨"compiler", by decide +kernel⟩, none⟩
  policyDecisionRef := ⟨"policy.demo", by decide +kernel⟩
  timeoutPositive := by decide
  scopeBound := rfl
  resolved := rfl
  elevatedApproved := nofun
  passiveReads := nofun

/-- A click that needs one condition. -/
def fragment (fragmentId : ContractId) (needs : StateCondition) (effect : StateEffect)
    (effects : List StateEffect) : CompilerFragment where
  fragment :=
    { transitionId := fragmentId, name := "click", source := .hypothesized, preconditions := [needs],
      action := click, effects := effect :: effects, observables := [needs], fidelity := {},
      preconditionsNonempty := nofun, effectsNonempty := nofun, observablesNonempty := nofun,
      evidenceUnique := .nil, inferredReplayed := nofun, evidenced := by decide,
      unevidenced := fun _ => rfl, unobservedFidelity := fun _ => by decide,
      unknownFidelity := nofun, observedFidelity := nofun }
  envelope := envelope
  worldId := world
  binding := ⟨none, none, none, nofun⟩
  window := ⟨0, 86400000, by decide⟩
  costInRange := by decide
  envelopeWorld := rfl
  envelopeAction := rfl
  afterOthers := List.not_mem_nil
  afterUnique := .nil

def rootOf (conditions : List StateCondition) : RootState :=
  ⟨⟨"root.demo", by decide +kernel⟩, world, conditions, 0⟩

def goalOf (condition : StateCondition) (conditions : List StateCondition) : TerminalGoal :=
  ⟨⟨"goal.demo", by decide +kernel⟩, condition :: conditions, nofun⟩

def started : StatePath := ⟨"demo.started", by decide +kernel⟩
def ready : StatePath := ⟨"demo.ready", by decide +kernel⟩
def finished : StatePath := ⟨"demo.finished", by decide +kernel⟩
def served : StatePath := ⟨"demo.served", by decide +kernel⟩

def idA : ContractId := ⟨"fragment.a", by decide +kernel⟩
def idB : ContractId := ⟨"fragment.b", by decide +kernel⟩

/-- Two fragments, the second one to be executed first. -/
def inTurn : List CompilerFragment :=
  [fragment idA (isTrue ready) (setTrue finished) [], fragment idB (isTrue started) (setTrue ready) []]

/-- The chain that is expected for fragments in an order. -/
def chainOf (root : RootState) (goal : TerminalGoal) (ordered : List CompilerFragment) :
    CompiledChain where
  chainId := ⟨"chain.demo", by decide +kernel⟩
  rootSeedId := root.rootSeedId
  worldId := world
  fragmentIds := ordered.map CompilerFragment.fragmentId
  actionEnvelopes := ordered.mapIdx fun index _ => { envelope with sequence := index }
  rootStateHash := digest
  fragmentSemanticHashes := ordered.map fun _ => digest
  terminalGoal := goal
  causalHash := digest

attribute [local instance] modelDigest setOrder

theorem realizes_inTurn :
    ∃ ordered, Realizes (rootOf [isTrue started]) inTurn (goalOf (isTrue finished) [])
      (chainOf (rootOf [isTrue started]) (goalOf (isTrue finished) []) inTurn.reverse) ordered := by
  have hcompile : compile "chain.demo" (rootOf [isTrue started]) inTurn (goalOf (isTrue finished) []) =
      .ok (chainOf (rootOf [isTrue started]) (goalOf (isTrue finished) []) inTurn.reverse) := by
    decide +kernel
  exact realizes_of_compile hcompile

end StateWeaver.Compiler.Demo
