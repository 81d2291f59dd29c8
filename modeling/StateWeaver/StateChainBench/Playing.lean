import StateWeaver.StateChainBench.Oracle

/-!
# Playing chains of actions

A chain is played by applying its actions one after another. The oracle finds a submission valid exactly
if it is a chain within the bound that can be played, and what a chain does depends only on the values of
the flags, not on how a state lists them.
-/

namespace StateWeaver.StateChainBench

open Contracts

/-! ## States -/

/-- Whether two states give each flag one value. -/
def SameState (s t : State) : Prop := ∀ key, s.get? key = t.get? key

theorem sameState_refl (s : State) : SameState s s := fun _ => rfl

variable {s t : State} {challenge : PublicChallenge} {action : PublicAction}

theorem SameState.symm (h : SameState s t) : SameState t s := fun key => (h key).symm

theorem sameState_sortedItems (s : State) : SameState (sortedItems s) s := by
  intro key
  refine Option.ext fun v => ?_
  rw [← Dict.mem_entries, ← Dict.mem_entries]
  exact (List.perm_insertionSort _ _).mem_iff

theorem SameState.isApplicable (h : SameState s t) (action : PublicAction) :
    actionIsApplicable action s = actionIsApplicable action t := by
  rw [actionIsApplicable, actionIsApplicable]
  refine congrArg _ (funext fun item => ?_)
  rw [h item.key]

theorem SameState.goalIsReached (h : SameState s t) (challenge : PublicChallenge) :
    goalIsReached challenge s = StateChainBench.goalIsReached challenge t := by
  rw [StateChainBench.goalIsReached, StateChainBench.goalIsReached, h challenge.goal.key]

theorem SameState.applyEffects (h : SameState s t) (action : PublicAction) :
    SameState (applyEffects action s) (StateChainBench.applyEffects action t) := by
  rw [StateChainBench.applyEffects, StateChainBench.applyEffects]
  generalize action.effects.items = effects
  induction effects generalizing s t with
  | nil => exact h
  | cons effect effects ih =>
      refine ih fun key => ?_
      rw [Dict.get?_insert, Dict.get?_insert, h key]

/-! ## Chains -/

/-- The state after the actions of a chain, if each is known and applicable at its step. -/
def play (challenge : PublicChallenge) : List ActionToken → State → Option State
  | [], state => some state
  | token :: rest, state =>
      match challenge.catalog.get? token with
      | none => none
      | some action =>
          if actionIsApplicable action state then play challenge rest (applyEffects action state) else none

theorem get?_catalog (h : action ∈ challenge.actions) :
    challenge.catalog.get? action.token = some action :=
  Dict.mem_entries.mp (List.mem_map.mpr ⟨action, h, rfl⟩)

theorem play_append (chain chain' : List ActionToken) (state : State) :
    play challenge (chain ++ chain') state = (play challenge chain state).bind (play challenge chain') := by
  induction chain generalizing state with
  | nil => rfl
  | cons token chain ih =>
      rw [List.cons_append, play, play]
      cases challenge.catalog.get? token with
      | none => rfl
      | some action =>
          by_cases happlicable : actionIsApplicable action state = true
          · simp only [happlicable, if_true, ih]
          · simp only [happlicable, if_false, Option.bind_none, Bool.false_eq_true]

/-- A chain is played one action further. -/
theorem play_concat {chain : List ActionToken} {state state' : State}
    (h : play challenge chain state = some state') (haction : action ∈ challenge.actions)
    (happlicable : actionIsApplicable action state' = true) :
    play challenge (chain ++ [action.token]) state = some (applyEffects action state') := by
  rw [play_append, h, Option.bind_some, play, get?_catalog haction]
  exact if_pos happlicable

/-- The loop of the oracle plays the chain. -/
theorem replay_eq (chain : List ActionToken) (state : State) (evaluated : Nat) :
    (∃ state', play challenge chain state = some state' ∧
      replay challenge.catalog chain state evaluated = (state', evaluated + chain.length, none)) ∨
    play challenge chain state = none ∧
      ∃ state' evaluated' reason,
        replay challenge.catalog chain state evaluated = (state', evaluated', some reason) ∧
        (reason = .unknownAction ∨ reason = .preconditionFailed) := by
  induction chain generalizing state evaluated with
  | nil => exact .inl ⟨state, rfl, rfl⟩
  | cons token chain ih =>
      rw [play, replay]
      cases challenge.catalog.get? token with
      | none => exact .inr ⟨rfl, _, _, _, rfl, .inl rfl⟩
      | some action =>
          by_cases happlicable : actionIsApplicable action state = true
          · simp only [happlicable, if_true, reduceCtorEq, if_false, List.length_cons]
            rw [Nat.add_comm chain.length, ← Nat.add_assoc]
            exact ih _ _
          · rw [Bool.not_eq_true] at happlicable
            simp only [happlicable, Bool.false_eq_true, if_false, if_true]
            exact .inr ⟨trivial, _, _, _, rfl, .inr rfl⟩

/-! ## The oracle -/

variable [Sha256]

/-- Whether an oracle has a challenge registered. -/
def HiddenOracle.Knows (oracle : HiddenOracle) (challenge : PublicChallenge) : Prop :=
  ∃ spec, oracle.registry.get? challenge.challengeId = some spec ∧
    spec.publicFingerprint = challenge.fingerprint

/-- An oracle finds exactly those submissions valid that can be played within the bound. -/
theorem valid_evaluate {oracle : HiddenOracle} (h : oracle.Knows challenge) (challengeId : ChallengeId)
    (chain : List ActionToken) :
    (oracle.evaluate challenge challengeId chain).valid = true ↔
      chain.Nodup ∧ challengeId = challenge.challengeId ∧ chain.length ≤ challenge.maxChainLength ∧
        ∃ state, play challenge chain challenge.initialMapping = some state := by
  obtain ⟨spec, hspec, hfingerprint⟩ := h
  rw [HiddenOracle.evaluate]
  simp only [hspec, hfingerprint]
  by_cases hnodup : chain.Nodup
  · by_cases hid : challengeId = challenge.challengeId
    · by_cases hlength : challenge.maxChainLength < chain.length
      · simp only [hnodup, hid, hlength, not_true_eq_false, ne_eq, if_false, if_true]
        exact iff_of_false nofun fun h => absurd h.2.2.1 (not_le.mpr hlength)
      · simp only [hnodup, hid, hlength, not_true_eq_false, ne_eq, if_false]
        rcases replay_eq chain challenge.initialMapping 0 with
          ⟨state, hplay, hreplay⟩ | ⟨hplay, state, evaluated, reason, hreplay, hreason⟩
        · rw [hreplay]
          refine iff_of_true ?_ ⟨trivial, trivial, not_lt.mp hlength, state, hplay⟩
          simp only [verdict]
          split_ifs <;> rfl
        · rw [hreplay, hplay]
          refine iff_of_false ?_ (by simp)
          rcases hreason with rfl | rfl <;> nofun
    · simp only [hnodup, hid, not_true_eq_false, ne_eq, if_false, not_false_eq_true, if_true]
      exact iff_of_false nofun fun h => h.2.1.elim
  · simp only [hnodup, not_false_eq_true, if_true]
    exact iff_of_false nofun fun h => h.1.elim

end StateWeaver.StateChainBench
