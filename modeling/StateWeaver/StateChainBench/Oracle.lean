import StateWeaver.StateChainBench.Systems

/-!
# The oracle

The oracle replays a submission against the public challenge and compares the last state with a hidden
terminal state.
-/

namespace StateWeaver.StateChainBench

open Contracts

inductive OracleReason where
  | success | goalNotReached | unknownAction | duplicateAction | preconditionFailed | chainTooLong
  | challengeMismatch | publicChallengeMismatch | realityAnchorDisabled
  deriving DecidableEq

/-- The validity and the success that a reason stands for. -/
def OracleReason.expected : OracleReason → Bool × Bool
  | .success => (true, true)
  | .goalNotReached => (true, false)
  | _ => (false, false)

structure OracleVerdict where
  challengeId : ChallengeId
  valid : Bool
  success : Bool
  reason : OracleReason
  finalStateFingerprint : Sha256Digest
  evaluatedActions : Nat
  isCoherent : (valid, success) = reason.expected

/-! ## The fingerprint of a challenge -/

def StateCell.toWritable (cell : StateCell) : Writable :=
  .mapping [("key", .text cell.key.val), ("value", .flag cell.value)] (by simp)

def Cells.toWritable (cells : Cells) : Writable := .list (cells.items.map StateCell.toWritable)

def PublicAction.toWritable (action : PublicAction) : Writable :=
  .mapping
    [("token", .text action.token.val), ("preconditions", action.preconditions.toWritable),
      ("effects", action.effects.toWritable),
      ("action_cost", .number action.actionCost
        (lt_of_le_of_lt action.costInRange.2 (by decide)))]
    (by simp)

def PublicChallenge.toWritable (challenge : PublicChallenge) : Writable :=
  .mapping
    [("challenge_id", .text challenge.challengeId.val), ("track", .text "synthetic"),
      ("initial_state", challenge.initialState.toWritable), ("goal", challenge.goal.toWritable),
      ("actions", .list (challenge.actions.map PublicAction.toWritable)),
      ("max_chain_length", .number challenge.maxChainLength
        (lt_of_le_of_lt challenge.lengthInRange.2 (by decide)))]
    (by simp)

variable [Sha256]

/-- `fingerprint` of a challenge. -/
def PublicChallenge.fingerprint (challenge : PublicChallenge) : Sha256Digest := challenge.toWritable.digest

/-! ## The replay -/

structure OracleSpec where
  challengeId : ChallengeId
  publicFingerprint : Sha256Digest
  terminalState : Cells

/-- `DeterministicHiddenOracle`, by its registry. -/
structure HiddenOracle where
  registry : Dict ChallengeId OracleSpec
  nonempty : registry.entries ≠ []
  keyed : ∀ e ∈ registry.entries, e.2.challengeId = e.1

omit [Sha256] in
/-- `{item.token: item for item in challenge.actions}`. -/
def PublicChallenge.catalog (challenge : PublicChallenge) : Dict ActionToken PublicAction :=
  ⟨challenge.actions.map fun item => (item.token, item), by
    rw [List.map_map]
    exact challenge.tokensUnique⟩

/-- `_verdict`. -/
def verdict (challenge : PublicChallenge) (reason : OracleReason) (state : State) (evaluated : Nat) :
    OracleVerdict :=
  ⟨challenge.challengeId, reason.expected.1, reason.expected.2, reason, stateFingerprint state, evaluated,
    rfl⟩

omit [Sha256] in
/-- The loop over the actions of a submission: the last state, the number of actions evaluated and the
reason of a failure. -/
def replay (actions : Dict ActionToken PublicAction) : List ActionToken → State → Nat →
    State × Nat × Option OracleReason
  | [], state, evaluated => (state, evaluated, none)
  | token :: rest, state, evaluated =>
      match actions.get? token with
      | none => (state, evaluated, some .unknownAction)
      | some action =>
          if actionIsApplicable action state = false then (state, evaluated, some .preconditionFailed)
          else replay actions rest (applyEffects action state) (evaluated + 1)

/-- `evaluate`. The submission is given by its fields, as it may not have been validated. -/
def HiddenOracle.evaluate (oracle : HiddenOracle) (challenge : PublicChallenge) (challengeId : ChallengeId)
    (actionTokens : List ActionToken) : OracleVerdict :=
  let reject := fun reason => verdict challenge reason challenge.initialMapping 0
  if ¬actionTokens.Nodup then reject .duplicateAction
  else if challengeId ≠ challenge.challengeId then reject .challengeMismatch
  else
    match oracle.registry.get? challenge.challengeId with
    | none => reject .publicChallengeMismatch
    | some spec =>
        if spec.publicFingerprint ≠ challenge.fingerprint then reject .publicChallengeMismatch
        else if challenge.maxChainLength < actionTokens.length then reject .chainTooLong
        else
          match replay challenge.catalog actionTokens challenge.initialMapping 0 with
          | (state, evaluated, some reason) => verdict challenge reason state evaluated
          | (state, evaluated, none) =>
              let success := spec.terminalState.items.all fun item => state.get? item.key = some item.value
              verdict challenge (if success then .success else .goalNotReached) state evaluated

/-- `anchor_disabled_verdict`. -/
def anchorDisabledVerdict (challenge : PublicChallenge) : OracleVerdict :=
  verdict challenge .realityAnchorDisabled challenge.initialMapping 0

end StateWeaver.StateChainBench
