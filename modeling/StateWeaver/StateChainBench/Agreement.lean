import StateWeaver.StateChainBench.Charges
import StateWeaver.StateChainBench.Playing

/-!
# What a run and the oracle agree on

A run agrees with the oracle if its ledger is within the budget, the oracle finds its submission valid,
each submitted action is charged, and it stops for the goal exactly if the submission reaches the goal.
-/

namespace StateWeaver.StateChainBench

open Contracts

variable [Sha256]

structure Agrees (challenge : PublicChallenge) (budget : BudgetLimits) (run : SystemRun) : Prop where
  limits : run.ledger.limits = budget
  within : Within budget run.ledger.usage
  /-- Every oracle with the challenge finds the submission valid. -/
  valid : ∀ oracle : HiddenOracle, oracle.Knows challenge →
    (oracle.evaluate challenge run.submission.challengeId run.submission.actionTokens).valid = true
  charged : ∀ token ∈ run.submission.actionTokens,
    ∃ e ∈ run.ledger.events, e.kind = .action ∧ e.actionToken = some token
  /-- The run stops for the goal exactly if the last state of the replay reaches it. -/
  goal : run.stopReason = .goalReached ↔ goalIsReached challenge
    (replay challenge.catalog run.submission.actionTokens challenge.initialMapping 0).1 = true

/-! ## Runs that are created -/

omit [Sha256] in
theorem goalIsReached_initialMapping (challenge : PublicChallenge) :
    goalIsReached challenge challenge.initialMapping = false := by
  rw [goalIsReached, decide_eq_false_iff_not]
  exact challenge.goalOpen

theorem submission_create {challengeId : ChallengeId} {chain : List ActionToken} (h : chain.Nodup) :
    CandidateSubmission.create challengeId chain = .ok ⟨challengeId, chain, h⟩ := dif_pos h

theorem systemRun_create {systemId : SystemId} {digest : Sha256Digest} {submission : CandidateSubmission}
    {ledger : BudgetLedger} {anchorRequested : Bool} {stop : StopReason} {x : Option BudgetExhaustion}
    {fingerprints : List Sha256Digest} (hunique : fingerprints.Nodup)
    (hretained : stop = .budgetExhausted ↔ x.isSome = true) :
    SystemRun.create systemId digest submission ledger anchorRequested stop x fingerprints =
      .ok ⟨systemId, digest, submission, ledger, anchorRequested, stop, x, fingerprints, hunique, hretained⟩ := by
  rw [SystemRun.create, dif_pos hunique, dif_pos hretained]

/-! ## Runs that play a chain -/

variable {challenge : PublicChallenge} {budget : BudgetLimits} {ledger : BudgetLedger} {entries : List Entry}

/-- Whether the execution of an action is among some entries. -/
def IsExecuted (entries : List Entry) (token : ActionToken) : Prop :=
  ∃ entry ∈ entries, entry.operation.kind = .action ∧ entry.action.token = token

omit [Sha256] in
theorem IsExecuted.append {token : ActionToken} (h : IsExecuted entries token) (new : List Entry) :
    IsExecuted (entries ++ new) token := by
  obtain ⟨entry, hentry, hexecuted⟩ := h
  exact ⟨entry, List.mem_append_left _ hentry, hexecuted⟩

/-- An executed action has an event. -/
theorem Books.charged (h : Books challenge budget ledger entries) {token : ActionToken}
    (htoken : IsExecuted entries token) :
    ∃ e ∈ ledger.events, e.kind = .action ∧ e.actionToken = some token := by
  obtain ⟨entry, hentry, hkind, rfl⟩ := htoken
  have hline := List.mem_map_of_mem (f := Entry.line) hentry
  rw [← h.lines] at hline
  obtain ⟨e, he, heq⟩ := List.mem_map.mp hline
  rw [EventContent.line, Entry.line, Prod.mk.injEq, Prod.mk.injEq] at heq
  exact ⟨e, he, heq.1.trans hkind, heq.2.1⟩

/-- A run that submits a chain that it has played and paid agrees with the oracle exactly if the chain is
within the bound. -/
theorem agrees_iff {run : SystemRun} (hbooks : Books challenge budget run.ledger entries)
    (hid : run.submission.challengeId = challenge.challengeId) {state : State}
    (hplayed : play challenge run.submission.actionTokens challenge.initialMapping = some state)
    (hcharged : ∀ token ∈ run.submission.actionTokens, IsExecuted entries token)
    (hgoal : run.stopReason = .goalReached ↔ goalIsReached challenge state = true) :
    Agrees challenge budget run ↔ run.submission.actionTokens.length ≤ challenge.maxChainLength := by
  have hreplay : (replay challenge.catalog run.submission.actionTokens challenge.initialMapping 0).1 = state := by
    rcases replay_eq run.submission.actionTokens challenge.initialMapping 0 with
      ⟨state', hplay, heq⟩ | ⟨hnone, -⟩
    · rw [hplayed] at hplay
      rw [heq, Option.some.inj hplay]
    · rw [hplayed] at hnone
      cases hnone
  constructor
  · -- an oracle that has just this challenge registered
    intro h
    let oracle : HiddenOracle :=
      { registry := ⟨[(challenge.challengeId, ⟨challenge.challengeId, challenge.fingerprint,
          challenge.initialState⟩)], List.nodup_singleton _⟩
        nonempty := List.cons_ne_nil _ _
        keyed := List.forall_mem_singleton.mpr rfl }
    have hknows : oracle.Knows challenge := by
      refine ⟨_, Dict.mem_entries.mp (List.mem_singleton.mpr rfl), rfl⟩
    exact ((valid_evaluate hknows _ _).mp (h.valid oracle hknows)).2.2.1
  · intro hlength
    refine ⟨hbooks.limits, hbooks.limits ▸ run.ledger.within, fun oracle hknows => ?_,
      fun token htoken => hbooks.charged (hcharged token htoken), hreplay ▸ hgoal⟩
    exact (valid_evaluate hknows _ _).mpr ⟨run.submission.unique, hid, hlength, state, hplayed⟩

end StateWeaver.StateChainBench
