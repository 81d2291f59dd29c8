import StateWeaver.StateChainBench.Baseline
import StateWeaver.StateChainBench.Levels
import StateWeaver.Lib.Sha2

/-!
# The solvers and the oracle

The tiered solver bounds its levels by the maximum length of a chain and always agrees with the oracle. The
baseline has no such bound and submits chains that the oracle rejects as too long.
-/

namespace StateWeaver.StateChainBench

open Contracts

/-! ## A challenge with a detour -/

namespace Detour

def key (digit : Char) (h : isTaggedHex "state." 16 (String.ofList ("state.000000000000000".toList ++ [digit])) = true) :
    StateKey := ⟨_, h⟩

def token (digit : Char)
    (h : isTaggedHex "action." 24 (String.ofList ("action.00000000000000000000000".toList ++ [digit])) = true) :
    ActionToken := ⟨_, h⟩

def first : StateKey := key '1' (by decide +kernel)
def second : StateKey := key '2' (by decide +kernel)
def third : StateKey := key '3' (by decide +kernel)
def noise : StateKey := key '4' (by decide +kernel)
def goal : StateKey := key '5' (by decide +kernel)

/-- An action that sets one flag, if it is not set. -/
def setting (token : ActionToken) (flag : StateKey) : PublicAction where
  token := token
  preconditions := ⟨[⟨flag, false⟩], List.cons_ne_nil _ _, List.pairwise_singleton _ _⟩
  effects := ⟨[⟨flag, true⟩], List.cons_ne_nil _ _, List.pairwise_singleton _ _⟩
  costInRange := by decide

/-- The action that reaches the goal when the first three flags are set. -/
def final : PublicAction where
  token := token '5' (by decide +kernel)
  preconditions := ⟨[⟨first, true⟩, ⟨second, true⟩, ⟨third, true⟩], List.cons_ne_nil _ _, by decide +kernel⟩
  effects := ⟨[⟨goal, true⟩], List.cons_ne_nil _ _, List.pairwise_singleton _ _⟩
  costInRange := by decide

def actions : List PublicAction :=
  [setting (token '1' (by decide +kernel)) first, setting (token '2' (by decide +kernel)) second,
    setting (token '3' (by decide +kernel)) third, setting (token '4' (by decide +kernel)) noise, final]

/-- Four actions reach the goal, and the catalog has a fifth before the last. -/
def challenge : PublicChallenge where
  challengeId := ⟨"challenge.000000000000000000000000", by decide +kernel⟩
  initialState := ⟨[⟨first, false⟩, ⟨second, false⟩, ⟨third, false⟩, ⟨noise, false⟩, ⟨goal, false⟩],
    List.cons_ne_nil _ _, by decide +kernel⟩
  goal := ⟨goal, true⟩
  actions := actions
  maxChainLength := 4
  lengthInRange := by decide
  nontrivial := by decide
  tokensUnique := by decide +kernel
  goalDeclared := by decide +kernel
  goalPositive := rfl
  goalOpen := by decide +kernel
  declared := by decide +kernel
  joint := ⟨final, by decide +kernel, by decide +kernel, by decide⟩
  closed := by decide

def budget : BudgetLimits := ⟨100, 100, 1000, by decide⟩

end Detour

/-! ## Both solvers -/

theorem not_passIsBounded_detour : ¬PassIsBounded Detour.challenge Detour.budget := by
  intro h
  refine absurd (h Detour.challenge.actions (List.prefix_refl _) ?_) (by decide +kernel)
  exact fits_eq_true.mp (by decide +kernel)

variable [Sha256] [SearchDigests]

/-- The baseline agrees with the oracle exactly if its pass is bounded, and the tiered solver always agrees.
They raise only for a collision, or if the seed of the solver has more digits than Python writes. -/
theorem solvers_agree_with_oracle (challenge : PublicChallenge) (budget : BudgetLimits) :
    Imp.Ends (fun run => Agrees challenge budget run ↔ PassIsBounded challenge budget)
      (IsCollision challenge budget) (LinearBaseline.solve challenge budget) ∧
    ∀ system : StateWeaverTieredSystem,
      Imp.Ends (fun run => SeedIsWritable system ∧ Agrees challenge budget run)
        (fun e => SeedIsWritable system → IsCollision challenge budget e) (system.solve challenge budget) :=
  ⟨ends_baseline challenge budget, fun system => ends_tiered system challenge budget⟩

omit [Sha256] [SearchDigests] in
/-- The baseline submits all five actions where a chain may have four. -/
theorem not_agrees_detour : let _ := Sha2.sha256
    ¬∃ run, LinearBaseline.solve Detour.challenge Detour.budget = .ok run ∧
      Agrees Detour.challenge Detour.budget run := by
  intro _
  rintro ⟨run, hrun, hagrees⟩
  exact not_passIsBounded_detour (((ends_baseline _ _).returns run hrun).mp hagrees)

end StateWeaver.StateChainBench
