import Mathlib
import StateWeaver.Compiler.Soundness
import StateWeaver.Lib.Alphabet
import StateWeaver.Replay.Plans

/-!
# The replay plan of a chain

`to_replay_plan` makes a step of each envelope, all with the default timeout of ten seconds. The identifiers
of the steps and their sequence numbers are always accepted. An envelope may authorize less than ten
seconds, and two envelopes of a chain may have one idempotency key.
-/

namespace StateWeaver.Compiler

open Contracts Replay

/-- `f"step.{index:02d}"`. -/
def stepId (index : Nat) : String :=
  "step." ++ String.ofList ((Nat.toDigits 10 index).leftpad 2 '0')

/-- `CompiledChain.to_replay_plan`. -/
def CompiledChain.toReplayPlan (chain : CompiledChain) (planId : ContractId) : Except String ReplayPlan := do
  let steps ← chain.actionEnvelopes.zipIdx.mapM fun (envelope, index) =>
    ReplayStep.create (stepId index) envelope [] 10.0
  ReplayPlan.create planId.val chain.rootSeedId.val steps

/-! ## Step identifiers -/

theorem stepId_toList (index : Nat) :
    (stepId index).toList = "step.".toList ++ (Nat.toDigits 10 index).leftpad 2 '0' := by
  rw [stepId, String.toList_append]
  exact congrArg ("step.".toList ++ ·) String.toList_ofList

/-- The padded digits of an index tell the index. -/
theorem stepId_injective : Function.Injective stepId := by
  intro i j h
  have hlist := congrArg String.toList h
  rw [stepId_toList, stepId_toList, List.append_cancel_left_eq] at hlist
  have hvalue := congrArg (fun digits => Nat.ofDigitChars 10 digits 0) hlist
  simp only [List.leftpad, Nat.ofDigitChars_append, Nat.ofDigitChars_replicate_zero, Nat.mul_zero,
    Nat.ofDigitChars_ten_toDigits] at hvalue
  exact hvalue

theorem stepId_notReserved (index : Nat) : stepId index ∉ reservedStepIds := by
  intro hmem
  have hprefix : ∀ s ∈ reservedStepIds, s.toList.take 5 ≠ "step.".toList := by decide
  refine hprefix _ hmem ?_
  rw [stepId_toList]
  exact List.take_left' rfl

theorem isNonEmpty_stepId {n : Nat} (h : n < 10 ^ 251) : isNonEmpty (stepId n) = true := by
  have hdigits := (Nat.length_toDigits_le_iff (k := 251) (by decide) (by decide)).mpr h
  have hlength : (stepId n).toList.length = 5 + max 2 (Nat.toDigits 10 n).length := by
    rw [stepId_toList, List.length_append, List.length_leftpad]
    rfl
  rw [isNonEmpty, hasLength, hlength, Bool.and_eq_true, decide_eq_true_eq, decide_eq_true_eq]
  omega

/-! ## Contract identifiers -/

/-- The characters from `-` to `z`. -/
def idAlphabet : Finset Char := (Finset.Icc 45 122).image Char.ofNat

theorem mem_idAlphabet {c : Char} (h : 45 ≤ c.toNat ∧ c.toNat ≤ 122) : c ∈ idAlphabet :=
  Finset.mem_image.mpr ⟨c.toNat, Finset.mem_Icc.mpr h, Char.ofNat_toNat c⟩

theorem foldl_failed (l : List Char) : l.foldl ContractIdPhase.next .failed = .failed := by
  induction l with
  | nil => rfl
  | cons c l ih => exact ih

theorem mem_idAlphabet_of_isLowerAlnum {c : Char} (h : isLowerAlnum c = true) : c ∈ idAlphabet := by
  rw [isLowerAlnum, Bool.or_eq_true] at h
  refine mem_idAlphabet ?_
  rcases h with hlower | hdigit
  · simp only [Char.isLower, Bool.and_eq_true, decide_eq_true_eq, ge_iff_le, UInt32.le_iff_toNat_le] at hlower
    exact ⟨le_trans (by decide) hlower.1, hlower.2⟩
  · simp only [Char.isDigit, Bool.and_eq_true, decide_eq_true_eq, ge_iff_le, UInt32.le_iff_toNat_le] at hdigit
    exact ⟨le_trans (by decide) hdigit.1, le_trans hdigit.2 (by decide)⟩

/-- A character that another phase follows is one of identifiers. -/
theorem mem_idAlphabet_of_next {p : ContractIdPhase} {c : Char} (h : p.next c ≠ .failed) :
    c ∈ idAlphabet := by
  by_cases halnum : isLowerAlnum c = true
  · exact mem_idAlphabet_of_isLowerAlnum halnum
  · have hlower : ¬c.isLower = true := fun hlower => halnum (by rw [isLowerAlnum, hlower, Bool.true_or])
    by_cases hmark : c ∈ ['.', '_', ':', '-']
    · have hall : ∀ c ∈ ['.', '_', ':', '-'], 45 ≤ c.toNat ∧ c.toNat ≤ 122 := by simp
      exact mem_idAlphabet (hall c hmark)
    · refine absurd ?_ h
      simp only [List.mem_cons, List.not_mem_nil, or_false, not_or] at hmark
      cases p <;> simp [ContractIdPhase.next, halnum, hlower, hmark]

theorem foldl_next_letters {l : List Char} {phase : ContractIdPhase}
    (h : l.foldl ContractIdPhase.next phase = .body) : ∀ c ∈ l, c ∈ idAlphabet := by
  induction l generalizing phase with
  | nil => exact List.forall_mem_nil _
  | cons c l ih =>
      rw [List.foldl_cons] at h
      refine List.forall_mem_cons.mpr ⟨mem_idAlphabet_of_next (p := phase) fun hfailed => ?_, ih h⟩
      rw [hfailed, foldl_failed] at h
      cases h

/-- There are fewer distinct contract identifiers than step identifiers. -/
theorem length_lt_of_nodup {ids : List ContractId} (h : ids.Nodup) : ids.length < 10 ^ 251 := by
  have hids : ∀ id : ContractId, id.val.toList.length ≤ 128 ∧ ∀ c ∈ id.val.toList, c ∈ idAlphabet := by
    intro id
    have hpattern := id.matchesPattern
    simp only [isContractId, hasLength, Bool.and_eq_true, decide_eq_true_eq, beq_iff_eq] at hpattern
    exact ⟨hpattern.1.2, foldl_next_letters hpattern.2⟩
  have htexts : (ids.map fun id => id.val.toList).Nodup :=
    h.map fun a b hab => Constrained.val_injective (String.toList_injective hab)
  have hle := Alphabet.length_le htexts
    (List.forall_mem_map.mpr fun id _ => (hids id).1) (List.forall_mem_map.mpr fun id _ => (hids id).2)
  rw [List.length_map] at hle
  have hcard : idAlphabet.card ≤ 78 := Finset.card_image_le
  calc ids.length ≤ (idAlphabet.card + 1) ^ 128 := hle
    _ ≤ 79 ^ 128 := Nat.pow_le_pow_left (Nat.add_le_add_right hcard 1) 128
    _ < 10 ^ 251 := by decide +kernel

theorem isNonEmpty_contractId (id : ContractId) : isNonEmpty id.val = true := by
  have hpattern := id.matchesPattern
  simp only [isContractId, hasLength, Bool.and_eq_true, decide_eq_true_eq] at hpattern
  rw [isNonEmpty, hasLength, Bool.and_eq_true, decide_eq_true_eq, decide_eq_true_eq]
  exact ⟨le_trans (by decide) hpattern.1.1, le_trans hpattern.1.2 (by decide)⟩

/-! ## Plans of chains -/

/-- The plan has one step for each fragment, in the order of the chain, with its envelope. -/
structure Replays (chain : CompiledChain) (planId : ContractId) : Prop where
  plan : ∃ plan, chain.toReplayPlan planId = .ok plan ∧
    plan.steps.length = chain.fragmentIds.length ∧
    plan.steps.map ReplayStep.action = chain.actionEnvelopes

/-- The envelopes of the fragments authorize ten seconds, and have distinct idempotency keys. -/
structure Replayable (ordered : List CompilerFragment) : Prop where
  timeouts : ∀ f ∈ ordered, 10000 ≤ f.envelope.timeoutMs
  keys : (ordered.map fun f => f.envelope.idempotencyKey).Nodup

section

variable {envelopes : List ActionEnvelope}

/-- The steps of envelopes, if they are made. -/
theorem steps_of_mapM {start : Nat} {steps : List ReplayStep}
    (h : (envelopes.zipIdx start).mapM (fun (envelope, index) =>
      ReplayStep.create (stepId index) envelope [] 10.0) = .ok steps) :
    steps.map ReplayStep.action = envelopes ∧ ∀ e ∈ envelopes, 10000 ≤ e.timeoutMs := by
  induction envelopes generalizing start steps with
  | nil =>
      cases h
      exact ⟨rfl, List.forall_mem_nil _⟩
  | cons e envelopes ih =>
      rw [List.zipIdx_cons, List.mapM_cons] at h
      obtain ⟨step, hstep, h⟩ := Imp.except_bind_eq_ok.mp h
      obtain ⟨rest, hrest, h⟩ := Imp.except_bind_eq_ok.mp h
      cases h
      obtain ⟨-, haction, hexceeds⟩ := ReplayStep.create_eq_ok hstep
      obtain ⟨hactions, htimeouts⟩ := ih hrest
      rw [← Bool.not_eq_true, exceeds_default, not_lt] at hexceeds
      rw [List.map_cons, haction, hactions]
      exact ⟨rfl, List.forall_mem_cons.mpr ⟨hexceeds, htimeouts⟩⟩

/-- Envelopes that authorize ten seconds have steps, numbered in order. -/
theorem exists_mapM (start : Nat) (htimeouts : ∀ e ∈ envelopes, 10000 ≤ e.timeoutMs)
    (hstart : start + envelopes.length ≤ 10 ^ 251) :
    ∃ steps, (envelopes.zipIdx start).mapM (fun (envelope, index) =>
        ReplayStep.create (stepId index) envelope [] 10.0) = .ok steps ∧
      steps.map ReplayStep.action = envelopes ∧
      (steps.map fun step => step.stepId.val) = (List.range' start envelopes.length).map stepId := by
  induction envelopes generalizing start with
  | nil => exact ⟨[], rfl, rfl, rfl⟩
  | cons e envelopes ih =>
      rw [List.forall_mem_cons] at htimeouts
      rw [List.length_cons] at hstart
      obtain ⟨steps, hsteps, hactions, hids⟩ := ih (start + 1) htimeouts.2 (by omega)
      obtain ⟨step, hstep⟩ := ReplayStep.exists_create
        (isNonEmpty_stepId (n := start) (by omega)) htimeouts.1
      obtain ⟨hid, haction, -⟩ := ReplayStep.create_eq_ok hstep
      refine ⟨step :: steps, ?_, ?_, ?_⟩
      · rw [List.zipIdx_cons, List.mapM_cons]
        exact Imp.except_bind_eq_ok.mpr ⟨step, hstep, Imp.except_bind_eq_ok.mpr ⟨steps, hsteps, rfl⟩⟩
      · rw [List.map_cons, haction, hactions]
      · rw [List.map_cons, hid, hids, List.length_cons, List.range'_succ, List.map_cons]

/-- The plan of a chain is made exactly if its envelopes authorize ten seconds and their keys differ. -/
theorem CompiledChain.replays_iff_ready {chain : CompiledChain} {planId : ContractId}
    (hnonempty : chain.actionEnvelopes ≠ []) (hlength : chain.actionEnvelopes.length < 10 ^ 251)
    (haligned : chain.fragmentIds.length = chain.actionEnvelopes.length)
    (hsequences : chain.actionEnvelopes.map ActionEnvelope.sequence =
      List.range chain.actionEnvelopes.length) :
    Replays chain planId ↔ (∀ e ∈ chain.actionEnvelopes, 10000 ≤ e.timeoutMs) ∧
      (chain.actionEnvelopes.map ActionEnvelope.idempotencyKey).Nodup := by
  have hmap : ∀ steps : List ReplayStep, ∀ {α : Type} (g : ActionEnvelope → α),
      (steps.map fun step => g step.action) = (steps.map ReplayStep.action).map g := by
    intro steps α g
    rw [List.map_map]
    rfl
  constructor
  · rintro ⟨plan, hplan, -, -⟩
    obtain ⟨steps, hsteps, hplan⟩ := Imp.except_bind_eq_ok.mp hplan
    obtain ⟨hactions, htimeouts⟩ := steps_of_mapM hsteps
    have hkeys := (ReplayPlan.create_eq_ok hplan).2.keysUnique
    rw [hmap steps ActionEnvelope.idempotencyKey, hactions] at hkeys
    exact ⟨htimeouts, hkeys⟩
  · rintro ⟨htimeouts, hkeys⟩
    obtain ⟨steps, hsteps, hactions, hids⟩ := exists_mapM 0 htimeouts (by omega)
    have hstepSequences : (steps.map fun step => step.action.sequence) =
        List.range chain.actionEnvelopes.length := by
      rw [hmap steps ActionEnvelope.sequence, hactions, hsequences]
    have hcoherent : Coherent steps := by
      refine ⟨fun hnil => hnonempty ?_, fun step hstep => ?_, ?_, ?_, ?_⟩
      · rw [← hactions, hnil, List.map_nil]
      · have hid : step.stepId.val ∈ steps.map fun step => step.stepId.val := List.mem_map_of_mem hstep
        rw [hids] at hid
        obtain ⟨index, -, hindex⟩ := List.mem_map.mp hid
        exact hindex ▸ stepId_notReserved index
      · rw [hids]
        exact List.Nodup.map stepId_injective List.nodup_range'
      · rw [hmap steps ActionEnvelope.idempotencyKey, hactions]
        exact hkeys
      · rw [hstepSequences]
        exact ⟨(List.pairwise_le_range.insertionSort_eq).symm, List.nodup_range⟩
    obtain ⟨plan, hplan, hplanSteps⟩ := ReplayPlan.exists_create (isNonEmpty_contractId planId)
      (isNonEmpty_contractId chain.rootSeedId) hcoherent
    refine ⟨plan, Imp.except_bind_eq_ok.mpr ⟨steps, hsteps, hplan⟩, ?_, ?_⟩
    · rw [hplanSteps, haligned, ← hactions, List.length_map]
    · rw [hplanSteps, hactions]

end

theorem map_mapIdx {α β γ : Type} {f : ℕ → α → β} {g : β → γ} {k : α → γ} (h : ∀ i a, g (f i a) = k a)
    (l : List α) : (l.mapIdx f).map g = l.map k :=
  List.ext_getElem (by simp) fun i _ _ => by simp [h]

section Compile

variable [ModelDigest] [SetOrder] {chainId : String} {root : RootState} {fragments : List CompilerFragment}
  {goal : TerminalGoal} {chain : CompiledChain}

/-- A chain that is returned has a plan with one step for each fragment exactly if the envelopes of its
fragments authorize ten seconds and have distinct idempotency keys. -/
theorem replays_iff (h : compile chainId root fragments goal = .ok chain) (planId : ContractId) :
    ∃ ordered, Realizes root fragments goal chain ordered ∧
      (Replays chain planId ↔ Replayable ordered) := by
  obtain ⟨nodes, initial, before, selected, after, simulation, hadmitted, hsets, -, hattempt, hchain⟩ :=
    compile_eq_ok h
  have hselected : selected ∈ candidateSets (relevantNodes nodes goal) :=
    hsets ▸ List.mem_append_right _ List.mem_cons_self
  have hrealizes := realizes_of_attempt hadmitted hselected hattempt hchain
  have hnonempty : simulation.ordered ≠ [] := fun hnil => (mem_candidateSets.mp hselected).2
    (List.nil_perm.mp (hnil ▸ (plan_of_attempt hattempt).1))
  have hlength : chain.actionEnvelopes.length = simulation.ordered.length := by
    rw [hrealizes.envelopes, List.length_mapIdx]
  have hids : chain.fragmentIds.length = simulation.ordered.length := by
    rw [hrealizes.fragmentIds, List.length_map]
  have hbound : simulation.ordered.length < 10 ^ 251 := by
    rw [← List.length_map (f := CompilerFragment.fragmentId)]
    exact length_lt_of_nodup hrealizes.once
  have htimeouts := map_mapIdx (k := fun f : CompilerFragment => f.envelope.timeoutMs)
    (f := fun index f => { f.envelope with sequence := index }) (g := ActionEnvelope.timeoutMs)
    (fun _ _ => rfl) simulation.ordered
  have hkeys := map_mapIdx (k := fun f : CompilerFragment => f.envelope.idempotencyKey)
    (f := fun index f => { f.envelope with sequence := index }) (g := ActionEnvelope.idempotencyKey)
    (fun _ _ => rfl) simulation.ordered
  rw [← hrealizes.envelopes] at htimeouts hkeys
  have hall : (∀ e ∈ chain.actionEnvelopes, 10000 ≤ e.timeoutMs) ↔
      ∀ f ∈ simulation.ordered, 10000 ≤ f.envelope.timeoutMs := by
    have hmem : ∀ n, n ∈ chain.actionEnvelopes.map ActionEnvelope.timeoutMs ↔ _ := fun n => by rw [htimeouts]
    simp only [List.mem_map] at hmem
    constructor
    · intro hlarge f hf
      obtain ⟨e, he, heq⟩ := (hmem f.envelope.timeoutMs).mpr ⟨f, hf, rfl⟩
      exact heq ▸ hlarge e he
    · intro hlarge e he
      obtain ⟨f, hf, heq⟩ := (hmem e.timeoutMs).mp ⟨e, he, rfl⟩
      exact heq ▸ hlarge f hf
  refine ⟨simulation.ordered, hrealizes, (CompiledChain.replays_iff_ready ?_ (hlength ▸ hbound)
    (hids.trans hlength.symm) ?_).trans ?_⟩
  · rw [← List.length_pos_iff, hlength, List.length_pos_iff]
    exact hnonempty
  · rw [hlength, hrealizes.envelopes]
    exact List.ext_getElem (by simp) fun i _ _ => by simp
  · rw [hall, hkeys]
    exact ⟨fun h => ⟨h.1, h.2⟩, fun h => ⟨h.timeouts, h.keys⟩⟩

end Compile

end StateWeaver.Compiler

namespace StateWeaver.Compiler.Demo

open Contracts Replay

attribute [local instance] modelDigest setOrder

def alone : List CompilerFragment := [fragment idA (isTrue started) (setTrue finished) []]

/-- A fragment whose envelope authorizes five seconds. -/
def quick : List CompilerFragment :=
  [{ fragment idA (isTrue started) (setTrue finished) [] with
      envelope := { envelope with timeoutMs := 5000, timeoutPositive := by decide }
      envelopeWorld := rfl
      envelopeAction := rfl }]

/-- The chain of the quick fragment. -/
def quickChain : CompiledChain :=
  { chainOf (rootOf [isTrue started]) (goalOf (isTrue finished) []) quick with
    actionEnvelopes := quick.map CompilerFragment.envelope }

/-- The chain of one fragment has a plan. -/
theorem replays_alone :
    Replays (chainOf (rootOf [isTrue started]) (goalOf (isTrue finished) []) alone)
      ⟨"plan.demo", by decide +kernel⟩ := by
  have hcompile : compile "chain.demo" (rootOf [isTrue started]) alone (goalOf (isTrue finished) []) =
      .ok (chainOf (rootOf [isTrue started]) (goalOf (isTrue finished) []) alone) := by
    decide +kernel
  obtain ⟨ordered, hrealizes, hiff⟩ := replays_iff hcompile ⟨"plan.demo", by decide +kernel⟩
  refine hiff.mpr ?_
  obtain ⟨f, rfl, -⟩ := List.map_eq_singleton_iff.mp hrealizes.fragmentIds.symm
  refine ⟨fun g hg => ?_, List.nodup_singleton _⟩
  obtain rfl := List.mem_singleton.mp (hrealizes.fromInput hg)
  decide

/-- Two fragments with one idempotency key make a chain without a plan, and so does one with a short
timeout. -/
theorem not_replays :
    (compile "chain.demo" (rootOf [isTrue started]) inTurn (goalOf (isTrue finished) []) =
        .ok (chainOf (rootOf [isTrue started]) (goalOf (isTrue finished) []) inTurn.reverse) ∧
      ∀ planId, ¬Replays (chainOf (rootOf [isTrue started]) (goalOf (isTrue finished) []) inTurn.reverse)
        planId) ∧
      compile "chain.demo" (rootOf [isTrue started]) quick (goalOf (isTrue finished) []) = .ok quickChain ∧
        ∀ planId, ¬Replays quickChain planId := by
  refine ⟨⟨by decide +kernel, fun planId h => ?_⟩, by decide +kernel, fun planId h => ?_⟩
  · have hready := (CompiledChain.replays_iff_ready (by decide) (by decide) rfl rfl).mp h
    exact absurd hready.2 (by decide)
  · have hready := (CompiledChain.replays_iff_ready (by decide) (by decide) rfl rfl).mp h
    exact absurd hready.1 (by decide)

end StateWeaver.Compiler.Demo
