import StateWeaver.Lab.CheckpointStore
import StateWeaver.Lib.Sha2

/-!
# No update is lost

Whatever the clients do and in whatever order, the active generation names a staged shard that decodes
to a checkpoint of that name, a compare-and-swap succeeds only from the generation that it expects, a
call that raises leaves the active generation as it is, and a poisoned store refuses everything
(`store_spec`).
-/

namespace StateWeaver.Lab

open Py (Text)

namespace LabStateStore

variable {s s' : LabStateStore} {e : Exc}

/-! ## Health -/

/-- The answer of a poisoned store. -/
def refusal : Exc := .poisoned "checkpoint store is poisoned"

theorem requireHealthy_bind_eq_ok {α : Type} {f : Unit → StoreM α} {a : α} :
    (requireHealthy >>= f) s = .ok a s' ↔ s.poisoned = false ∧ f () s = .ok a s' := by
  rw [requireHealthy, bind_assoc, Imp.get_bind, Imp.lift_check_bind_eq_ok, Imp.require_eq_ok]

theorem requireHealthy_bind_eq_error {α : Type} {f : Unit → StoreM α} :
    (requireHealthy >>= f) s = .error e s' ↔
      s.poisoned = true ∧ e = refusal ∧ s' = s ∨ s.poisoned = false ∧ f () s = .error e s' := by
  rw [requireHealthy, bind_assoc, Imp.get_bind, Imp.lift_bind_eq_error, Imp.require_eq_error,
    Bool.not_eq_false, and_assoc]
  refine or_congr Iff.rfl ⟨?_, ?_⟩
  · rintro ⟨_, hhealthy, h⟩
    exact ⟨Imp.require_eq_ok.mp hhealthy, h⟩
  · rintro ⟨hhealthy, h⟩
    exact ⟨(), Imp.require_eq_ok.mpr hhealthy, h⟩

theorem poisonUnless_eq_ok {c : Bool} {message : String} {u : Unit} :
    poisonUnless c message s = .ok u s' ↔ c = true ∧ s' = s := by
  rw [poisonUnless]
  cases c with
  | true => simp
  | false => simp

theorem poisonUnless_eq_error {c : Bool} {message : String} :
    poisonUnless c message s = .error e s' ↔
      c = false ∧ e = .poisoned message ∧ s' = { s with poisoned := true } := by
  rw [poisonUnless]
  cases c with
  | true => simp
  | false => simp

/-- How a call that does not change the store, except that it may poison it, leaves it. -/
def Unchanged (e : Exc) (s s' : LabStateStore) : Prop :=
  s' = s ∧ (s.poisoned = true → e = refusal) ∨ s.poisoned = false ∧ s' = { s with poisoned := true }

theorem unchanged_of_refusal : Unchanged refusal s s := Or.inl ⟨rfl, fun _ => rfl⟩

theorem unchanged_of_healthy (h : s.poisoned = false) : Unchanged e s s :=
  Or.inl ⟨rfl, fun htrue => by rw [h] at htrue; cases htrue⟩

theorem Unchanged.active (h : Unchanged e s s') : s'.activeGeneration = s.activeGeneration := by
  rcases h with ⟨rfl, -⟩ | ⟨-, rfl⟩ <;> rfl

theorem Unchanged.refused (h : Unchanged e s s') (hpoisoned : s.poisoned = true) :
    e = refusal ∧ s' = s := by
  rcases h with ⟨rfl, he⟩ | ⟨hhealthy, -⟩
  · exact ⟨he hpoisoned, rfl⟩
  · rw [hpoisoned] at hhealthy
    cases hhealthy

/-- Fields that are the same have the same name and digest. -/
theorem sameFields_eq_true {restored c : CheckpointFields} (h : sameFields restored c = true) :
    restored.generation = c.generation ∧ restored.checkpointDigest = c.checkpointDigest := by
  simp only [sameFields, Bool.and_eq_true, decide_eq_true_eq] at h
  exact ⟨h.1.1.1.1, h.2⟩

end LabStateStore

section

variable [Sha256]

namespace LabStateStore

/-- Whether the shard that is staged under a name decodes to a checkpoint of that name. -/
def Seals (stored : StoredGeneration) (generation : Text) : Prop :=
  ∃ checkpoint, fromCanonicalBytes stored.bytes = .ok checkpoint ∧
    checkpoint.generation = generation ∧ checkpoint.checkpointDigest = stored.digest

/-- What holds of the store between calls. -/
structure Valid (s : LabStateStore) : Prop where
  staged {generation stored} : s.staged.get? generation = some stored → Seals stored generation
  active {generation} : s.activeGeneration = some generation →
    ∃ stored, s.staged.get? generation = some stored

variable {s s' : LabStateStore} {e : Exc}

theorem valid_empty : Valid empty := ⟨nofun, nofun⟩

/-! ## Staging -/

/-- What a call of `stage` that returns has checked and written. -/
theorem stage_eq_ok {c : CheckpointFields} (h : stage c s = .ok () s') :
    s.poisoned = false ∧ ∃ raw restored, fromCanonicalBytes raw = .ok restored ∧
      sameFields restored.toCheckpointFields c = true ∧
        s' = { s with staged := s.staged.insert c.generation ⟨raw, c.checkpointDigest⟩ } := by
  obtain ⟨hhealthy, hencode⟩ := requireHealthy_bind_eq_ok.mp h
  obtain ⟨raw, -, hdecode⟩ := Imp.lift_bind_eq_ok.mp hencode
  obtain ⟨restored, hrestored, hcompare⟩ := Imp.lift_bind_eq_ok.mp hdecode
  obtain ⟨_, s₁, hsame, hget⟩ := Imp.bind_eq_ok.mp hcompare
  obtain ⟨hsame, hs₁⟩ := poisonUnless_eq_ok.mp hsame
  rw [Imp.get_bind] at hget
  obtain ⟨_, s₂, hnew, hwrite⟩ := Imp.bind_eq_ok.mp hget
  have hs₂ := (poisonUnless_eq_ok.mp hnew).2
  rw [Imp.modify_eq_ok, hs₂, hs₁] at hwrite
  exact ⟨hhealthy, raw, restored, hrestored, hsame, hwrite⟩

/-- A call of `stage` that raises writes nothing, except that it may poison the store. -/
theorem stage_eq_error {c : CheckpointFields} (h : stage c s = .error e s') : Unchanged e s s' := by
  rcases requireHealthy_bind_eq_error.mp h with ⟨-, rfl, rfl⟩ | ⟨hhealthy, hencode⟩
  · exact unchanged_of_refusal
  rcases Imp.lift_bind_eq_error.mp hencode with ⟨-, rfl⟩ | ⟨raw, -, hdecode⟩
  · exact unchanged_of_healthy hhealthy
  rcases Imp.lift_bind_eq_error.mp hdecode with ⟨-, rfl⟩ | ⟨restored, -, hcompare⟩
  · exact unchanged_of_healthy hhealthy
  rcases Imp.bind_eq_error.mp hcompare with hpoison | ⟨_, s₁, hsame, hget⟩
  · exact Or.inr ⟨hhealthy, (poisonUnless_eq_error.mp hpoison).2.2⟩
  rw [(poisonUnless_eq_ok.mp hsame).2, Imp.get_bind] at hget
  rcases Imp.bind_eq_error.mp hget with hpoison | ⟨_, s₂, -, hwrite⟩
  · exact Or.inr ⟨hhealthy, (poisonUnless_eq_error.mp hpoison).2.2⟩
  · exact absurd hwrite Imp.modify_ne_error

theorem Valid.stage {c : CheckpointFields} (hs : Valid s) (h : stage c s = .ok () s') : Valid s' := by
  obtain ⟨-, raw, restored, hrestored, hsame, rfl⟩ := stage_eq_ok h
  obtain ⟨hgeneration, hdigest⟩ := sameFields_eq_true hsame
  constructor
  · intro generation stored hget
    rw [Dict.get?_insert] at hget
    split at hget
    · next heq =>
        cases hget
        exact ⟨restored, hrestored, heq ▸ hgeneration, hdigest⟩
    · exact hs.staged hget
  · intro generation hactive
    rw [Dict.get?_insert]
    split
    · exact ⟨_, rfl⟩
    · exact hs.active hactive

/-! ## Loading -/

/-- Loading a store that is valid and healthy and has an active generation gives the checkpoint of that
generation. -/
theorem loadActive_of_active {generation : Text} (hs : Valid s) (hhealthy : s.poisoned = false)
    (hactive : s.activeGeneration = some generation) :
    ∃ checkpoint, loadActive s = .ok checkpoint s ∧ checkpoint.generation = generation := by
  obtain ⟨stored, hstored⟩ := hs.active hactive
  obtain ⟨checkpoint, hdecode, hgeneration, hdigest⟩ := hs.staged hstored
  refine ⟨checkpoint, ?_, hgeneration⟩
  rw [loadActive, requireHealthy_bind_eq_ok, Imp.get_bind, hactive]
  refine ⟨hhealthy, Imp.bind_eq_ok.mpr ⟨stored, s, ?_, Imp.bind_eq_ok.mpr ⟨checkpoint, s, ?_,
    Imp.bind_eq_ok.mpr ⟨(), s, ?_, Imp.pure_eq_ok.mpr ⟨rfl, rfl⟩⟩⟩⟩⟩
  · rw [activeShard, Imp.get_bind, hstored]
    exact Imp.pure_eq_ok.mpr ⟨rfl, rfl⟩
  · exact Imp.onError_eq_ok.mpr (Or.inl (Imp.lift_eq_ok.mpr ⟨hdecode, rfl⟩))
  · exact poisonUnless_eq_ok.mpr ⟨by simp [hgeneration, hdigest], rfl⟩

/-- Loading changes nothing, and a poisoned store refuses it. -/
theorem loadActive_ends (hs : Valid s) :
    (∃ checkpoint generation, s.poisoned = false ∧ s.activeGeneration = some generation ∧
      loadActive s = .ok checkpoint s ∧ checkpoint.generation = generation) ∨
    ∃ e, loadActive s = .error e s ∧ (s.poisoned = true → e = refusal) := by
  cases hhealthy : s.poisoned with
  | true =>
      refine Or.inr ⟨refusal, ?_, fun _ => rfl⟩
      rw [loadActive, requireHealthy_bind_eq_error]
      exact Or.inl ⟨hhealthy, rfl, rfl⟩
  | false =>
      cases hactive : s.activeGeneration with
      | none =>
          refine Or.inr ⟨.checkpoint "active generation is absent", ?_, nofun⟩
          rw [loadActive, requireHealthy_bind_eq_error, Imp.get_bind, hactive]
          exact Or.inr ⟨hhealthy, Imp.throw_eq_error.mpr ⟨rfl, rfl⟩⟩
      | some generation =>
          obtain ⟨checkpoint, hload, hgeneration⟩ := loadActive_of_active hs hhealthy hactive
          exact Or.inl ⟨checkpoint, generation, rfl, rfl, hload, hgeneration⟩

/-! ## Swapping -/

/-- A compare-and-swap that succeeds makes a staged generation active, from the one that it expects. -/
theorem compareAndSwap_eq_ok {expected : Option Text} {next : Text} {c : LabStateCheckpoint}
    (hs : Valid s) (h : compareAndSwap expected next s = .ok c s') :
    s.poisoned = false ∧ s.activeGeneration = expected ∧ c.generation = next ∧
      s' = { s with activeGeneration := some next } ∧ Valid s' := by
  obtain ⟨hhealthy, hname⟩ := requireHealthy_bind_eq_ok.mp h
  obtain ⟨-, hcompare⟩ := Imp.lift_check_bind_eq_ok.mp hname
  rw [Imp.get_bind] at hcompare
  obtain ⟨hexpected, hstaged⟩ := Imp.lift_check_bind_eq_ok.mp hcompare
  obtain ⟨_, s₁, hpoison, hswap⟩ := Imp.bind_eq_ok.mp hstaged
  obtain ⟨hcontains, rfl⟩ := poisonUnless_eq_ok.mp hpoison
  obtain ⟨stored, hstored⟩ := Dict.contains_eq_true.mp hcontains
  have hvalid : Valid { s₁ with activeGeneration := some next } :=
    ⟨hs.staged, fun hactive => ⟨stored, Option.some.inj hactive ▸ hstored⟩⟩
  rw [Imp.modify_bind] at hswap
  obtain ⟨checkpoint, hload, hgeneration⟩ := loadActive_of_active hvalid hhealthy rfl
  rw [hload] at hswap
  cases hswap
  exact ⟨hhealthy, Imp.require_eq_ok.mp hexpected, hgeneration, rfl, hvalid⟩

/-- A compare-and-swap that raises changes at most the health of the store. -/
theorem compareAndSwap_eq_error {expected : Option Text} {next : Text} (hs : Valid s)
    (h : compareAndSwap expected next s = .error e s') : Unchanged e s s' := by
  rcases requireHealthy_bind_eq_error.mp h with ⟨-, rfl, rfl⟩ | ⟨hhealthy, hname⟩
  · exact unchanged_of_refusal
  rcases Imp.lift_bind_eq_error.mp hname with ⟨-, rfl⟩ | ⟨_, -, hexpected⟩
  · exact unchanged_of_healthy hhealthy
  rw [Imp.get_bind] at hexpected
  rcases Imp.lift_bind_eq_error.mp hexpected with ⟨-, rfl⟩ | ⟨_, -, hstaged⟩
  · exact unchanged_of_healthy hhealthy
  rcases Imp.bind_eq_error.mp hstaged with hpoison | ⟨_, s₁, hpoison, hswap⟩
  · exact Or.inr ⟨hhealthy, (poisonUnless_eq_error.mp hpoison).2.2⟩
  obtain ⟨hcontains, rfl⟩ := poisonUnless_eq_ok.mp hpoison
  obtain ⟨stored, hstored⟩ := Dict.contains_eq_true.mp hcontains
  have hvalid : Valid { s₁ with activeGeneration := some next } :=
    ⟨hs.staged, fun hactive => ⟨stored, Option.some.inj hactive ▸ hstored⟩⟩
  -- The shard decodes, so loading it does not raise.
  obtain ⟨checkpoint, hload, -⟩ := loadActive_of_active hvalid hhealthy rfl
  rw [Imp.modify_bind, hload] at hswap
  cases hswap

theorem Unchanged.valid (h : Unchanged e s s') (hs : Valid s) : Valid s' := by
  rcases h with ⟨rfl, -⟩ | ⟨-, rfl⟩
  · exact hs
  · exact ⟨hs.staged, hs.active⟩

end LabStateStore

/-! ## Runs -/

namespace System

open LabStateStore

variable {Client : Type} {s s' : System Client} {client : Client} {call : Call} {result : Result}

/-- The compare-and-swap that a client makes with a call: its own one, or that of its commit. -/
def swap? (s : System Client) (client : Client) : Call → Option (Option Text × Text)
  | .compareAndSwap expectedGeneration nextGeneration => some (expectedGeneration, nextGeneration)
  | .resume => s.commits client
  | _ => none

/-- What a step does to a valid store. -/
structure StepEffect (s s' : System Client) (client : Client) (call : Call) (result : Result) : Prop where
  valid : Valid s'.store
  /-- A call that raises leaves the active generation as it is. -/
  raised (e : Exc) : result = .error e → s'.store.activeGeneration = s.store.activeGeneration
  /-- A compare-and-swap that returns goes from the generation it expects to the one it names. -/
  swapped (expected : Option Text) (next : Text) (checkpoint : Option LabStateCheckpoint) :
    s.swap? client call = some (expected, next) → result = .ok checkpoint →
      s.store.activeGeneration = expected ∧ s'.store.activeGeneration = some next
  /-- No other call changes the active generation. -/
  other : s.swap? client call = none → s'.store.activeGeneration = s.store.activeGeneration
  /-- A poisoned store refuses the call and stays as it is. -/
  refused : s.store.poisoned = true → (∃ e, result = .error e) ∧ s'.store = s.store

/-- A call that does not get to the store. -/
theorem StepEffect.of_error {e : Exc} (hs : Valid s.store) (h : s'.store = s.store) :
    StepEffect s s' client call (.error e) :=
  ⟨h ▸ hs, fun _ _ => by rw [h], nofun, fun _ => by rw [h], fun _ => ⟨⟨e, rfl⟩, h⟩⟩

/-- A method that raised. -/
theorem StepEffect.of_unchanged {e : Exc} (hs : Valid s.store) (h : Unchanged e s.store s'.store) :
    StepEffect s s' client call (.error e) :=
  ⟨h.valid hs, fun _ _ => h.active, nofun, fun _ => h.active,
    fun hpoisoned => ⟨⟨e, rfl⟩, (h.refused hpoisoned).2⟩⟩

/-- A compare-and-swap, of a client or at the end of its commit. -/
theorem StepEffect.of_compareAndSwap {expected : Option Text} {next : Text} {commits}
    (hs : Valid s.store) (hswap : s.swap? client call = some (expected, next)) :
    StepEffect s ⟨(ending some (compareAndSwap expected next s.store)).2, commits⟩ client call
      (ending some (compareAndSwap expected next s.store)).1 := by
  cases hrun : compareAndSwap expected next s.store with
  | ok checkpoint store =>
      obtain ⟨hhealthy, hexpected, -, rfl, hvalid⟩ := compareAndSwap_eq_ok hs hrun
      refine ⟨hvalid, nofun, fun expected' next' c hswap' _ => ?_, fun hnone => ?_, fun hpoisoned => ?_⟩
      · rw [hswap] at hswap'
        cases hswap'
        exact ⟨hexpected, rfl⟩
      · rw [hswap] at hnone
        cases hnone
      · rw [hhealthy] at hpoisoned
        cases hpoisoned
  | error e store => exact .of_unchanged hs (compareAndSwap_eq_error hs hrun)

theorem StepEffect.of_stage {checkpoint : CheckpointFields} (hs : Valid s.store)
    (hswap : s.swap? client call = none) :
    ∀ {commits : Client → Option (Option Text × Text)} {store : LabStateStore},
      stage checkpoint s.store = .ok () store →
        StepEffect s ⟨store, commits⟩ client call (.ok none) := by
  intro commits store hrun
  have hhealthy := (stage_eq_ok hrun).1
  have hactive : store.activeGeneration = s.store.activeGeneration := by
    obtain ⟨-, raw, restored, -, -, rfl⟩ := stage_eq_ok hrun
    rfl
  refine ⟨hs.stage hrun, nofun, fun _ _ _ hswap' _ => ?_, fun _ => hactive, fun hpoisoned => ?_⟩
  · rw [hswap] at hswap'
    cases hswap'
  · rw [hhealthy] at hpoisoned
    cases hpoisoned

theorem valid_of_create {initial : Option CheckpointFields} (h : create initial = .ok s) :
    Valid s.store := by
  unfold create at h
  split at h
  · cases h
    exact valid_empty
  · split at h
    · next hrun =>
        cases h
        obtain ⟨_, s₁, hstage, hswap⟩ := Imp.bind_eq_ok.mp hrun
        exact (compareAndSwap_eq_ok (valid_empty.stage hstage) hswap).2.2.2.2
    · cases h

variable [DecidableEq Client]

/-- What every step does. -/
theorem step_effect (hs : Valid s.store) (h : s.step (client, call) = some (result, s')) :
    StepEffect s s' client call result := by
  cases hcommit : s.commits client with
  | some pending =>
      obtain ⟨expected, next⟩ := pending
      cases call with
      | resume =>
          simp only [step, hcommit, Option.some.injEq, Prod.mk.injEq] at h
          obtain ⟨rfl, rfl⟩ := h
          exact .of_compareAndSwap hs hcommit
      | commit exported => cases exported <;> simp [step, hcommit] at h
      | _ => simp [step, hcommit] at h
  | none =>
      cases call with
      | stage checkpoint =>
          simp only [step, hcommit, Option.some.injEq, Prod.mk.injEq] at h
          obtain ⟨rfl, rfl⟩ := h
          cases hrun : LabStateStore.stage checkpoint s.store with
          | ok _ store => exact .of_stage hs rfl hrun
          | error e store => exact .of_unchanged hs (stage_eq_error hrun)
      | compareAndSwap expected next =>
          simp only [step, hcommit, Option.some.injEq, Prod.mk.injEq] at h
          obtain ⟨rfl, rfl⟩ := h
          exact .of_compareAndSwap hs rfl
      | loadActive =>
          simp only [step, hcommit, Option.some.injEq, Prod.mk.injEq] at h
          obtain ⟨rfl, rfl⟩ := h
          rcases loadActive_ends hs with ⟨checkpoint, generation, hhealthy, -, hload, -⟩ | ⟨e, hload, he⟩
          · rw [hload]
            refine ⟨hs, nofun, nofun, fun _ => rfl, fun hpoisoned => ?_⟩
            rw [hhealthy] at hpoisoned
            cases hpoisoned
          · rw [hload]
            exact .of_unchanged hs (Or.inl ⟨rfl, he⟩)
      | commit exported expected =>
          cases exported with
          | error e =>
              simp only [step, hcommit, Option.some.injEq, Prod.mk.injEq] at h
              obtain ⟨rfl, rfl⟩ := h
              exact .of_error hs rfl
          | ok checkpoint =>
              simp only [step, hcommit, Option.some.injEq, commit] at h
              split at h
              · next hrun =>
                  cases h
                  exact .of_stage hs rfl hrun
              · next hrun =>
                  cases h
                  exact .of_unchanged hs (stage_eq_error hrun)
      | resume => simp [step, hcommit] at h

theorem valid_of_reachable (h : Reachable s) : Valid s.store := by
  obtain ⟨initial, start, hstart, hrun⟩ := h
  refine hrun.invariant (P := fun s => Valid s.store) (valid_of_create hstart) ?_
  intro s i o s' hs _ hstep
  exact (step_effect hs hstep).valid

theorem store_eq_of_poisoned (hs : Valid s.store) (hpoisoned : s.store.poisoned = true)
    (h : machine.Reaches Machine.anyStep s s') : s'.store = s.store := by
  refine (h.invariant (P := fun t => t.store = s.store) rfl ?_)
  intro t i result t' ht _ hstep
  have heffect := step_effect (s := t) (ht ▸ hs) hstep
  rw [(heffect.refused (ht ▸ hpoisoned)).2, ht]

/-- A client that swaps to a name without a shard poisons the store. -/
theorem reachable_poisoned : Reachable
    (⟨{ LabStateStore.empty with poisoned := true }, fun _ => none⟩ : System Unit) :=
  ⟨none, _, rfl, .step (i := ((), .compareAndSwap none (List.replicate 64 48))) (.refl _) trivial rfl⟩

end System

end

end StateWeaver.Lab
