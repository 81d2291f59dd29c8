import StateWeaver.Compose.Discipline
import StateWeaver.Lib.Sha2

/-!
# Ownership of Compose projects

Whatever the runner answers and however the calls of one adapter interleave, a project that was started is,
once no call is in progress, live under one handle or commanded to stop since. Only the call that creates a
project or holds the lock of its handle commands it, and a live record is removed only by a `destroy` that
has cleaned up or by a fork that fails.
-/

namespace StateWeaver.Compose

open Worlds
open Requests (Component)
open Requests.Component (Event Disciplined Stepped)
open Requests.Component.State (running_setRunning setRunning_of_ne)
open Trace

/-- A project becomes dirty only when it is started. -/
theorem dirty_append_of_not_mem {commands made : List Command} {project : String}
    (hup : .compose project .up ∉ made) (h : Dirty (commands ++ made) project) : Dirty commands project := by
  induction made generalizing commands with
  | nil => rwa [List.append_nil] at h
  | cons command rest ih =>
      rw [List.mem_cons, not_or] at hup
      rw [List.append_cons] at h
      rcases dirty_append.mp (ih hup.2 h) with rfl | ⟨h, -⟩
      · exact absurd rfl hup.1
      · exact h

/-- A stop that no start follows leaves a project clean. -/
theorem not_dirty_append_of_mem {commands made : List Command} {project : String}
    (hdown : .compose project .down ∈ made) (hup : .compose project .up ∉ made) :
    ¬ Dirty (commands ++ made) project := by
  obtain ⟨before, after, rfl⟩ := List.append_of_mem hdown
  intro h
  rw [List.append_cons, ← List.append_assoc] at h
  have hafter : .compose project .up ∉ after := fun hx =>
    hup (List.mem_append_right _ (List.mem_cons_of_mem _ hx))
  rw [← List.append_assoc] at h
  rcases dirty_append.mp (dirty_append_of_not_mem hafter h) with h | h
  · cases h
  · exact h.2 rfl

/-- The same commands leave one history dirty if they leave another. -/
theorem dirty_append_of_imp {commands commands' made : List Command} {project : String}
    (himp : Dirty commands project → Dirty commands' project) (h : Dirty (commands ++ made) project) :
    Dirty (commands' ++ made) project := by
  induction made generalizing commands commands' with
  | nil =>
      rw [List.append_nil] at h ⊢
      exact himp h
  | cons command rest ih =>
      rw [List.append_cons] at h ⊢
      refine ih (fun h => ?_) h
      rw [dirty_append] at h ⊢
      exact h.imp_right fun h => ⟨himp h.1, h.2⟩

section

variable [Sha256] {Id : Type}

/-- The calls of one adapter. -/
abbrev Calls (Id : Type) :=
  Component.State Id (Shared Id) AdapterCall Request Answer Exc (Except Exc Returned)

abbrev Run := Component.Running AdapterCall Request Answer Exc (Except Exc Returned)

/-! ## What holds between steps -/

/-- What holds of the registries, the locks and the calls in progress between steps. -/
structure Sound (s : Calls Id) : Prop where
  /-- An identity that a call creates is issued, to no other call, and no call was given its handle. -/
  issued {i : Id} {run : Run} {token : Token} : s.running i = some run → Created run.trace token →
    token.environmentId ∈ s.shared.issuedEnvironments
  alone {i j : Id} {run run' : Run} {token : Token} : s.running i = some run → Created run.trace token →
    s.running j = some run' → Created run'.trace token → i = j
  unnamed {i j : Id} {run run' : Run} {token : Token} {env : EnvironmentHandle} : s.running i = some run →
    Created run.trace token → s.running j = some run' → run'.call.handle? = some env →
      env.environmentId ≠ token.environmentId
  live {environmentId : NonEmpty} {live : LiveWorld} : s.shared.live environmentId = some live →
    live.handle.environmentId = environmentId ∧ environmentId ∈ s.shared.issuedEnvironments
  /-- What a call has registered and not discarded is live. -/
  registered {i : Id} {run : Run} {live : LiveWorld} : s.running i = some run → Registered run.trace live →
    (∃ token, Created run.trace token ∧ live.handle.environmentId = token.environmentId) ∧
      ((∀ live x, ⟨.discardLive live, x⟩ ∉ run.trace) →
        s.shared.live live.handle.environmentId ≠ none)
  locked {i : Id} {run : Run} {environmentId : NonEmpty} : s.running i = some run →
    Holds run.trace environmentId → s.shared.locks environmentId = some i
  /-- What a call has seen under the lock that it holds is still live. -/
  seen {i : Id} {run : Run} {live : LiveWorld} : s.running i = some run →
    (∀ env, run.call ≠ .destroy env) → run.call.handle? = some live.handle → SawLocked run.trace live →
      Holds run.trace live.handle.environmentId →
        s.shared.live live.handle.environmentId = some live
  saw {i : Id} {run : Run} {live : LiveWorld} : s.running i = some run → SawLocked run.trace live →
    live.handle.environmentId ∈ s.shared.issuedEnvironments
  /-- Only the call that creates a project has commanded it. -/
  created {i : Id} {run : Run} {token : Token} : s.running i = some run → Created run.trace token →
    Dirty s.shared.commands token.project → Dirty (commands run.trace) token.project
  /-- What a call has stopped under its lock stays stopped. -/
  stopped {i : Id} {run : Run} {live : LiveWorld} : s.running i = some run →
    run.call.handle? = some live.handle → Holds run.trace live.handle.environmentId →
      .compose live.project .down ∈ commands run.trace →
        .compose live.project .up ∉ commands run.trace → ¬ Dirty s.shared.commands live.project
  /-- A call that was given a handle creates nothing, and commands nothing before it has the lock. -/
  handed {i : Id} {run : Run} {env : EnvironmentHandle} {token : Token} : s.running i = some run →
    run.call.handle? = some env → ¬ Created run.trace token
  waits {i : Id} {run : Run} {env : EnvironmentHandle} {project : String} : s.running i = some run →
    run.call.handle? = some env → (∀ environmentId x, ⟨.acquire environmentId, x⟩ ∉ run.trace) →
      .compose project .down ∉ commands run.trace
  known {command : Command} {project : String} : command ∈ s.shared.commands →
    command.project? = some project →
      ∃ token : Token, token.project = project ∧ token.environmentId ∈ s.shared.issuedEnvironments
  /-- What is up is live or in creation. -/
  dirty {token : Token} : Dirty s.shared.commands token.project →
    s.shared.live token.environmentId ≠ none ∨ ∃ i run, s.running i = some run ∧ Created run.trace token
  /-- What was returned is not in creation. -/
  returned {env : EnvironmentHandle} : env ∈ s.shared.returned →
    env.environmentId ∈ s.shared.issuedEnvironments ∧ ∀ i run token, s.running i = some run →
      Created run.trace token → env.environmentId ≠ token.environmentId
  nodup : (s.shared.returned.map (·.environmentId)).Nodup

theorem sound_empty : Sound (⟨Shared.empty, fun _ => none⟩ : Calls Id) where
  issued := nofun
  alone := nofun
  unnamed := nofun
  live := nofun
  registered := nofun
  locked := nofun
  seen := nofun
  saw := nofun
  created := nofun
  stopped := nofun
  handed := nofun
  waits := nofun
  known := nofun
  dirty h := absurd h not_dirty_nil
  returned := nofun
  nodup := List.nodup_nil

variable {s s' : Calls Id} {i j : Id} {run run' : Run} {project : String}

/-- A call creates a project or holds the lock of its handle. -/
def Claims (run : Run) (project : String) : Prop :=
  (∃ token, Created run.trace token ∧ token.project = project) ∨ ∃ live : LiveWorld,
    run.call.handle? = some live.handle ∧ live.project = project ∧ Holds run.trace live.handle.environmentId

theorem claims_of_owns (h : Owns run.call run.trace project) : Claims run project :=
  h.imp_right fun ⟨live, hcall, _, hproject, hholds⟩ => ⟨live, hcall, hproject, hholds⟩

/-- Only one call may command a project. -/
theorem Sound.claims_unique (hs : Sound s) (hi : s.running i = some run) (hj : s.running j = some run')
    (hclaims : Claims run project) (hclaims' : Claims run' project) : i = j := by
  rcases hclaims with ⟨token, hcreated, rfl⟩ | ⟨live, hcall, rfl, hholds⟩
  · rcases hclaims' with ⟨token', hcreated', heq⟩ | ⟨live, hcall, hproject, -⟩
    · obtain rfl := Token.project_injective heq
      exact hs.alone hi hcreated hj hcreated'
    · obtain ⟨token', htoken, hid⟩ := live.named
      obtain rfl := Token.project_injective (htoken.symm.trans hproject)
      exact absurd hid (hs.unnamed hi hcreated hj hcall)
  · obtain ⟨token, htoken, hid⟩ := live.named
    rcases hclaims' with ⟨token', hcreated', heq⟩ | ⟨live', hcall', hproject, hholds'⟩
    · obtain rfl := Token.project_injective (heq.trans htoken)
      exact absurd hid (hs.unnamed hj hcreated' hi hcall)
    · obtain ⟨token', htoken', hid'⟩ := live'.named
      obtain rfl := Token.project_injective (htoken'.symm.trans (hproject.trans htoken))
      rw [hid, ← hid'] at hholds
      exact Option.some.inj ((hs.locked hi hholds).symm.trans (hs.locked hj hholds'))

/-- The project of an identity that was not issued was never commanded. -/
theorem Sound.not_commanded (hs : Sound s) {token : Token}
    (hnew : token.environmentId ∉ s.shared.issuedEnvironments) :
    ∀ command ∈ s.shared.commands, command.project? ≠ some token.project := by
  intro command hcommand hproject
  obtain ⟨token', htoken, hissued⟩ := hs.known hcommand hproject
  obtain rfl := Token.project_injective htoken
  exact hnew hissued

/-- The live record of a handle is of a project. -/
def LiveUnder (s : Calls Id) (project : String) (env : EnvironmentHandle) : Prop :=
  ∃ live, s.shared.live env.environmentId = some live ∧ live.handle = env ∧ live.project = project

/-- A project is live under one handle at most. -/
theorem LiveUnder.unique {env env' : EnvironmentHandle} (h : LiveUnder s project env)
    (h' : LiveUnder s project env') : env = env' := by
  obtain ⟨live, hlive, rfl, rfl⟩ := h
  obtain ⟨live', hlive', rfl, hproject⟩ := h'
  obtain ⟨token, htoken, hid⟩ := live.named
  obtain ⟨token', htoken', hid'⟩ := live'.named
  obtain rfl := Token.project_injective (htoken'.symm.trans (hproject.trans htoken))
  rw [hid] at hlive
  rw [hid', hlive] at hlive'
  exact congrArg (·.handle) (Option.some.inj hlive')

/-! ## One request -/

section

variable {shared shared' : Shared Id} {r : Request} {x : Except Exc (Answer r)}

theorem Handled.commands (h : Handled shared i r x shared') :
    shared'.commands = shared.commands ++ Trace.commands [⟨r, x⟩] := by
  cases h with
  | run => rfl
  | _ => exact (List.append_nil _).symm

theorem Handled.returned (h : Handled shared i r x shared') : shared'.returned = shared.returned := by
  cases h <;> rfl

theorem Handled.subset_issued (h : Handled shared i r x shared') :
    shared.issuedEnvironments ⊆ shared'.issuedEnvironments := by
  cases h with
  | issued => exact List.subset_cons_self ..
  | _ => exact List.Subset.refl _

/-- What is live after a request was live before or is registered by it. -/
theorem Handled.live (h : Handled shared i r x shared') {environmentId : NonEmpty} {live : LiveWorld}
    (hlive : shared'.live environmentId = some live) : shared.live environmentId = some live ∨
      r = .registerLive live ∧ live.handle.environmentId = environmentId := by
  cases h with
  | registered live' =>
      dsimp only at hlive
      rw [Function.update_apply] at hlive
      split at hlive
      · next hid =>
          obtain rfl := Option.some.inj hlive
          exact Or.inr ⟨rfl, hid.symm⟩
      · exact Or.inl hlive
  | discarded live' =>
      dsimp only at hlive
      rw [Function.update_apply] at hlive
      split at hlive
      · cases hlive
      · exact Or.inl hlive
  | _ => exact Or.inl hlive

/-- What was live stays live or is discarded. -/
theorem Handled.live_kept (h : Handled shared i r x shared') {environmentId : NonEmpty} {live : LiveWorld}
    (hlive : shared.live environmentId = some live) : shared'.live environmentId = some live ∨
      r = .discardLive live ∧ live.handle.environmentId = environmentId := by
  cases h with
  | registered live' hnew =>
      dsimp only
      rw [Function.update_apply]
      split
      · next hid =>
          subst hid
          cases hnew.symm.trans hlive
      · exact Or.inl hlive
  | discarded live' hlive' =>
      dsimp only
      rw [Function.update_apply]
      split
      · next hid =>
          subst hid
          obtain rfl := Option.some.inj (hlive'.symm.trans hlive)
          exact Or.inr ⟨rfl, rfl⟩
      · exact Or.inl hlive
  | _ => exact Or.inl hlive

/-- A lock stays held until it is released. -/
theorem Handled.locks (h : Handled shared i r x shared') {environmentId : NonEmpty}
    (hlocked : shared.locks environmentId = some j) :
    shared'.locks environmentId = some j ∨ r = .release environmentId := by
  cases h with
  | acquired environmentId' hfree =>
      dsimp only
      rw [Function.update_apply]
      split
      · next hid =>
          subst hid
          cases hfree.symm.trans hlocked
      · exact Or.inl hlocked
  | released environmentId' =>
      dsimp only
      rw [Function.update_apply]
      split
      · next hid => exact Or.inr (hid ▸ rfl)
      · exact Or.inl hlocked
  | _ => exact Or.inl hlocked

theorem Handled.of_issued {token : Token}
    (h : Handled shared i (.issueEnvironment token) (.ok .issued) shared') :
    token.environmentId ∉ shared.issuedEnvironments ∧ token.environmentId ∈ shared'.issuedEnvironments := by
  cases h with
  | issued _ hnew => exact ⟨hnew, List.mem_cons_self⟩
  | refused _ hrefused => exact absurd rfl hrefused

theorem Handled.of_registered {live : LiveWorld} (h : Handled shared i (.registerLive live) (.ok true) shared') :
    shared'.live live.handle.environmentId ≠ none := by
  cases h with
  | registered =>
      dsimp only
      rw [Function.update_self]
      exact Option.some_ne_none _

theorem Handled.of_getLive {environmentId : NonEmpty} {live : LiveWorld}
    (h : Handled shared i (.getLive environmentId) (.ok (some live)) shared') :
    shared.live environmentId = some live := by
  generalize hx : (Except.ok (some live) : Except Exc (Answer (.getLive environmentId))) = x at h
  cases h with
  | getLive => exact (Except.ok.inj hx).symm

theorem Handled.of_acquired {environmentId : NonEmpty}
    (h : Handled shared i (.acquire environmentId) (.ok ()) shared') :
    shared'.locks environmentId = some i := by
  cases h with
  | acquired => exact Function.update_self ..

end

/-- The end of a call changes only what was returned. -/
theorem settle_eq (shared : Shared Id) (call : AdapterCall) (result : Except Exc Returned) :
    shared.settle call result = { shared with returned := (shared.settle call result).returned } := by
  rcases result with e | (env | manifest | _) <;> rfl

/-- A handle is returned when a call ends with it. -/
theorem mem_settle {shared : Shared Id} {call : AdapterCall} {result : Except Exc Returned} {env : EnvironmentHandle}
    (h : env ∈ (shared.settle call result).returned) :
    env ∈ shared.returned ∨ result = .ok (.handle env) := by
  rcases result with e | (env' | manifest | _)
  · exact Or.inl h
  · exact (List.mem_cons.mp h).elim (fun heq => Or.inr (heq ▸ rfl)) Or.inl
  · exact Or.inl h
  · exact Or.inl h

theorem created_append {t : Trace} {x : Exchange} {token : Token} (h : Created (t ++ [x]) token) :
    Created t token ∨ x = ⟨.issueEnvironment token, .ok .issued⟩ :=
  (List.mem_append.mp h).imp_right fun h => (List.mem_singleton.mp h).symm

theorem holds_append {t : Trace} {x : Exchange} {environmentId : NonEmpty}
    (h : Holds (t ++ [x]) environmentId) : (Holds t environmentId ∧ x.request ≠ .release environmentId) ∨
      x = ⟨.acquire environmentId, .ok ()⟩ := by
  refine (List.mem_append.mp h.1).imp (fun hacquired => ⟨⟨hacquired, fun y hy => ?_⟩, fun hx => ?_⟩) fun h =>
    (List.mem_singleton.mp h).symm
  · exact h.2 y (List.mem_append_left _ hy)
  · obtain ⟨r, answer⟩ := x
    subst hx
    exact h.2 answer (List.mem_append_right _ List.mem_cons_self)

theorem sawLocked_append {t : Trace} {x : Exchange} {live : LiveWorld} (h : SawLocked (t ++ [x]) live) :
    SawLocked t live ∨ x = ⟨.getLive live.handle.environmentId, .ok (some live)⟩ := by
  obtain ⟨before, after, heq, hlive⟩ := h
  rcases List.eq_nil_or_concat after with rfl | ⟨after, last, rfl⟩
  · exact absurd hlive List.not_mem_nil
  · rw [List.concat_eq_append, ← List.cons_append, ← List.append_assoc] at heq
    obtain ⟨rfl, hlast⟩ := List.append_inj' heq rfl
    obtain rfl := List.singleton_inj.mp hlast
    rw [List.concat_eq_append] at hlive
    exact (List.mem_append.mp hlive).imp (fun h => ⟨before, after, rfl, h⟩) fun h =>
      (List.mem_singleton.mp h).symm

/-- `uuid4` cannot be guessed: no call in progress was given the handle of an identity when it is issued,
and no call is given it while it is in creation. -/
def Unguessed (s : Calls Id) : Id × Event AdapterCall Outcome → Prop
  | (_, .start call) => ∀ env, call.handle? = some env → ∀ j run token, s.running j = some run →
      Created run.trace token → env.environmentId ≠ token.environmentId
  | (i, .request _) => ∀ call token next trace,
      s.running i = some ⟨call, .call (.issueEnvironment token) next, trace⟩ → ∀ j run env,
        s.running j = some run → run.call.handle? = some env → env.environmentId ≠ token.environmentId
  | (_, .finish) => True

/-- Calls that are given no handle guess nothing. -/
theorem unguessed_of_unhanded (hs : ∀ j run, s.running j = some run → run.call.handle? = none)
    {event : Event AdapterCall Outcome}
    (hcall : ∀ call, event = .start call → call.handle? = none) : Unguessed s (i, event) := by
  cases event with
  | start call =>
      intro env henv
      cases (hcall call rfl).symm.trans henv
  | request =>
      intro call token next trace hi j run env hj henv
      cases (hs j run hj).symm.trans henv
  | finish => trivial

variable [Parsers] {profile : Profile}

/-- A request of one call is answered. -/
structure Requested (profile : Profile) (s s' : Calls Id) (i : Id) (run : Run) (r : Request)
    (x : Except Exc (Answer r)) : Prop where
  running : s.running i = some run
  allowed : Allows profile run.call run.trace r
  unguessed {j : Id} {run' : Run} {token : Token} {env : EnvironmentHandle} : r = .issueEnvironment token →
    s.running j = some run' → run'.call.handle? = some env → env.environmentId ≠ token.environmentId
  handled : Handled s.shared i r x s'.shared
  after {j : Id} {run' : Run} : s'.running j = some run' →
    (j = i ∧ run'.call = run.call ∧ run'.trace = run.trace ++ [⟨r, x⟩]) ∨ j ≠ i ∧ s.running j = some run'
  kept {j : Id} {run' : Run} : s.running j = some run' →
    ∃ run'', s'.running j = some run'' ∧ run'.trace ⊆ run''.trace

namespace Requested

variable {r : Request} {x : Except Exc (Answer r)} (h : Requested profile s s' i run r x) (hs : Sound s)
  {token : Token} {live : LiveWorld} {env : EnvironmentHandle} {environmentId : NonEmpty}
include h

/-- The call goes on as the same call. -/
theorem before (hj : s'.running j = some run') : ∃ run₀, s.running j = some run₀ ∧ run₀.call = run'.call := by
  rcases h.after hj with ⟨rfl, hcall, -⟩ | ⟨-, hj⟩
  · exact ⟨run, h.running, hcall.symm⟩
  · exact ⟨run', hj, rfl⟩

/-- An identity in creation was so before, or is new. -/
theorem created_before (hj : s'.running j = some run') (hcreated : Created run'.trace token) :
    (∃ run₀, s.running j = some run₀ ∧ Created run₀.trace token) ∨ j = i ∧ r = .issueEnvironment token ∧
      token.environmentId ∉ s.shared.issuedEnvironments ∧
        token.environmentId ∈ s'.shared.issuedEnvironments := by
  rcases h.after hj with ⟨rfl, -, htrace⟩ | ⟨-, hj⟩
  · rw [htrace] at hcreated
    rcases created_append hcreated with hcreated | heq
    · exact Or.inl ⟨run, h.running, hcreated⟩
    · have hhandled := h.handled
      cases heq
      exact Or.inr ⟨rfl, rfl, hhandled.of_issued⟩
  · exact Or.inl ⟨run', hj, hcreated⟩

/-- Whoever commands a project may do so. -/
theorem owns {command : Command} (hmade : command ∈ commands [(⟨r, x⟩ : Exchange)])
    (hproject : command.project? = some project) :
    Owns run.call run.trace project := by
  have hallowed := h.allowed
  cases r with
  | run command' stdin =>
      obtain rfl := List.mem_singleton.mp hmade
      exact hallowed.1 project hproject
  | _ => exact absurd hmade List.not_mem_nil

include hs

theorem issued (hj : s'.running j = some run') (hcreated : Created run'.trace token) :
    token.environmentId ∈ s'.shared.issuedEnvironments := by
  rcases h.created_before hj hcreated with ⟨run₀, hj₀, hcreated₀⟩ | ⟨-, -, -, hissued⟩
  · exact h.handled.subset_issued (hs.issued hj₀ hcreated₀)
  · exact hissued

theorem alone {j' : Id} {run'' : Run} (hj : s'.running j = some run') (hcreated : Created run'.trace token)
    (hj' : s'.running j' = some run'') (hcreated' : Created run''.trace token) : j = j' := by
  rcases h.created_before hj hcreated with ⟨run₀, hj₀, hcreated₀⟩ | ⟨rfl, -, hnew, -⟩
  · rcases h.created_before hj' hcreated' with ⟨run₁, hj₁, hcreated₁⟩ | ⟨-, -, hnew, -⟩
    · exact hs.alone hj₀ hcreated₀ hj₁ hcreated₁
    · exact absurd (hs.issued hj₀ hcreated₀) hnew
  · rcases h.created_before hj' hcreated' with ⟨run₁, hj₁, hcreated₁⟩ | ⟨rfl, -⟩
    · exact absurd (hs.issued hj₁ hcreated₁) hnew
    · rfl

theorem unnamed {j' : Id} {run'' : Run} (hj : s'.running j = some run') (hcreated : Created run'.trace token)
    (hj' : s'.running j' = some run'') (hcall : run''.call.handle? = some env) :
    env.environmentId ≠ token.environmentId := by
  obtain ⟨run₁, hj₁, hcall₁⟩ := h.before hj'
  rw [← hcall₁] at hcall
  rcases h.created_before hj hcreated with ⟨run₀, hj₀, hcreated₀⟩ | ⟨-, hissue, -⟩
  · exact hs.unnamed hj₀ hcreated₀ hj₁ hcall
  · exact h.unguessed hissue hj₁ hcall

theorem live_issued (hlive : s'.shared.live environmentId = some live) :
    live.handle.environmentId = environmentId ∧ environmentId ∈ s'.shared.issuedEnvironments := by
  rcases h.handled.live hlive with hlive | ⟨rfl, rfl⟩
  · exact (hs.live hlive).imp_right fun hissued => h.handled.subset_issued hissued
  · obtain ⟨⟨token, hcreated, hid⟩, -⟩ := h.allowed
    exact ⟨rfl, hid ▸ h.handled.subset_issued (hs.issued h.running hcreated)⟩

/-- Only the call itself discards what it has created. -/
theorem discarded (hj : s.running j = some run') (hcreated : Created run'.trace token)
    (hid : live.handle.environmentId = token.environmentId) (hr : r = .discardLive live) : j = i := by
  subst hr
  rcases h.allowed with ⟨hcall, -⟩ | ⟨-, token', hcreated', hid'⟩
  · exact absurd hid (hs.unnamed hj hcreated h.running (by rw [hcall]; rfl))
  · obtain rfl := Token.environmentId_injective (hid'.symm.trans hid)
    exact hs.alone hj hcreated h.running hcreated'

/-- What a call has created and registered stays live as long as it discards nothing. -/
theorem live_of_registered (hj : s.running j = some run') (hregistered : Registered run'.trace live)
    (hkept : ∀ live x, ⟨.discardLive live, x⟩ ∉ run'.trace) (hnot : ∀ live, j = i → r ≠ .discardLive live) :
    s'.shared.live live.handle.environmentId ≠ none := by
  obtain ⟨⟨token, hcreated, hid⟩, hlive⟩ := hs.registered hj hregistered
  obtain ⟨found, hfound⟩ := Option.ne_none_iff_exists'.mp (hlive hkept)
  rcases h.handled.live_kept hfound with hfound | ⟨hr, hfoundId⟩
  · rw [hfound]
    exact Option.some_ne_none _
  · exact absurd hr (hnot found (h.discarded hs hj hcreated (hfoundId.trans hid) hr))

theorem registered (hj : s'.running j = some run') (hregistered : Registered run'.trace live) :
    (∃ token, Created run'.trace token ∧ live.handle.environmentId = token.environmentId) ∧
      ((∀ live x, ⟨.discardLive live, x⟩ ∉ run'.trace) →
        s'.shared.live live.handle.environmentId ≠ none) := by
  rcases h.after hj with ⟨rfl, -, htrace⟩ | ⟨hne, hj⟩
  · rw [htrace] at hregistered ⊢
    rcases List.mem_append.mp hregistered with hregistered | heq
    · obtain ⟨token, hcreated, hid⟩ := (hs.registered h.running hregistered).1
      refine ⟨⟨token, List.mem_append_left _ hcreated, hid⟩, fun hkept => ?_⟩
      refine h.live_of_registered hs h.running hregistered
        (fun live y hy => hkept live y (List.mem_append_left _ hy)) fun live _ hr => ?_
      subst hr
      exact hkept live x (List.mem_append_right _ List.mem_cons_self)
    · have hallowed := h.allowed
      have hhandled := h.handled
      cases List.mem_singleton.mp heq
      obtain ⟨⟨token, hcreated, hid⟩, -⟩ := hallowed
      exact ⟨⟨token, List.mem_append_left _ hcreated, hid⟩, fun _ => hhandled.of_registered⟩
  · refine ⟨(hs.registered hj hregistered).1, fun hkept => ?_⟩
    exact h.live_of_registered hs hj hregistered hkept fun _ heq => absurd heq hne

theorem locked (hj : s'.running j = some run') (hholds : Holds run'.trace environmentId) :
    s'.shared.locks environmentId = some j := by
  rcases h.after hj with ⟨rfl, -, htrace⟩ | ⟨hne, hj⟩
  · rw [htrace] at hholds
    rcases holds_append hholds with ⟨hholds, hr⟩ | heq
    · exact (h.handled.locks (hs.locked h.running hholds)).resolve_right hr
    · have hhandled := h.handled
      cases heq
      exact hhandled.of_acquired
  · refine (h.handled.locks (hs.locked hj hholds)).resolve_right fun hr => hne ?_
    have hallowed := h.allowed
    subst hr
    exact Option.some.inj ((hs.locked hj hholds).symm.trans (hs.locked h.running hallowed))

/-- What a call saw under its lock is live unless it destroys it. -/
theorem live_of_seen (hj : s.running j = some run') (hcall : ∀ env, run'.call ≠ .destroy env)
    (hhandle : run'.call.handle? = some live.handle) (hholds : Holds run'.trace live.handle.environmentId)
    (hlive : s.shared.live live.handle.environmentId = some live) :
    s'.shared.live live.handle.environmentId = some live := by
  refine (h.handled.live_kept hlive).resolve_right ?_
  rintro ⟨hr, -⟩
  have hallowed := h.allowed
  subst hr
  rcases hallowed with ⟨hdestroy, -, hholds', -⟩ | ⟨-, token, hcreated, hid⟩
  · obtain rfl := Option.some.inj ((hs.locked hj hholds).symm.trans (hs.locked h.running hholds'))
    obtain rfl := Option.some.inj (hj.symm.trans h.running)
    exact hcall _ hdestroy
  · exact hs.unnamed h.running hcreated hj hhandle hid

theorem seen (hj : s'.running j = some run') (hcall : ∀ env, run'.call ≠ .destroy env)
    (hhandle : run'.call.handle? = some live.handle) (hsaw : SawLocked run'.trace live)
    (hholds : Holds run'.trace live.handle.environmentId) :
    s'.shared.live live.handle.environmentId = some live := by
  rcases h.after hj with ⟨rfl, hsame, htrace⟩ | ⟨hne, hj⟩
  · rw [hsame] at hcall hhandle
    rw [htrace] at hsaw hholds
    have hholds₀ : Holds run.trace live.handle.environmentId := by
      refine (holds_append hholds).elim And.left fun heq => ?_
      have hallowed := h.allowed
      cases heq
      -- Whoever has seen it under the lock has acquired the lock before.
      rcases sawLocked_append hsaw with ⟨before, after, htrace₀, -⟩ | heq
      · exact absurd (htrace₀ ▸ List.mem_append_right _ List.mem_cons_self) (hallowed.2 _ _)
      · cases heq
    refine h.live_of_seen hs h.running hcall hhandle hholds₀ ?_
    rcases sawLocked_append hsaw with hsaw | heq
    · exact hs.seen h.running hcall hhandle hsaw hholds₀
    · have hhandled := h.handled
      cases heq
      exact hhandled.of_getLive
  · exact h.live_of_seen hs hj hcall hhandle hholds (hs.seen hj hcall hhandle hsaw hholds)

theorem saw (hj : s'.running j = some run') (hsaw : SawLocked run'.trace live) :
    live.handle.environmentId ∈ s'.shared.issuedEnvironments := by
  rcases h.after hj with ⟨rfl, -, htrace⟩ | ⟨hne, hj⟩
  · rw [htrace] at hsaw
    rcases sawLocked_append hsaw with hsaw | heq
    · exact h.handled.subset_issued (hs.saw h.running hsaw)
    · have hhandled := h.handled
      cases heq
      exact hhandled.subset_issued (hs.live hhandled.of_getLive).2
  · exact h.handled.subset_issued (hs.saw hj hsaw)

theorem known {command : Command} (hcommand : command ∈ s'.shared.commands)
    (hproject : command.project? = some project) : ∃ token : Token, token.project = project ∧
      token.environmentId ∈ s'.shared.issuedEnvironments := by
  rw [h.handled.commands] at hcommand
  rcases List.mem_append.mp hcommand with hcommand | hmade
  · obtain ⟨token, htoken, hissued⟩ := hs.known hcommand hproject
    exact ⟨token, htoken, h.handled.subset_issued hissued⟩
  · rcases h.owns hmade hproject with ⟨token, hcreated, htoken⟩ | ⟨live, -, hsaw, hlive, -⟩
    · exact ⟨token, htoken, h.handled.subset_issued (hs.issued h.running hcreated)⟩
    · obtain ⟨token, htoken, hid⟩ := live.named
      exact ⟨token, htoken.symm.trans hlive, hid ▸ h.handled.subset_issued (hs.saw h.running hsaw)⟩

/-- A call that claims a project alone may start it. -/
theorem up_not_mem (hne : j ≠ i) (hj : s.running j = some run') (hclaims : Claims run' project) :
    .compose project .up ∉ commands [(⟨r, x⟩ : Exchange)] := fun hmade =>
  hne (hs.claims_unique hj h.running hclaims (claims_of_owns (h.owns hmade rfl)))

theorem created (hj : s'.running j = some run') (hcreated : Created run'.trace token)
    (hdirty : Dirty s'.shared.commands token.project) : Dirty (commands run'.trace) token.project := by
  rw [h.handled.commands] at hdirty
  rcases h.after hj with ⟨rfl, -, htrace⟩ | ⟨hne, hj⟩
  · rw [htrace] at hcreated ⊢
    rw [commands_append]
    rcases created_append hcreated with hcreated | heq
    · exact dirty_append_of_imp (hs.created h.running hcreated) hdirty
    · have hhandled := h.handled
      cases heq
      -- A new identity has no project that was ever commanded.
      rw [show commands [(⟨.issueEnvironment token, .ok .issued⟩ : Exchange)] = [] from rfl,
        List.append_nil] at hdirty
      obtain ⟨before, after, hcommands, -⟩ := hdirty
      obtain ⟨token', htoken, hissued⟩ := hs.known
        (hcommands ▸ List.mem_append_right _ List.mem_cons_self) rfl
      obtain rfl := Token.project_injective htoken
      exact absurd hissued hhandled.of_issued.1
  · have hup := h.up_not_mem hs hne hj (Or.inl ⟨token, hcreated, rfl⟩)
    exact hs.created hj hcreated (dirty_append_of_not_mem hup hdirty)

theorem stopped (hj : s'.running j = some run') (hcall : run'.call.handle? = some live.handle)
    (hholds : Holds run'.trace live.handle.environmentId)
    (hdown : .compose live.project .down ∈ commands run'.trace)
    (hup : .compose live.project .up ∉ commands run'.trace) : ¬ Dirty s'.shared.commands live.project := by
  rw [h.handled.commands]
  rcases h.after hj with ⟨rfl, hsame, htrace⟩ | ⟨hne, hj⟩
  · rw [hsame] at hcall
    rw [htrace, commands_append, List.mem_append] at hdown hup
    rw [not_or] at hup
    rcases hdown with hdown | hdown
    · refine fun hdirty => hs.stopped h.running hcall ?_ hdown hup.1 (dirty_append_of_not_mem hup.2 hdirty)
      rw [htrace] at hholds
      refine (holds_append hholds).elim And.left fun heq => ?_
      have hallowed := h.allowed
      cases heq
      exact absurd hdown (hs.waits h.running hcall hallowed.2)
    · exact not_dirty_append_of_mem hdown hup.2
  · have hup' := h.up_not_mem hs hne hj (Or.inr ⟨live, hcall, rfl, hholds⟩)
    exact fun hdirty => hs.stopped hj hcall hholds hdown hup (dirty_append_of_not_mem hup' hdirty)

theorem handed (hj : s'.running j = some run') (hcall : run'.call.handle? = some env) :
    ¬ Created run'.trace token := by
  rcases h.after hj with ⟨rfl, hsame, htrace⟩ | ⟨-, hj⟩
  · rw [hsame] at hcall
    rw [htrace]
    intro hcreated
    rcases created_append hcreated with hcreated | heq
    · exact hs.handed h.running hcall hcreated
    · have hallowed := h.allowed
      cases heq
      cases hallowed.1.symm.trans hcall
  · exact hs.handed hj hcall

theorem waits (hj : s'.running j = some run') (hcall : run'.call.handle? = some env)
    (hwaits : ∀ environmentId x, ⟨.acquire environmentId, x⟩ ∉ run'.trace) :
    .compose project .down ∉ commands run'.trace := by
  rcases h.after hj with ⟨rfl, hsame, htrace⟩ | ⟨-, hj⟩
  · rw [hsame] at hcall
    rw [htrace] at hwaits ⊢
    have hwaits₀ : ∀ environmentId x, ⟨.acquire environmentId, x⟩ ∉ run.trace := fun environmentId x hx =>
      hwaits environmentId x (List.mem_append_left _ hx)
    rw [commands_append, List.mem_append, not_or]
    refine ⟨hs.waits h.running hcall hwaits₀, fun hmade => ?_⟩
    rcases h.owns hmade rfl with ⟨token, hcreated, -⟩ | ⟨live, -, -, -, hholds⟩
    · exact hs.handed h.running hcall hcreated
    · exact hwaits₀ _ _ hholds.1
  · exact hs.waits hj hcall hwaits

theorem dirty (hdirty : Dirty s'.shared.commands token.project) :
    s'.shared.live token.environmentId ≠ none ∨
      ∃ j run', s'.running j = some run' ∧ Created run'.trace token := by
  have hkept : ∀ {j run'}, s.running j = some run' → Created run'.trace token →
      ∃ j run', s'.running j = some run' ∧ Created run'.trace token := by
    intro j run' hj hcreated
    obtain ⟨run'', hj', hsubset⟩ := h.kept hj
    exact ⟨j, run'', hj', hsubset hcreated⟩
  rw [h.handled.commands] at hdirty
  by_cases hup : .compose token.project .up ∈ commands [(⟨r, x⟩ : Exchange)]
  · -- The project is started by the call that creates it or by one that has seen it live.
    rcases h.owns hup rfl with ⟨token', hcreated, htoken⟩ | ⟨live, hcall, hsaw, hproject, hholds⟩
    · obtain rfl := Token.project_injective htoken
      exact Or.inr (hkept h.running hcreated)
    · obtain ⟨token', htoken, hid⟩ := live.named
      obtain rfl := Token.project_injective (htoken.symm.trans hproject)
      have hdestroy : ∀ env, run.call ≠ .destroy env := by
        have hallowed := h.allowed
        cases r with
        | run command stdin => exact fun env => hallowed.2 _ env (List.mem_singleton.mp hup).symm
        | _ => exact absurd hup List.not_mem_nil
      have hlive := h.live_of_seen hs h.running hdestroy hcall hholds
        (hs.seen h.running hdestroy hcall hsaw hholds)
      rw [← hid, hlive]
      exact Or.inl (Option.some_ne_none _)
  · have hbefore := dirty_append_of_not_mem hup hdirty
    rcases hs.dirty hbefore with hlive | ⟨j, run', hj, hcreated⟩
    · obtain ⟨live, hlive⟩ := Option.ne_none_iff_exists'.mp hlive
      rcases h.handled.live_kept hlive with hlive | ⟨hr, hid⟩
      · rw [hlive]
        exact Or.inl (Option.some_ne_none _)
      · obtain ⟨token', htoken, hid'⟩ := live.named
        obtain rfl := Token.environmentId_injective (hid'.symm.trans hid)
        have hallowed := h.allowed
        subst hr
        rcases hallowed with ⟨hcall, -, hholds, hcleaned, hnot⟩ | ⟨-, token, hcreated, hid''⟩
        · refine absurd (htoken ▸ hbefore) (hs.stopped h.running (by rw [hcall]; rfl) hholds ?_ hnot)
          obtain ⟨before, after, result, htrace, -⟩ := hcleaned
          rw [htrace, commands, List.filterMap_append]
          exact List.mem_append_right _ List.mem_cons_self
        · obtain rfl := Token.environmentId_injective (hid''.symm.trans hid)
          exact Or.inr (hkept h.running hcreated)
    · exact Or.inr (hkept hj hcreated)

theorem returned (henv : env ∈ s'.shared.returned) : env.environmentId ∈ s'.shared.issuedEnvironments ∧
    ∀ j run' token, s'.running j = some run' → Created run'.trace token →
      env.environmentId ≠ token.environmentId := by
  rw [h.handled.returned] at henv
  obtain ⟨hissued, hother⟩ := hs.returned henv
  refine ⟨h.handled.subset_issued hissued, fun j run' token hj hcreated heq => ?_⟩
  rcases h.created_before hj hcreated with ⟨run₀, hj₀, hcreated₀⟩ | ⟨-, -, hnew, -⟩
  · exact hother j run₀ token hj₀ hcreated₀ heq
  · exact hnew (heq ▸ hissued)

theorem sound : Sound s' where
  issued := h.issued hs
  alone := h.alone hs
  unnamed := h.unnamed hs
  live := h.live_issued hs
  registered := h.registered hs
  locked := h.locked hs
  seen := h.seen hs
  saw := h.saw hs
  created := h.created hs
  stopped := h.stopped hs
  handed := h.handed hs
  waits := h.waits hs
  known := h.known hs
  dirty := h.dirty hs
  returned := h.returned hs
  nodup := h.handled.returned ▸ hs.nodup

end Requested

/-! ## Lawful steps -/

variable {o : Option (Except Exc Returned)}

/-- What a step of a call does to projects, live records and handles. -/
structure Lawful (profile : Profile) (s s' : Calls Id) (i : Id) (o : Option (Except Exc Returned)) : Prop where
  /-- A project is commanded by the call that creates it or holds the lock of its handle. -/
  commanded {command : Command} {project : String} : s'.shared.commands = s.shared.commands ++ [command] →
    command.project? = some project →
      ∃ run, s.running i = some run ∧ Owns run.call run.trace project
  /-- A live record is removed by a `destroy` that has cleaned up, or by the fork that has created it. -/
  removed {environmentId : NonEmpty} {live : LiveWorld} : s.shared.live environmentId = some live →
    s'.shared.live environmentId ≠ some live → ∃ run run', s.running i = some run ∧
      s'.running i = some run' ∧ (∃ x, ⟨.discardLive live, x⟩ ∈ run'.trace) ∧
        (run.call = .destroy live.handle ∧ CleanedUp profile run.trace live.project ∧
            ¬ Dirty s.shared.commands live.project ∨
          (∃ manifest, run.call = .fork manifest) ∧ ∃ token, Created run.trace token ∧
            live.handle.environmentId = token.environmentId)
  /-- The project of a new identity was never commanded. -/
  issued {token : Token} : token.environmentId ∉ s.shared.issuedEnvironments →
    token.environmentId ∈ s'.shared.issuedEnvironments →
      ∀ command ∈ s.shared.commands, command.project? ≠ some token.project
  /-- A call that returns a handle has created it and removed no live record, and a fork has read back what
  it has restored. -/
  returned {env : EnvironmentHandle} : o = some (.ok (.handle env)) →
    ∃ run, s.running i = some run ∧ (∀ live x, ⟨.discardLive live, x⟩ ∉ run.trace) ∧
      ∃ token, Created run.trace token ∧ env.environmentId = token.environmentId ∧
        ∀ manifest, run.call = .fork manifest → Restored profile run.trace manifest token

theorem Requested.lawful {r : Request} {x : Except Exc (Answer r)} (h : Requested profile s s' i run r x)
    (hs : Sound s) : Lawful profile s s' i none where
  commanded {command project} hcommands hproject := by
    rw [h.handled.commands] at hcommands
    have hmade : command ∈ commands [(⟨r, x⟩ : Exchange)] :=
      List.append_cancel_left hcommands ▸ List.mem_cons_self
    exact ⟨run, h.running, h.owns hmade hproject⟩
  removed {environmentId live} hlive hnot := by
    obtain ⟨hr, -⟩ := (h.handled.live_kept hlive).resolve_left hnot
    have hallowed := h.allowed
    subst hr
    obtain ⟨run', hi, hsubset⟩ := h.kept h.running
    rcases h.after hi with ⟨-, -, htrace⟩ | ⟨hne, -⟩
    · refine ⟨run, run', h.running, hi, ⟨x, htrace ▸ List.mem_append_right _ List.mem_cons_self⟩, ?_⟩
      refine hallowed.imp_left fun ⟨hcall, _, hholds, hcleaned, hup⟩ => ⟨hcall, hcleaned, ?_⟩
      refine hs.stopped h.running (by rw [hcall]; rfl) hholds ?_ hup
      obtain ⟨before, after, result, htrace, -⟩ := hcleaned
      rw [htrace, commands, List.filterMap_append]
      exact List.mem_append_right _ List.mem_cons_self
    · exact absurd rfl hne
  issued hnew _ := hs.not_commanded hnew
  returned := nofun

/-! ## Every run -/

/-- A handle that is returned was in creation by its call. -/
theorem Sound.nodup_settle (hs : Sound s) {call : AdapterCall} {result : Except Exc Returned} {trace : Trace}
    (hrunning : s.running i = some ⟨call, .done result, trace⟩) (hends : Ends profile call result trace) :
    ((s.shared.settle call result).returned.map (·.environmentId)).Nodup := by
  rcases result with e | (env | manifest | _)
  · exact hs.nodup
  · obtain ⟨token, hcreated, hid, -⟩ := (hends.returned rfl).1
    refine List.nodup_cons.mpr ⟨fun hmem => ?_, hs.nodup⟩
    obtain ⟨env', henv', heq⟩ := List.mem_map.mp hmem
    exact (hs.returned henv').2 _ _ _ hrunning hcreated (heq.trans hid)
  · exact hs.nodup
  · exact hs.nodup

variable [DecidableEq Id] {event : Event AdapterCall Outcome}

theorem sound_start (hs : Sound s) (hidle : s.running i = none) {call : AdapterCall}
    (hunguessed : Unguessed s (i, .start call)) :
    Sound (s.setRunning i (some ⟨call, action profile call, []⟩)) := by
  -- The new call has requested nothing.
  have hold : ∀ {j run'}, (s.setRunning i (some ⟨call, action profile call, []⟩)).running j = some run' →
      run'.trace ≠ [] → s.running j = some run' := by
    intro j run' hj hne
    rcases running_setRunning hj with ⟨-, heq⟩ | ⟨-, hj⟩
    · obtain rfl := Option.some.inj heq
      exact absurd rfl hne
    · exact hj
  have hmem : ∀ {t : Trace} {x : Exchange}, x ∈ t → t ≠ [] := fun h => List.ne_nil_of_mem h
  have hcommands : ∀ {t : Trace} {command}, command ∈ commands t → t ≠ [] := by
    rintro _ command h rfl
    exact absurd h List.not_mem_nil
  have hsaw : ∀ {t : Trace} {live}, SawLocked t live → t ≠ [] := by
    rintro _ live ⟨before, after, h, -⟩ rfl
    exact List.append_ne_nil_of_right_ne_nil _ (List.cons_ne_nil _ _) h.symm
  refine {
    issued := fun hj hx => hs.issued (hold hj (hmem hx)) hx
    alone := fun hj hx hj' hx' => hs.alone (hold hj (hmem hx)) hx (hold hj' (hmem hx')) hx'
    unnamed := fun hj hx hj' hcall => ?_
    live := hs.live
    registered := fun hj hx => hs.registered (hold hj (hmem hx)) hx
    locked := fun hj hx => hs.locked (hold hj (hmem hx.1)) hx
    seen := fun hj hcall hhandle hx => hs.seen (hold hj (hsaw hx)) hcall hhandle hx
    saw := fun hj hx => hs.saw (hold hj (hsaw hx)) hx
    created := fun hj hx => hs.created (hold hj (hmem hx)) hx
    stopped := fun hj hcall hx => hs.stopped (hold hj (hmem hx.1)) hcall hx
    handed := fun hj hcall hx => hs.handed (hold hj (hmem hx)) hcall hx
    waits := fun hj hcall hwaits hx => hs.waits (hold hj (hcommands hx)) hcall hwaits hx
    known := hs.known
    dirty := fun hdirty => (hs.dirty hdirty).imp_right ?_
    returned := fun henv => (hs.returned henv).imp_right fun hother j run' token hj hx =>
      hother j run' token (hold hj (hmem hx)) hx
    nodup := hs.nodup }
  · rcases running_setRunning hj' with ⟨-, heq⟩ | ⟨-, hj'⟩
    · obtain rfl := Option.some.inj heq
      exact hunguessed _ hcall _ _ _ (hold hj (hmem hx)) hx
    · exact hs.unnamed (hold hj (hmem hx)) hx hj' hcall
  · rintro ⟨j, run', hj, hx⟩
    refine ⟨j, run', ?_, hx⟩
    rwa [setRunning_of_ne]
    rintro rfl
    cases hidle.symm.trans hj

theorem sound_finish (hs : Sound s) {call : AdapterCall} {result : Except Exc Returned} {trace : Trace}
    (hrunning : s.running i = some ⟨call, .done result, trace⟩) (hends : Ends profile call result trace) :
    Sound (Component.State.setRunning { s with shared := s.shared.settle call result } i none) := by
  have hold : ∀ {j run'}, (Component.State.setRunning { s with shared := s.shared.settle call result } i
      none).running j = some run' → j ≠ i ∧ s.running j = some run' := by
    intro j run' hj
    rcases running_setRunning hj with ⟨-, heq⟩ | hj
    · cases heq
    · exact hj
  have hnodup := hs.nodup_settle hrunning hends
  have hmem : ∀ {env}, env ∈ (s.shared.settle call result).returned →
      env ∈ s.shared.returned ∨ result = .ok (.handle env) := mem_settle
  rw [settle_eq] at hold ⊢
  refine {
    issued := fun hj hx => hs.issued (hold hj).2 hx
    alone := fun hj hx hj' hx' => hs.alone (hold hj).2 hx (hold hj').2 hx'
    unnamed := fun hj hx hj' hcall => hs.unnamed (hold hj).2 hx (hold hj').2 hcall
    live := hs.live
    registered := fun hj hx => hs.registered (hold hj).2 hx
    locked := fun hj hx => hs.locked (hold hj).2 hx
    seen := fun hj hcall hhandle hx => hs.seen (hold hj).2 hcall hhandle hx
    saw := fun hj hx => hs.saw (hold hj).2 hx
    created := fun hj hx => hs.created (hold hj).2 hx
    stopped := fun hj hcall hx => hs.stopped (hold hj).2 hcall hx
    handed := fun hj hcall hx => hs.handed (hold hj).2 hcall hx
    waits := fun hj hcall hwaits hx => hs.waits (hold hj).2 hcall hwaits hx
    known := hs.known
    dirty := fun {token} hdirty => ?_
    returned := fun {env} henv => ?_
    nodup := hnodup }
  · rcases hs.dirty hdirty with hlive | ⟨j, run', hj, hcreated⟩
    · exact Or.inl hlive
    · by_cases hji : j = i
      · -- What the call has created is live when it ends.
        subst hji
        obtain rfl := Option.some.inj (hj.symm.trans hrunning)
        rcases hends.settled hcreated with hclean | ⟨⟨live, hregistered, hid⟩, hkept⟩
        · exact absurd (hs.created hj hcreated hdirty) hclean
        · exact Or.inl (hid ▸ (hs.registered hj hregistered).2 hkept)
      · exact Or.inr ⟨j, run', (setRunning_of_ne hji).trans hj, hcreated⟩
  · rcases hmem henv with henv | rfl
    · exact (hs.returned henv).imp_right fun hother j run' token hj => hother j run' token (hold hj).2
    · obtain ⟨token, hcreated, hid, -⟩ := (hends.returned rfl).1
      refine ⟨hid ▸ hs.issued hrunning hcreated, fun j run' token' hj hcreated' heq => ?_⟩
      obtain rfl := Token.environmentId_injective (hid.symm.trans heq)
      exact (hold hj).1 (hs.alone (hold hj).2 hcreated' hrunning hcreated)

/-- What a step of a call is, if it is not its start or its end. -/
theorem requested_of_stepped (hdisciplined : Disciplined (discipline profile) s)
    (hunguessed : Unguessed s (i, event)) {call : AdapterCall} {r : Request}
    {next : Except Exc (Answer r) → Requests.Program Request Answer Exc (Except Exc Returned)} {trace : Trace}
    {outcome : Outcome} (hevent : event = .request outcome) {x : Except Exc (Answer r)} {shared : Shared Id}
    (hrunning : s.running i = some ⟨call, .call r next, trace⟩) (hhandled : Handled s.shared i r x shared) :
    Requested profile s (Component.State.setRunning { s with shared := shared } i
      (some ⟨call, next x, trace ++ [⟨r, x⟩]⟩)) i ⟨call, .call r next, trace⟩ r x := by
  subst hevent
  refine ⟨hrunning, hdisciplined.allowed hrunning, ?_, hhandled, fun hj => ?_, fun {j run'} hj => ?_⟩
  · rintro j run' token env rfl
    exact hunguessed _ _ _ _ hrunning j run' env
  · refine (running_setRunning hj).imp_left fun ⟨hji, heq⟩ => ?_
    obtain rfl := Option.some.inj heq
    exact ⟨hji, rfl, rfl⟩
  · by_cases hji : j = i
    · subst hji
      obtain rfl := Option.some.inj (hj.symm.trans hrunning)
      exact ⟨_, Component.State.setRunning_self, List.subset_append_left ..⟩
    · exact ⟨run', (setRunning_of_ne hji).trans hj, List.Subset.refl _⟩

/-- Every step keeps what holds. -/
theorem sound_stepped (hs : Sound s) (hdisciplined : Disciplined (discipline profile) s)
    (hunguessed : Unguessed s (i, event)) (h : Stepped (adapter profile Id) s i event o s') : Sound s' := by
  cases h with
  | start hidle => exact sound_start hs hidle hunguessed
  | request hrunning hhandle =>
      exact (requested_of_stepped hdisciplined hunguessed rfl hrunning (handled_of_handle hhandle)).sound hs
  | finish hrunning => exact sound_finish hs hrunning (hdisciplined.ends hrunning)

theorem Sound.lawful (hs : Sound s) (hdisciplined : Disciplined (discipline profile) s)
    (hunguessed : Unguessed s (i, event)) (h : Stepped (adapter profile Id) s i event o s') :
    Lawful profile s s' i o := by
  have hnone : ∀ {command : Command}, s.shared.commands ≠ s.shared.commands ++ [command] := fun h =>
    List.cons_ne_nil _ _ (List.self_eq_append_right.mp h)
  cases h with
  | start hidle =>
      exact ⟨fun h => absurd h hnone, fun hlive hnot => absurd hlive hnot,
        fun hnew _ => hs.not_commanded hnew, nofun⟩
  | request hrunning hhandle =>
      exact (requested_of_stepped hdisciplined hunguessed rfl hrunning (handled_of_handle hhandle)).lawful hs
  | @finish call result trace hrunning =>
      have hsettle : (adapter profile Id).settle s.shared call result = _ := settle_eq s.shared call result
      refine ⟨fun h => ?_, fun hlive hnot => ?_, fun hnew _ => hs.not_commanded hnew, fun heq => ?_⟩
      · change ((adapter profile Id).settle s.shared call result).commands = _ at h
        rw [hsettle] at h
        exact absurd h hnone
      · change ((adapter profile Id).settle s.shared call result).live _ ≠ _ at hnot
        rw [hsettle] at hnot
        exact absurd hlive hnot
      · obtain ⟨⟨token, hcreated, hid, hrestored⟩, hkept⟩ :=
          (hdisciplined.ends hrunning).returned (Option.some.inj heq)
        exact ⟨_, hrunning, hkept, token, hcreated, hid, hrestored⟩

/-- Whatever the runner answers and however the calls interleave: once no call is in progress, a project
that was started is live under one handle or commanded to stop since; handles are never reused; and every
step is lawful. -/
theorem ownership_spec (profile : Profile)
    (h : (adapter profile Id).machine.Reaches Unguessed ⟨Shared.empty, fun _ => none⟩ s) :
    ((∀ i, s.running i = none) → ∀ before after project,
      s.shared.commands = before ++ .compose project .up :: after →
        (∃! env, LiveUnder s project env) ∨ .compose project .down ∈ after) ∧
    (s.shared.returned.map (·.environmentId)).Nodup ∧
    ∀ i event o s', Unguessed s (i, event) → (adapter profile Id).machine.step s (i, event) = some (o, s') →
      Lawful profile s s' i o := by
  obtain ⟨hs, hdisciplined⟩ := (obeys profile Id).reaches (P := Sound) (fun _ => rfl) sound_empty
    (fun _ _ _ _ _ hs hdisciplined hok hstep => sound_stepped hs hdisciplined hok hstep) h
  refine ⟨fun hidle before after project hcommands => ?_, hs.nodup, fun i event o s' hok hstep =>
    hs.lawful hdisciplined hok (Component.stepped_of_step hstep)⟩
  refine or_iff_not_imp_right.mpr fun hdown => ?_
  obtain ⟨token, rfl, -⟩ := hs.known (hcommands ▸ List.mem_append_right _ List.mem_cons_self) rfl
  rcases hs.dirty ⟨before, after, hcommands, hdown⟩ with hlive | ⟨i, run, hi, -⟩
  · obtain ⟨live, hlive⟩ := Option.ne_none_iff_exists'.mp hlive
    obtain ⟨token', htoken, hid⟩ := live.named
    obtain rfl := Token.environmentId_injective (hid.symm.trans (hs.live hlive).1)
    refine ⟨live.handle, ⟨live, hid ▸ hlive, rfl, htoken⟩, fun env henv => henv.unique ?_⟩
    exact ⟨live, hid ▸ hlive, rfl, htoken⟩
  · cases (hidle i).symm.trans hi

end

/-- A `prepare` that is cancelled while its project starts, and stops it. -/
theorem ownership_spec_cancelled : let _ := Sha2.sha256
    let _ : Parsers := ⟨id, fun _ _ => .ok ⟨"", ""⟩, fun _ _ _ => .ok "", fun _ => .ok none,
      fun _ _ _ => .error (.other ""), fun _ _ => .ok ()⟩
    ∃ s : Calls Unit, (adapter .synthetic Unit).machine.Reaches Unguessed ⟨Shared.empty, fun _ => none⟩ s ∧
      ((∃! env, LiveUnder s "swm200000000000000000000000000000000" env) ∨
        .compose "swm200000000000000000000000000000000" .down ∈
          [Command.compose "swm200000000000000000000000000000000" .down]) := by
  intro _ _
  let target : TargetSpec := ⟨⟨"synthetic-demo", by decide⟩, ⟨"1.0.0", by decide⟩, [], List.nodup_nil⟩
  let answers : Outcome := .process (.ok (some ⟨0, "", ""⟩))
  have hrunning : ∀ {s : Calls Unit} {run}, s.running () = some run → run.call.handle? = none →
      ∀ j run, s.running j = some run → run.call.handle? = none := by
    rintro s run hrun hcall ⟨⟩ run' hrun'
    rwa [Option.some.inj (hrun'.symm.trans hrun)]
  have h := (Machine.Reaches.refl (M := (adapter .synthetic Unit).machine)
    (⟨Shared.empty, fun _ => none⟩ : Calls Unit)).step (i := ((), .start (.prepare target)))
      (unguessed_of_unhanded nofun fun _ h => Event.start.inj h ▸ rfl) rfl
  have h := h.step (i := ((), .request answers)) (unguessed_of_unhanded (hrunning rfl rfl) nofun) rfl
  have h := h.step (i := ((), .request answers)) (unguessed_of_unhanded (hrunning rfl rfl) nofun) rfl
  have h := h.step (i := ((), .request (.token "00000000000000000000000000000000")))
    (unguessed_of_unhanded (hrunning rfl rfl) nofun) rfl
  have h := h.step (i := ((), .request .answered)) (unguessed_of_unhanded (hrunning rfl rfl) nofun) rfl
  have h := h.step (i := ((), .request (.process (.error (.other "CancelledError")))))
    (unguessed_of_unhanded (hrunning rfl rfl) nofun) rfl
  have h := h.step (i := ((), .request answers)) (unguessed_of_unhanded (hrunning rfl rfl) nofun) rfl
  have h := h.step (i := ((), .finish)) (unguessed_of_unhanded (hrunning rfl rfl) nofun) rfl
  exact ⟨_, h, (ownership_spec .synthetic h).1 (fun _ => rfl) [.version, .imageInspect] _ _ rfl⟩

end StateWeaver.Compose
