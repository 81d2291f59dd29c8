import StateWeaver.Compose.Traces

/-!
# The code of the adapter keeps its discipline
-/

namespace StateWeaver.Compose

open Worlds
open Requests (Habit)
open Requests.Trace (Grows grows_append)
open Requests.Action (lift raise onError attempt meets_pure meets_raise meets_bind meets_onError
  meets_lift meets_attempt meets_request meets_ite)
open Trace

variable [Sha256] {call : AdapterCall} {t t' t'' : Trace} {project : String} {token : Token}
  {command : Command} {stdin : Option ByteArray} {env : EnvironmentHandle}

/-! ## Running commands -/

variable [Parsers] {profile : Profile}

theorem meets_run (howns : ∀ other, command.project? = some other → Owns call t other)
    (hup : ∀ other env, command = .compose other .up → call ≠ .destroy env) :
    (run command stdin).Meets ((discipline profile).environment call) t (Ran command stdin t)
      fun _ t' => ∃ x, t' = t ++ [⟨.run command stdin, x⟩] := by
  rw [run, meets_bind, meets_onError, ask, meets_request]
  refine ⟨⟨howns, hup⟩, ?_, ?_⟩
  · rintro answer t' ⟨rfl, -⟩
    have hend : ∃ x, t ++ [(⟨.run command stdin, .ok answer⟩ : Exchange)] = t ++ [⟨.run command stdin, x⟩] :=
      ⟨_, rfl⟩
    cases answer with
    | none => exact hend
    | some result =>
        rw [meets_bind]
        refine meets_lift.mpr ⟨fun _ _ => ?_, fun _ _ => hend⟩
        rw [meets_bind]
        exact meets_lift.mpr ⟨fun _ hcode => ⟨result, rfl, Imp.require_eq_ok.mp hcode, rfl⟩, fun _ _ => hend⟩
  · rintro e t' ⟨rfl, -⟩
    exact ⟨_, rfl⟩

/-- A command of an owned project that does not start it. -/
theorem meets_compose {operation : Operation} (howns : Owns call t project) (hup : operation ≠ .up) :
    (compose project operation stdin).Meets ((discipline profile).environment call) t
      (Ran (.compose project operation) stdin t)
      fun _ t' => ∃ x, t' = t ++ [⟨.run (.compose project operation) stdin, x⟩] :=
  meets_run (fun _ h => Option.some.inj h ▸ howns) fun _ _ h => absurd (Command.compose.inj h).2 hup

/-- A command of a habit. -/
theorem within_run {H : Habit Request Answer Exc}
    (howns : ∀ t, H.ready t → ∀ other, command.project? = some other → Owns call t other)
    (hup : ∀ other env, command = .compose other .up → call ≠ .destroy env)
    (hmay : H.may (.run command stdin)) : H.Within (discipline profile) call (run command stdin) := fun t ht =>
  (meets_run (howns t ht) hup).mono (fun _ _ h => h.grows hmay) fun _ _ ⟨_, h⟩ => h ▸ grows_append hmay

/-- A command that concerns no project. -/
theorem within_run_of_none {H : Habit Request Answer Exc} (hnone : command.project? = none)
    (hmay : H.may (.run command stdin)) : H.Within (discipline profile) call (run command stdin) :=
  within_run (fun _ _ _ h => nomatch hnone.symm.trans h) (fun _ _ h => nomatch h ▸ hnone) hmay

/-- A command of a project that does not start it. -/
theorem quietly_run (hproject : ∀ other, command.project? = some other → other = project)
    (hup : command ≠ .compose project .up) :
    (quietly call project).Within (discipline profile) call (run command stdin) :=
  within_run (fun _ ht other h => hproject other h ▸ ht)
    (fun other _ h => absurd (h.trans (hproject other (h ▸ rfl) ▸ rfl)) hup) ⟨hproject, hup⟩

section

variable {H : Habit Request Answer Exc} (hmay : ∀ r, Neutral r → H.may r)
include hmay

theorem within_requireDocker : H.Within (discipline profile) call requireDocker :=
  Habit.within_bind (within_run_of_none rfl (hmay _ fun _ => ⟨nofun, nofun⟩)) fun _ => Habit.within_pure _

theorem within_requireImage : H.Within (discipline profile) call (requireImage profile) :=
  Habit.within_bind (within_run_of_none rfl (hmay _ fun _ => ⟨nofun, nofun⟩)) fun _ => Habit.within_lift _

theorem within_requireStoredSnapshot (snapshot : Worlds.SnapshotManifest) :
    H.Within (discipline profile) call (requireStoredSnapshot profile snapshot) := by
  refine Habit.within_bind (Habit.within_lift _) fun _ => Habit.within_bind
    (Habit.within_request (fun _ _ => trivial) (hmay _ fun _ => trivial)) fun found => ?_
  cases found with
  | none => exact Habit.within_raise _
  | some stored =>
      exact Habit.within_bind (Habit.within_lift _) fun _ => Habit.within_bind (Habit.within_lift _)
        fun _ => Habit.within_pure _

theorem within_allocateSnapshotId (attempts : ℕ) :
    H.Within (discipline profile) call (allocateSnapshotId attempts) := by
  induction attempts with
  | zero => exact Habit.within_raise _
  | succ attempts ih =>
      refine Habit.within_bind (Habit.within_request (fun _ _ => trivial) (hmay _ fun _ => trivial))
        fun hex => ?_
      split
      · refine Habit.within_bind (Habit.within_request (fun _ _ => trivial) (hmay _ fun _ => trivial))
          fun result => ?_
        cases result with
        | exhausted => exact Habit.within_raise _
        | taken => exact ih
        | issued => exact Habit.within_pure _
      · exact ih

end

theorem quietly_health (expected : ImageIdentity) :
    (quietly call project).Within (discipline profile) call (health profile project expected) := by
  refine Habit.within_bind (quietly_run ?_ ?_) fun stdout => Habit.within_bind (Habit.within_lift _)
    fun containerId => Habit.within_bind (within_run_of_none rfl ⟨nofun, nofun⟩) fun _ => Habit.within_lift _
  · exact fun other h => (Option.some.inj h).symm
  · split <;> exact nofun

theorem quietly_exportState (live : LiveWorld) :
    (quietly call live.project).Within (discipline profile) call (exportState profile live) :=
  Habit.within_bind (quietly_run (fun _ h => (Option.some.inj h).symm) nofun) fun _ => Habit.within_lift _

theorem quietly_importState (live : LiveWorld) (stored : StoredSnapshot) :
    (quietly call live.project).Within (discipline profile) call (importState profile live stored) :=
  Habit.within_bind (Habit.within_lift _) fun _ =>
    Habit.within_bind (quietly_run (fun _ h => (Option.some.inj h).symm) nofun) fun _ =>
      Habit.within_bind (Habit.within_lift _) fun _ => Habit.within_bind (quietly_exportState live)
        fun _ => Habit.within_lift _

theorem quietly_diagnose (project : String) :
    (quietly call project).Within (discipline profile) call (diagnoseRealStartFailure project) := by
  refine Habit.within_onError (Habit.within_bind
    (quietly_run (fun _ h => (Option.some.inj h).symm) nofun) fun _ => Habit.within_lift _) fun e => ?_
  split
  · exact Habit.within_pure _
  · exact Habit.within_raise _

theorem quietly_assertProjectClean (project : String) (resources : List Resource) :
    (quietly call project).Within (discipline profile) call (assertProjectClean project resources) := by
  induction resources with
  | nil => exact Habit.within_pure _
  | cons resource rest ih =>
      exact Habit.within_bind (quietly_run (fun _ h => (Option.some.inj h).symm) nofun) fun _ =>
        Habit.within_bind (Habit.within_lift _) fun _ => ih

theorem working_of_quietly {α : Type} {x : Call α} (h : (quietly call project).Within (discipline profile) call x) :
    (working call project).Within (discipline profile) call x := fun t ht =>
  (h t ht).mono (fun _ _ h => h.mono fun _ => Quiet.works) fun _ _ h => h.mono fun _ => Quiet.works

theorem working_startWorld (project : String) (hcall : ∀ env, call ≠ .destroy env) :
    (working call project).Within (discipline profile) call (startWorld profile project) := by
  have hup : (working call project).Within (discipline profile) call (compose project .up) :=
    within_run (fun _ ht _ h => Option.some.inj h ▸ ht) (fun _ env _ => hcall env) (Or.inr ⟨_, rfl⟩)
  refine Habit.within_onError (Habit.within_bind hup fun _ => Habit.within_pure _) fun e => ?_
  split
  · split
    · refine Habit.within_bind (working_of_quietly (quietly_diagnose project)) fun code => ?_
      split
      · split
        · exact Habit.within_raise _
        · exact Habit.within_raise _
      · exact Habit.within_raise _
    · exact Habit.within_raise _
  · exact Habit.within_raise _

theorem meets_assertProjectClean (howns : Owns call t project) (resources : List Resource) :
    (assertProjectClean project resources).Meets ((discipline profile).environment call) t
      (fun _ t' => ∃ made, t' = t ++ made ∧ ∀ resource ∈ resources, ∃ r : ProcessResult,
        ⟨.run (.inventory project resource) none, .ok (some r)⟩ ∈ made ∧ r.returncode = 0 ∧
          Parsers.strip r.stdout = "")
      fun _ _ => True := by
  induction resources generalizing t with
  | nil => exact ⟨[], (List.append_nil t).symm, fun _ h => absurd h List.not_mem_nil⟩
  | cons resource rest ih =>
      rw [assertProjectClean, meets_bind]
      refine (meets_run (fun other h => Option.some.inj h ▸ howns) (by nofun)).mono ?_ fun _ _ _ => trivial
      rintro stdout t₁ hran
      have howns₁ : Owns call t₁ project := howns.grows (fun _ => Quiet.works)
        (hran.grows ⟨fun _ h => (Option.some.inj h).symm, nofun⟩)
      obtain ⟨r, rfl, hcode, rfl⟩ := hran
      rw [meets_bind]
      refine meets_lift.mpr ⟨fun _ hblank => ?_, fun _ _ => trivial⟩
      refine (ih howns₁).mono ?_ fun _ _ _ => trivial
      rintro _ t₂ ⟨made, rfl, hmade⟩
      refine ⟨_ :: made, (List.append_cons ..).symm, fun other hother => ?_⟩
      rcases List.mem_cons.mp hother with rfl | hother
      · exact ⟨r, List.mem_cons_self, hcode, Imp.require_eq_ok.mp hblank⟩
      · obtain ⟨r', hr', hrest⟩ := hmade other hother
        exact ⟨r', List.mem_cons_of_mem _ hr', hrest⟩

theorem meets_cleanup (howns : Owns call t project) :
    (cleanup profile project).Meets ((discipline profile).environment call) t
      (fun _ t' => Stopped project t t' ∧ CleanedUp profile t' project) fun _ => Stopped project t := by
  rw [cleanup, meets_bind]
  refine (meets_compose howns (by decide)).mono ?_ ?_
  · rintro stdout t₁ ⟨r, rfl, hcode, -⟩
    have howns₁ : Owns call (t ++ [⟨.run (.compose project .down) none, .ok (some r)⟩]) project :=
      howns.grows (fun _ => Quiet.works) (grows_append quiet_down)
    rw [meets_ite]
    refine ⟨fun hreal => ?_, fun hsynthetic => ⟨.of_down (.refl _), t, [], r, rfl, hcode,
      fun hreal => absurd hreal hsynthetic⟩⟩
    refine ((quietly_assertProjectClean project _ _ howns₁).and (meets_assertProjectClean howns₁ _)).mono ?_
      fun _ _ h => .of_down h.1
    rintro _ t' ⟨hgrows, made, rfl, hmade⟩
    refine ⟨.of_down hgrows, t, made, r, List.append_cons .. ▸ rfl, hcode, fun _ resource => ?_⟩
    exact hmade resource (by cases resource <;> decide)
  · rintro e t₁ ⟨x, rfl⟩
    exact .of_down (.refl _)

theorem meets_compensatingDown (howns : Owns call t project) :
    (compensatingDown profile project).Meets ((discipline profile).environment call) t
      (fun _ => Stopped project t) fun _ _ => False := by
  rw [compensatingDown, meets_bind, meets_attempt]
  exact (meets_cleanup howns).mono (fun _ _ h => h.1) fun _ _ h => h

theorem meets_allocateEnvironmentIdentity (hcall : call.handle? = none) (hfresh : Fresh t) (attempts : ℕ) :
    (allocateEnvironmentIdentity attempts).Meets ((discipline profile).environment call) t
      (fun token t' => Creating token t') fun _ => Fresh := by
  induction attempts generalizing t with
  | zero => exact hfresh
  | succ attempts ih =>
      rw [allocateEnvironmentIdentity, meets_bind, ask, meets_request]
      refine ⟨trivial, ?_, ?_⟩
      · rintro hex t₁ ⟨rfl, -⟩
        have hfresh₁ := hfresh.append (x := ⟨.newToken, .ok hex⟩) nofun nofun nofun
        split
        · next htoken =>
            rw [meets_bind, ask, meets_request]
            refine ⟨⟨hcall, hfresh₁.created⟩, ?_, ?_⟩
            · rintro result t₂ ⟨rfl, -⟩
              cases result with
              | exhausted => exact hfresh₁.append nofun nofun nofun
              | taken => exact ih (hfresh₁.append nofun nofun nofun)
              | issued => exact hfresh₁.issued
            · rintro e t₂ ⟨-, answer, h⟩
              cases h
        · exact ih hfresh₁
      · rintro e t₁ ⟨-, answer, h⟩
        cases h

variable {target : TargetSpec} {root : Option NonEmpty} {imageIdentity : ImageIdentity}
  {source : Option SnapshotManifest}

theorem meets_createWorld (hcall : call.handle? = none) (hfresh : Fresh t) :
    (createWorld profile target root imageIdentity source).Meets ((discipline profile).environment call) t
      (fun env t' => ∃ token, Opened token t' ∧ env.environmentId = token.environmentId) fun _ => Settled := by
  rw [createWorld, meets_bind]
  refine (meets_allocateEnvironmentIdentity hcall hfresh _).mono ?_ fun _ _ => Fresh.settled
  intro token t₁ hcreating
  -- Whatever fails from here on, the project is stopped.
  have hstop : ∀ {e t₂}, Creating token t₂ → (do
      compensatingDown profile token.project
      raise e : Call Unit).Meets ((discipline profile).environment call) t₂
        (fun _ t' => Creating token t' ∧
          Registered t' (newWorld profile token target root imageIdentity source)) fun _ => Settled := by
    intro e t₂ hcreating₂
    rw [meets_bind]
    exact (meets_compensatingDown hcreating₂.owns).mono (fun _ _ => hcreating₂.settled) nofun
  rw [meets_bind]
  refine Requests.Action.Meets.mono (Q := fun _ t' => Creating token t' ∧
    Registered t' (newWorld profile token target root imageIdentity source)) ?_ ?_ fun _ _ h => h
  · rw [meets_onError, meets_bind]
    refine (working_startWorld token.project (fun _ h => nomatch h ▸ hcall) t₁ hcreating.owns).mono ?_ fun _ _ h => hstop (hcreating.grows h)
    intro _ t₂ hgrows
    have hcreating₂ := hcreating.grows hgrows
    rw [meets_bind]
    refine (quietly_health _ t₂ hcreating₂.owns).mono ?_
      fun _ _ h => hstop (hcreating₂.grows (h.mono fun _ => Quiet.works))
    intro _ t₃ hquiet
    have hcreating₃ := hcreating₂.grows (hquiet.mono fun _ => Quiet.works)
    rw [meets_bind, ask, meets_request]
    refine ⟨⟨⟨token, hcreating₃.created, rfl⟩, hcreating₃.discarded⟩, ?_, ?_⟩
    · rintro registered t₄ ⟨rfl, -⟩
      have hcreating₄ := hcreating₃.registered (newWorld profile token target root imageIdentity source)
        (.ok registered)
      refine meets_lift.mpr ⟨fun _ h => ⟨hcreating₄, ?_⟩, fun _ _ => hstop hcreating₄⟩
      obtain rfl := Imp.require_eq_ok.mp h
      exact List.mem_append_right _ List.mem_cons_self
    · rintro e t₄ ⟨-, answer, h⟩
      cases h
  · rintro _ t₂ ⟨hcreating₂, hregistered⟩
    exact ⟨token, ⟨hcreating₂, _, hregistered, rfl⟩, rfl⟩

theorem meets_prepare (target : TargetSpec) :
    (prepare profile target).Meets ((discipline profile).environment (.prepare target)) []
      (fun env t' => ∃ token, Opened token t' ∧ env.environmentId = token.environmentId) fun _ => Settled := by
  rw [prepare, meets_bind]
  refine meets_lift.mpr ⟨fun _ _ => ?_, fun _ _ => fresh_nil.settled⟩
  rw [meets_bind]
  refine (within_requireDocker (H := neutral) (fun _ => id) _ trivial).mono ?_
    fun _ _ h => (fresh_nil.neutral h).settled
  intro _ t₁ hgrows₁
  rw [meets_bind]
  refine (within_requireImage (H := neutral) (fun _ => id) _ trivial).mono ?_
    fun _ _ h => (fresh_nil.neutral (hgrows₁.trans h)).settled
  intro imageIdentity t₂ hgrows₂
  exact meets_createWorld rfl (fresh_nil.neutral (hgrows₁.trans hgrows₂))

/-! ## Forks -/

theorem meets_requireLive (env : EnvironmentHandle) :
    (requireLive profile env).Meets ((discipline profile).environment call) t
      (fun live t' => live.handle = env ∧ t' = t ++ [⟨.getLive env.environmentId, .ok (some live)⟩])
      fun _ => Grows Neutral t := by
  rw [requireLive, meets_bind]
  refine meets_lift.mpr ⟨fun _ _ => ?_, fun _ _ => .refl t⟩
  rw [meets_bind, ask, meets_request]
  have hgrows : ∀ x, Grows Neutral t (t ++ [⟨.getLive env.environmentId, x⟩]) := fun _ =>
    grows_append fun _ => trivial
  refine ⟨trivial, ?_, ?_⟩
  · rintro found t₁ ⟨rfl, -⟩
    cases found with
    | none => exact hgrows _
    | some live =>
        rw [meets_bind]
        exact meets_lift.mpr ⟨fun _ h => ⟨Imp.require_eq_ok.mp h, rfl⟩, fun _ _ => hgrows _⟩
  · rintro e t₁ ⟨rfl, -⟩
    exact hgrows _

theorem meets_requireStoredSnapshot (snapshot : SnapshotManifest) :
    (requireStoredSnapshot profile snapshot).Meets ((discipline profile).environment call) t
      (fun stored t' => Grows Neutral t t' ∧ stored.manifest = snapshot ∧
        ⟨.getSnapshot snapshot.snapshotId, .ok (some stored)⟩ ∈ t')
      fun _ => Grows Neutral t := by
  rw [requireStoredSnapshot, meets_bind]
  refine meets_lift.mpr ⟨fun _ _ => ?_, fun _ _ => .refl t⟩
  rw [meets_bind, ask, meets_request]
  have hgrows : ∀ x, Grows Neutral t (t ++ [⟨.getSnapshot snapshot.snapshotId, x⟩]) := fun _ =>
    grows_append fun _ => trivial
  refine ⟨trivial, ?_, ?_⟩
  · rintro found t₁ ⟨rfl, -⟩
    cases found with
    | none => exact hgrows _
    | some stored =>
        rw [meets_bind]
        refine meets_lift.mpr ⟨fun _ h => ?_, fun _ _ => hgrows _⟩
        rw [meets_bind]
        exact meets_lift.mpr ⟨fun _ _ => ⟨hgrows _, Imp.require_eq_ok.mp h,
          List.mem_append_right _ List.mem_cons_self⟩, fun _ _ => hgrows _⟩
  · rintro e t₁ ⟨rfl, -⟩
    exact hgrows _

theorem meets_importState {live : LiveWorld} {stored : StoredSnapshot} (howns : Owns call t live.project) :
    (importState profile live stored).Meets ((discipline profile).environment call) t
      (fun _ t' => Grows (Quiet live.project) t t' ∧ ReadBack profile t' live stored)
      fun _ => Grows (Quiet live.project) t := by
  have hread : (importState profile live stored).Meets ((discipline profile).environment call) t
      (fun _ t' => ReadBack profile t' live stored) fun _ _ => True := by
    rw [importState, meets_bind]
    refine meets_lift.mpr ⟨fun _ _ => ?_, fun _ _ => trivial⟩
    rw [meets_bind]
    refine (meets_compose howns (by decide)).mono ?_ fun _ _ _ => trivial
    intro stdout t₁ hran
    have howns₁ := howns.grows (fun _ => Quiet.works) (hran.grows
      (quiet_run (fun _ h => (Option.some.inj h).symm) nofun))
    rw [meets_bind]
    refine meets_lift.mpr ⟨fun _ _ => ?_, fun _ _ => trivial⟩
    rw [meets_bind, exportState, meets_bind]
    refine (meets_compose howns₁ (by decide)).mono ?_ fun _ _ _ => trivial
    rintro _ t₂ ⟨r, rfl, hcode, rfl⟩
    refine meets_lift.mpr ⟨?_, fun _ _ => trivial⟩
    rintro ⟨archive, hashes⟩ hdecode
    refine meets_lift.mpr ⟨fun _ h => ?_, fun _ _ => trivial⟩
    obtain ⟨rfl, hsame⟩ := Imp.require_eq_ok.mp h
    exact ⟨r, hashes, List.mem_append_right _ List.mem_cons_self, hcode, hdecode, hsame⟩
  exact ((quietly_importState live stored t howns).and hread).mono (fun _ _ h => h) fun _ _ h => h.1

/-- A fork returns only what it has restored, and otherwise leaves nothing that is up and not live. -/
theorem meets_fork (snapshot : SnapshotManifest) :
    (fork profile snapshot).Meets ((discipline profile).environment (.fork snapshot)) []
      (fun env t' => ∃ token, Opened token t' ∧ env.environmentId = token.environmentId ∧
        Restored profile t' snapshot token)
      fun _ t' => Settled t' ∨ ∃ token, Opened token t' := by
  rw [fork, meets_bind]
  refine (meets_requireStoredSnapshot snapshot).mono ?_ fun _ _ h => Or.inl (fresh_nil.neutral h).settled
  rintro stored t₁ ⟨hgrows₁, hmanifest, hstored⟩
  rw [meets_bind]
  refine (within_requireDocker (H := neutral) (fun _ => id) _ trivial).mono ?_
    fun _ _ h => Or.inl (fresh_nil.neutral (hgrows₁.trans h)).settled
  intro _ t₂ hgrows₂
  have hfresh₂ := fresh_nil.neutral (hgrows₁.trans hgrows₂)
  rw [meets_bind]
  refine (within_requireImage (H := neutral) (fun _ => id) _ trivial).mono ?_
    fun _ _ h => Or.inl (hfresh₂.neutral h).settled
  intro imageIdentity t₃ hgrows₃
  have hfresh₃ := hfresh₂.neutral hgrows₃
  rw [meets_bind]
  refine meets_lift.mpr ⟨fun _ _ => ?_, fun _ _ => Or.inl hfresh₃.settled⟩
  rw [meets_bind]
  refine (meets_createWorld rfl hfresh₃).extends.mono ?_ fun _ _ h => Or.inl h.1
  rintro env t₄ ⟨⟨token, hopened, henv⟩, hextends⟩
  rw [meets_bind]
  refine (meets_requireLive env).mono ?_ fun _ _ h => Or.inr ⟨token, hopened.neutral h⟩
  rintro live t₅ ⟨rfl, ht₅⟩
  have hgrows₅ : Grows Neutral t₄ t₅ := ht₅ ▸ grows_getLive
  have hlive : ⟨.getLive live.handle.environmentId, .ok (some live)⟩ ∈ t₅ :=
    ht₅ ▸ List.mem_append_right _ List.mem_cons_self
  have hopened₅ := hopened.neutral hgrows₅
  -- The live record is that of the new project.
  have hproject : live.project = token.project := by
    obtain ⟨token', hproject, henvironment⟩ := live.named
    rw [hproject, Token.environmentId_injective (henvironment.symm.trans henv)]
  have howns : Owns (.fork snapshot) t₅ live.project := hproject ▸ hopened₅.1.owns
  have hstored₅ : ⟨.getSnapshot snapshot.snapshotId, .ok (some stored)⟩ ∈ t₅ :=
    hgrows₅.subset (hextends.subset (hgrows₃.subset (hgrows₂.subset hstored)))
  rw [meets_bind, meets_onError]
  refine (meets_importState howns).mono ?_ ?_
  · rintro _ t₆ ⟨hquiet, hread⟩
    refine ⟨token, hopened₅.grows (hproject ▸ hquiet.mono fun _ => Quiet.works), henv, stored, live,
      hquiet.subset hstored₅, hmanifest, ⟨_, hquiet.subset hlive⟩, hproject, hread⟩
  · intro e t₆ hquiet
    have hcreating := hopened₅.1.grows (hproject ▸ hquiet.mono fun _ => Quiet.works)
    rw [meets_bind, ask, meets_request]
    refine ⟨Or.inr ⟨⟨snapshot, rfl⟩, token, hcreating.created, henv⟩, ?_, ?_⟩
    · rintro x t₇ ⟨rfl, -⟩
      rw [meets_bind, hproject]
      refine (meets_compensatingDown (Or.inl ⟨token, List.mem_append_left _ hcreating.created, rfl⟩)).mono ?_ nofun
      exact fun _ _ h => Or.inl (hcreating.settled_of_discarded h)
    · rintro x t₇ ⟨-, answer, h⟩
      cases h

/-! ## Operations on a live world -/

/-- What runs under a lock releases it. -/
theorem meets_withLock {α : Type} {live : LiveWorld} {body : Call α} (hcall : call.handle? = some live.handle)
    (hfresh : Fresh t) (hreleased : ∀ x, ⟨.release live.handle.environmentId, x⟩ ∉ t)
    (hbody : Locked live.handle (t ++ [⟨.acquire live.handle.environmentId, .ok ()⟩]) →
      body.Meets ((discipline profile).environment call)
        (t ++ [⟨.acquire live.handle.environmentId, .ok ()⟩]) (fun _ => Locked live.handle)
        fun _ => Locked live.handle) :
    (withLock live body).Meets ((discipline profile).environment call) t (fun _ => Unlocked)
      fun _ => Unlocked := by
  have hrelease : ∀ {result : Except Exc α} {t'}, Locked live.handle t' → (do
      ask (.release live.handle.environmentId)
      lift result : Call α).Meets ((discipline profile).environment call) t' (fun _ => Unlocked)
        fun _ => Unlocked := by
    intro result t' hlocked
    rw [meets_bind, ask, meets_request]
    refine ⟨hlocked.holds, ?_, ?_⟩
    · rintro _ t'' ⟨rfl, -⟩
      exact meets_lift.mpr ⟨fun _ _ => hlocked.unlocked, fun _ _ => hlocked.unlocked⟩
    · rintro e t'' ⟨-, answer, h⟩
      cases h
  rw [withLock, meets_bind, ask, meets_request]
  refine ⟨⟨⟨live.handle, hcall, rfl⟩, hfresh.acquired⟩, ?_, ?_⟩
  · rintro _ t₁ ⟨rfl, -⟩
    rw [meets_bind, meets_attempt]
    exact (hbody (hfresh.locked hreleased)).mono (fun _ _ => hrelease) fun _ _ => hrelease
  · rintro e t₁ ⟨rfl, -⟩
    exact hfresh.cancelled

/-- Under the lock the live record is seen again. -/
theorem meets_requireSameLive (env : EnvironmentHandle) (expected : LiveWorld) :
    (requireSameLive profile env expected).Meets ((discipline profile).environment call) t
      (fun live t' => live = expected ∧ live.handle = env ∧
        t' = t ++ [⟨.getLive env.environmentId, .ok (some live)⟩]) fun _ => Grows Neutral t := by
  rw [requireSameLive, meets_bind]
  refine (meets_requireLive env).mono ?_ fun _ _ h => h
  rintro live t₁ ⟨hhandle, rfl⟩
  rw [meets_bind]
  exact meets_lift.mpr ⟨fun _ h => ⟨Imp.require_eq_ok.mp h, hhandle, rfl⟩, fun _ _ => grows_getLive⟩

/-- An operation under the lock of the live world that a call was given. -/
theorem meets_locked {α : Type} {env : EnvironmentHandle} {live : LiveWorld} {f : LiveWorld → Call α}
    (hgiven : Given call env live t)
    (hf : (working call live.project).Within (discipline profile) call (f live)) :
    (withLock live (requireSameLive profile env live >>= f)).Meets ((discipline profile).environment call) t
      (fun _ => Unlocked) fun _ => Unlocked := by
  refine meets_withLock hgiven.call hgiven.fresh hgiven.released fun hlocked => ?_
  have hworks : ∀ {t t' : Trace}, Grows Neutral t t' → Grows (Works live.project) t t' := fun h =>
    h.mono fun _ => Neutral.works
  rw [meets_bind]
  refine (meets_requireSameLive env live).mono ?_ fun _ _ h => hlocked.grows (hworks h)
  rintro _ t₁ ⟨rfl, rfl, ht₁⟩
  have hlocked₁ := hlocked.grows (hworks (ht₁ ▸ grows_getLive))
  have hsaw : SawLocked t₁ _ := ⟨t, _, ht₁.trans (List.append_assoc ..), List.mem_cons_self⟩
  refine (hf _ (hlocked₁.owns hgiven.call hsaw)).mono ?_ ?_
  · exact fun _ _ => hlocked₁.grows
  · exact fun _ _ => hlocked₁.grows

theorem meets_snapshot (env : EnvironmentHandle) :
    (snapshot profile env).Meets ((discipline profile).environment (.snapshot env)) [] (fun _ => Unlocked)
      fun _ => Unlocked := by
  rw [snapshot, meets_bind]
  refine (meets_requireLive env).mono ?_ fun _ _ h => (fresh_nil.neutral h).unlocked
  rintro live t₁ ⟨hhandle, rfl⟩
  refine meets_locked (given_of_requireLive rfl grows_getLive hhandle) ?_
  refine Habit.within_bind (within_allocateSnapshotId (fun _ => Neutral.works) _) fun snapshotId => ?_
  refine Habit.within_bind (working_of_quietly (quietly_health _)) fun _ => ?_
  refine Habit.within_bind (working_of_quietly (quietly_exportState live)) fun exported => ?_
  refine Habit.within_bind (Habit.within_request (fun _ _ => trivial) (Or.inl trivial)) fun fresh => ?_
  exact Habit.within_bind (Habit.within_lift _) fun _ => Habit.within_pure _

theorem working_compensatingDown (project : String) :
    (working call project).Within (discipline profile) call (compensatingDown profile project) := fun _ ht =>
  (meets_compensatingDown ht).mono (fun _ _ h => h.grows.mono fun _ => Quiet.works) nofun

theorem meets_restore (env : EnvironmentHandle) (manifest : SnapshotManifest) :
    (restore profile env manifest).Meets ((discipline profile).environment (.restore env manifest)) []
      (fun _ => Unlocked) fun _ => Unlocked := by
  rw [restore, meets_bind]
  refine (meets_requireLive env).mono ?_ fun _ _ h => (fresh_nil.neutral h).unlocked
  rintro live t₁ ⟨hhandle, rfl⟩
  refine meets_locked (given_of_requireLive rfl grows_getLive hhandle) ?_
  refine Habit.within_bind (within_requireStoredSnapshot (fun _ => Neutral.works) _) fun stored => ?_
  refine Habit.within_bind (Habit.within_lift _) fun _ => Habit.within_bind (Habit.within_lift _) fun _ =>
    Habit.within_bind (Habit.within_lift _) fun _ => Habit.within_bind (Habit.within_lift _) fun _ => ?_
  refine Habit.within_bind (within_requireImage fun _ => Neutral.works) fun _ =>
    Habit.within_bind (Habit.within_lift _) fun _ => Habit.within_onError ?_ fun _ => ?_
  · refine Habit.within_bind (working_of_quietly (quietly_run (fun _ h => (Option.some.inj h).symm) nofun))
      fun _ => Habit.within_bind (working_startWorld live.project nofun) fun _ => Habit.within_bind
        (working_of_quietly (quietly_health _)) fun _ => working_of_quietly (quietly_importState live stored)
  · exact Habit.within_bind (working_compensatingDown live.project) fun _ => Habit.within_raise _

/-- What `destroy` does under the lock. -/
theorem meets_destroyLocked (profile : Profile) {live : LiveWorld} {t₀ : Trace}
    (ht : t = t₀ ++ [⟨.acquire live.handle.environmentId, .ok ()⟩]) (hlocked : Locked live.handle t)
    (hup : .compose live.project .up ∉ t.commands) : (do
      match ← ask (.getLive live.handle.environmentId) with
      | none => return ()
      | some current => do
          require (current = live ∧ current.handle = live.handle)
            (.adapter "environment is not owned by this adapter")
          cleanup profile live.project
          let discarded ← ask (.discardLive live)
          require (discarded = true) (.adapter "environment ownership changed during destroy") : Call Unit).Meets
      ((discipline profile).environment (.destroy live.handle)) t (fun _ => Locked live.handle)
        fun _ => Locked live.handle := by
  have hquiet : ∀ x, Grows (Quiet live.project) t (t ++ [⟨.getLive live.handle.environmentId, x⟩]) := fun _ =>
    grows_append trivial
  have hlocked₁ := fun x => hlocked.grows ((hquiet x).mono fun _ => Quiet.works)
  rw [meets_bind, ask, meets_request]
  refine ⟨trivial, ?_, fun e t₁ h => h.1 ▸ hlocked₁ _⟩
  rintro current t₁ ⟨rfl, -⟩
  cases current with
  | none => exact hlocked₁ _
  | some current =>
      rw [meets_bind]
      refine meets_lift.mpr ⟨fun _ hsame => ?_, fun _ _ => hlocked₁ _⟩
      obtain rfl := (Imp.require_eq_ok.mp hsame).1
      have hsaw : SawLocked (t ++ [⟨.getLive current.handle.environmentId, .ok (some current)⟩]) current :=
        ⟨t₀, _, by rw [ht, List.append_assoc, List.singleton_append], List.mem_cons_self⟩
      rw [meets_bind]
      refine (meets_cleanup ((hlocked₁ _).owns rfl hsaw)).mono ?_
        fun _ _ h => (hlocked₁ _).grows (h.grows.mono fun _ => Quiet.works)
      rintro _ t₂ ⟨hstopped, hcleaned⟩
      have hlocked₂ := (hlocked₁ _).grows (hstopped.grows.mono fun _ => Quiet.works)
      rw [meets_bind, ask, meets_request]
      refine ⟨Or.inl ⟨rfl, hsaw.grows hstopped.grows, hlocked₂.holds, hcleaned,
        not_mem_up_of_grows ((hquiet _).trans hstopped.grows) hup⟩, ?_, fun e t₃ h => h.1 ▸ hlocked₂.discarded⟩
      rintro discarded t₃ ⟨rfl, -⟩
      exact meets_lift.mpr ⟨fun _ _ => hlocked₂.discarded, fun _ _ => hlocked₂.discarded⟩

theorem meets_destroy (env : EnvironmentHandle) :
    (destroy profile env).Meets ((discipline profile).environment (.destroy env)) [] (fun _ => Unlocked)
      fun _ => Unlocked := by
  rw [destroy, meets_bind]
  refine meets_lift.mpr ⟨fun _ _ => ?_, fun _ _ => fresh_nil.unlocked⟩
  have hgrows : ∀ x : Except Exc (Option LiveWorld),
      Grows Neutral ([] : Trace) ([] ++ [⟨.getLive env.environmentId, x⟩]) := fun _ =>
    grows_append fun _ => trivial
  refine meets_bind.mpr (meets_request.mpr
    ⟨trivial, ?_, fun e t₁ h => h.1 ▸ (fresh_nil.neutral (hgrows _)).unlocked⟩)
  rintro found t₁ ⟨rfl, -⟩
  cases found with
  | none => exact (fresh_nil.neutral (hgrows _)).unlocked
  | some live =>
      rw [meets_bind]
      refine meets_lift.mpr ⟨fun _ hhandle => ?_, fun _ _ => (fresh_nil.neutral (hgrows _)).unlocked⟩
      obtain rfl := Imp.require_eq_ok.mp hhandle
      have hgiven : Given (.destroy live.handle) live.handle live _ :=
        given_of_requireLive rfl (hgrows (.ok (some live))) rfl
      refine meets_withLock hgiven.call hgiven.fresh hgiven.released fun hlocked => ?_
      convert meets_destroyLocked profile rfl hlocked List.not_mem_nil using 3
      rename_i current
      cases current <;> rfl

/-! ## Every call -/

theorem Unlocked.ends {result : Except Exc Returned} (h : Unlocked t)
    (hresult : ∀ env, result ≠ .ok (.handle env)) : Ends profile call result t :=
  ⟨h.released, fun hcreated => absurd hcreated (h.created _), fun heq => absurd heq (hresult _)⟩

theorem Settled.ends {e : Exc} (h : Settled t) : Ends profile call (.error e) t :=
  ⟨fun _ hholds => h.acquired _ _ hholds.1, fun hcreated => Or.inl (h.clean hcreated), nofun⟩

theorem Opened.ends {result : Except Exc Returned} (h : Opened token t)
    (hresult : ∀ env, result = .ok (.handle env) → env.environmentId = token.environmentId ∧
      ∀ manifest, call = .fork manifest → Restored profile t manifest token) : Ends profile call result t := by
  refine ⟨fun _ hholds => h.1.acquired _ _ hholds.1, fun hcreated => ?_, fun heq => ?_⟩
  · rw [h.1.unique hcreated]
    exact Or.inr ⟨h.2, h.1.discarded⟩
  · obtain ⟨henv, hrestored⟩ := hresult _ heq
    exact ⟨⟨token, h.1.created, henv, hrestored⟩, h.1.discarded⟩

theorem meets_action {x : Call Returned}
    (h : x.Meets ((discipline profile).environment call) [] (fun a => Ends profile call (.ok a))
      fun e => Ends profile call (.error e)) :
    Requests.Program.Meets ((discipline profile).environment call) x [] (Ends profile call) :=
  Requests.Program.Meets.mono h fun result _ hend => by
    cases result with
    | ok a => exact hend
    | error e => exact hend

/-- The code of every call keeps the discipline. -/
theorem meets_action_ends (call : AdapterCall) :
    (action profile call).Meets ((discipline profile).environment call) [] (fun a => Ends profile call (.ok a))
      fun e => Ends profile call (.error e) := by
  cases call with
  | prepare target =>
      rw [action, meets_bind]
      refine (meets_prepare target).mono ?_ fun _ _ => Settled.ends
      rintro env t ⟨token, hopened, henv⟩
      refine hopened.ends fun env' heq => ?_
      cases heq
      exact ⟨henv, nofun⟩
  | fork manifest =>
      rw [action, meets_bind]
      refine (meets_fork manifest).mono ?_ ?_
      · rintro env t ⟨token, hopened, henv, hrestored⟩
        refine hopened.ends fun env' heq => ?_
        cases heq
        exact ⟨henv, fun manifest' hcall => AdapterCall.fork.inj hcall ▸ hrestored⟩
      · rintro e t (hsettled | ⟨token, hopened⟩)
        · exact hsettled.ends
        · exact hopened.ends fun _ heq => nomatch heq
  | snapshot env =>
      rw [action, meets_bind]
      exact (meets_snapshot env).mono (fun _ _ h => h.ends fun _ heq => nomatch heq)
        fun _ _ h => h.ends fun _ heq => nomatch heq
  | restore env manifest =>
      rw [action, meets_bind]
      exact (meets_restore env manifest).mono (fun _ _ h => h.ends fun _ heq => nomatch heq)
        fun _ _ h => h.ends fun _ heq => nomatch heq
  | destroy env =>
      rw [action, meets_bind]
      exact (meets_destroy env).mono (fun _ _ h => h.ends fun _ heq => nomatch heq)
        fun _ _ h => h.ends fun _ heq => nomatch heq

/-- Whatever the runner answers, every call keeps the discipline. -/
theorem obeys (profile : Profile) (Id : Type) : (adapter profile Id).Obeys (discipline profile) where
  meets call := meets_action (meets_action_ends call)
  answers h := by
    cases handled_of_handle h with
    | run => trivial
    | acquired => trivial
    | cancelled => trivial
    | _ => exact ⟨_, rfl⟩

end StateWeaver.Compose
