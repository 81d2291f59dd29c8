import StateWeaver.Compose.Adapter

/-!
# What a call of the adapter has requested

Whatever the runner answers: a call commands only a project that it is creating or whose handle it was
given and whose lock it holds, removes a live record only after the project was stopped and cleaned up or
in a fork that fails, and does not end while a project that it created is up without being live.
-/

namespace StateWeaver.Compose

open Worlds
open Requests (Habit)
open Requests.Trace (Grows grows_append)
open Requests.Action (lift raise onError attempt meets_pure meets_raise meets_bind meets_onError
  meets_lift meets_attempt meets_request meets_ite)

/-! ## Commands -/

/-- The project that a command is about. -/
def Command.project? : Command → Option String
  | .compose project _ | .inventory project _ => some project
  | _ => none

/-- A project has been started, and no command to stop it was issued since. -/
def Dirty (commands : List Command) (project : String) : Prop :=
  ∃ before after, commands = before ++ .compose project .up :: after ∧ .compose project .down ∉ after

theorem not_dirty_nil {project : String} : ¬ Dirty [] project := by
  rintro ⟨before, after, h, -⟩
  exact List.append_ne_nil_of_right_ne_nil _ (List.cons_ne_nil _ _) h.symm

theorem dirty_append {commands : List Command} {command : Command} {project : String} :
    Dirty (commands ++ [command]) project ↔ command = .compose project .up ∨
      Dirty commands project ∧ command ≠ .compose project .down := by
  constructor
  · rintro ⟨before, after, h, hdown⟩
    rcases List.eq_nil_or_concat after with rfl | ⟨after, last, rfl⟩
    · exact Or.inl (List.singleton_inj.mp (List.append_inj' h rfl).2)
    · rw [List.concat_eq_append, ← List.cons_append, ← List.append_assoc] at h
      obtain ⟨rfl, hlast⟩ := List.append_inj' h rfl
      obtain rfl := List.singleton_inj.mp hlast
      rw [List.concat_eq_append, List.mem_append, not_or, List.mem_singleton] at hdown
      exact Or.inr ⟨⟨before, after, rfl, hdown.1⟩, Ne.symm hdown.2⟩
  · rintro (rfl | ⟨⟨before, after, rfl, hdown⟩, hne⟩)
    · exact ⟨commands, [], rfl, List.not_mem_nil⟩
    · refine ⟨before, after ++ [command], by simp, fun hmem => ?_⟩
      rcases List.mem_append.mp hmem with hmem | hmem
      · exact hdown hmem
      · exact hne (List.mem_singleton.mp hmem).symm

/-- A project that was started and is not dirty was stopped since. -/
theorem exists_down_of_not_dirty {before after : List Command} {project : String}
    (h : ¬ Dirty (before ++ .compose project .up :: after) project) : .compose project .down ∈ after :=
  by_contra fun hdown => h ⟨before, after, rfl, hdown⟩

theorem issue_eq_issued {taken : List NonEmpty} {limit : ℕ} {identity : NonEmpty}
    (h : issue taken limit identity = .issued) : identity ∉ taken := by
  rw [issue] at h
  split at h
  · cases h
  · split at h
    · cases h
    · assumption

variable [Sha256]

abbrev Exchange := Requests.Exchange Request Answer Exc

abbrev Trace := Requests.Trace Request Answer Exc

/-- The handle that a call is given. -/
def AdapterCall.handle? : AdapterCall → Option EnvironmentHandle
  | .snapshot env | .restore env _ | .destroy env => some env
  | _ => none

/-! ## Traces -/

namespace Trace

/-- The commands of a call. -/
def commands (t : Trace) : List Command :=
  t.filterMap fun x => match x.request with
    | .run command _ => some command
    | _ => none

/-- The call has issued an identity. -/
def Created (t : Trace) (token : Token) : Prop := ⟨.issueEnvironment token, .ok .issued⟩ ∈ t

/-- The call holds the lock of a live world. -/
def Holds (t : Trace) (environmentId : NonEmpty) : Prop :=
  ⟨.acquire environmentId, .ok ()⟩ ∈ t ∧ ∀ x, ⟨.release environmentId, x⟩ ∉ t

/-- The call has seen a live record. -/
def Saw (t : Trace) (live : LiveWorld) : Prop :=
  ∃ environmentId, ⟨.getLive environmentId, .ok (some live)⟩ ∈ t

/-- The call has seen a live record after it has acquired the lock of it. -/
def SawLocked (t : Trace) (live : LiveWorld) : Prop :=
  ∃ before after, t = before ++ ⟨.acquire live.handle.environmentId, .ok ()⟩ :: after ∧
    ⟨.getLive live.handle.environmentId, .ok (some live)⟩ ∈ after

/-- The call has registered a live record. -/
def Registered (t : Trace) (live : LiveWorld) : Prop := ⟨.registerLive live, .ok true⟩ ∈ t

/-- The call may command a project: it is creating it, or it was given its handle and holds its lock. -/
def Owns (call : AdapterCall) (t : Trace) (project : String) : Prop :=
  (∃ token, t.Created token ∧ token.project = project) ∨
    ∃ live, call.handle? = some live.handle ∧ t.SawLocked live ∧ live.project = project ∧
      t.Holds live.handle.environmentId

variable [Parsers] (profile : Profile)

/-- The project was stopped, and for the real profile nothing of it was left. -/
def CleanedUp (t : Trace) (project : String) : Prop :=
  ∃ (before after : Trace) (r : ProcessResult),
    t = before ++ ⟨.run (.compose project .down) none, .ok (some r)⟩ :: after ∧ r.returncode = 0 ∧
      (profile = .real → ∀ resource, ∃ r : ProcessResult,
        ⟨.run (.inventory project resource) none, .ok (some r)⟩ ∈ after ∧ r.returncode = 0 ∧
          Parsers.strip r.stdout = "")

/-- The archive of a snapshot was read back from a world, with its hashes. -/
def ReadBack (t : Trace) (live : LiveWorld) (stored : StoredSnapshot) : Prop :=
  ∃ (r : ProcessResult) (hashes : Hashes),
    ⟨.run (.compose live.project .export_) none, .ok (some r)⟩ ∈ t ∧ r.returncode = 0 ∧
      Parsers.decodeArchive profile live.imageIdentity.binding r.stdout = .ok (stored.archive, hashes) ∧
        hashes.map = stored.manifest.contentHashes

/-- The archive that the stored snapshot holds was read back from a project. -/
def Restored (t : Trace) (manifest : SnapshotManifest) (token : Token) : Prop :=
  ∃ (stored : StoredSnapshot) (live : LiveWorld),
    ⟨.getSnapshot manifest.snapshotId, .ok (some stored)⟩ ∈ t ∧ stored.manifest = manifest ∧
      t.Saw live ∧ live.project = token.project ∧ ReadBack profile t live stored

/-- The requests that a call may make. -/
def Allows (call : AdapterCall) (t : Trace) : Request → Prop
  | .run command _ => (∀ project, command.project? = some project → Owns call t project) ∧
      ∀ project env, command = .compose project .up → call ≠ .destroy env
  | .issueEnvironment _ => call.handle? = none ∧ ∀ token, ¬ t.Created token
  | .registerLive live => (∃ token, t.Created token ∧ live.handle.environmentId = token.environmentId) ∧
      ∀ live x, ⟨.discardLive live, x⟩ ∉ t
  | .discardLive live =>
      (call = .destroy live.handle ∧ t.SawLocked live ∧ t.Holds live.handle.environmentId ∧
        CleanedUp profile t live.project ∧ .compose live.project .up ∉ t.commands) ∨
      (∃ manifest, call = .fork manifest) ∧ ∃ token, t.Created token ∧
        live.handle.environmentId = token.environmentId
  | .acquire environmentId => (∃ env, call.handle? = some env ∧ env.environmentId = environmentId) ∧
      ∀ environmentId x, ⟨.acquire environmentId, x⟩ ∉ t
  | .release environmentId => t.Holds environmentId
  | _ => True

/-- How a call may end. -/
structure Ends (call : AdapterCall) (result : Except Exc Returned) (t : Trace) : Prop where
  released (environmentId : NonEmpty) : ¬ t.Holds environmentId
  /-- What it created is live or stopped. -/
  settled {token : Token} : t.Created token → ¬ Dirty t.commands token.project ∨
    (∃ live, t.Registered live ∧ live.handle.environmentId = token.environmentId) ∧
      ∀ live x, ⟨.discardLive live, x⟩ ∉ t
  returned {env : EnvironmentHandle} : result = .ok (.handle env) →
    (∃ token, t.Created token ∧ env.environmentId = token.environmentId ∧
      ∀ manifest, call = .fork manifest → t.Restored profile manifest token) ∧
      ∀ live x, ⟨.discardLive live, x⟩ ∉ t

end Trace

open Trace

/-- Only the runner and a lock can raise. -/
def discipline [Parsers] (profile : Profile) :
    Requests.Discipline AdapterCall Request Answer Exc (Except Exc Returned) where
  allowed := Allows profile
  answers r x :=
    match r with
    | .run _ _ | .acquire _ => True
    | _ => ∃ a, x = .ok a
  ends := Ends profile

variable {call : AdapterCall} {t t' t'' : Trace} {project : String} {token : Token}

/-! ## Kinds of requests -/

/-- A request that neither starts a project nor concerns another, and changes no registry of live worlds,
no lock and no environment identity. -/
def Quiet (project : String) : Request → Prop
  | .run command _ => (∀ other, command.project? = some other → other = project) ∧
      command ≠ .compose project .up
  | .newToken | .getLive _ | .issueSnapshot _ | .getSnapshot _ | .storeSnapshot _ => True
  | _ => False

/-- A request that may also start the project. -/
def Works (project : String) (r : Request) : Prop :=
  Quiet project r ∨ ∃ stdin, r = .run (.compose project .up) stdin

theorem Quiet.works {r : Request} (h : Quiet project r) : Works project r := Or.inl h

section

variable {may : Request → Prop} (hmay : ∀ r, may r → Works project r)
include hmay

theorem created_of_grows (h : Grows may t t') : t'.Created token ↔ t.Created token := by
  refine ⟨fun hx => h.mem_of_not hx fun hx => ?_, h.subset⟩
  rcases hmay _ hx with hx | ⟨stdin, hx⟩
  · exact hx
  · cases hx

omit hmay in
theorem Trace.SawLocked.grows {live : LiveWorld} (hsaw : SawLocked t live) (h : Grows may t t') :
    SawLocked t' live := by
  obtain ⟨before, after, rfl, hlive⟩ := hsaw
  obtain ⟨made, rfl, -⟩ := h
  exact ⟨before, after ++ made, List.append_assoc .., List.mem_append_left _ hlive⟩

theorem Trace.Owns.grows (howns : Owns call t project) (h : Grows may t t') : Owns call t' project := by
  refine howns.imp ?_ ?_
  · rintro ⟨token, hcreated, hproject⟩
    exact ⟨token, h.subset hcreated, hproject⟩
  · rintro ⟨live, hcall, hsaw, hproject, hacquired, hreleased⟩
    refine ⟨live, hcall, hsaw.grows h, hproject, h.subset hacquired,
      fun x hx => hreleased x (h.mem_of_not hx fun hx => ?_)⟩
    rcases hmay _ hx with hx | ⟨stdin, hx⟩
    · exact hx
    · cases hx

end

theorem commands_append (t : Trace) (x : Exchange) : commands (t ++ [x]) = commands t ++ commands [x] :=
  List.filterMap_append ..

/-- Commands that do not start a project leave it stopped. -/
theorem not_dirty_of_grows (h : Grows (Quiet project) t t') (hclean : ¬ Dirty t.commands project) :
    ¬ Dirty t'.commands project := by
  obtain ⟨made, rfl, hmade⟩ := h
  induction made generalizing t with
  | nil =>
      rw [List.append_nil]
      exact hclean
  | cons x rest ih =>
      obtain ⟨hx, hrest⟩ := List.forall_mem_cons.mp hmade
      rw [List.append_cons]
      refine ih ?_ hrest
      rw [commands_append]
      obtain ⟨r, answer⟩ := x
      cases r with
      | run command stdin =>
          change ¬ Dirty (commands t ++ [command]) project
          rw [dirty_append, not_or, not_and]
          exact ⟨hx.2, fun h => absurd h hclean⟩
      | _ =>
          change ¬ Dirty (commands t ++ []) project
          rw [List.append_nil]
          exact hclean

variable {command : Command} {stdin : Option ByteArray}

/-- A command has succeeded, and nothing else was requested. -/
def Ran (command : Command) (stdin : Option ByteArray) (t : Trace) (stdout : String) (t' : Trace) : Prop :=
  ∃ r : ProcessResult, t' = t ++ [⟨.run command stdin, .ok (some r)⟩] ∧ r.returncode = 0 ∧ r.stdout = stdout

theorem Ran.grows {may : Request → Prop} {stdout : String} (h : Ran command stdin t stdout t')
    (hmay : may (.run command stdin)) : Grows may t t' := by
  obtain ⟨r, rfl, -⟩ := h
  exact grows_append hmay

/-! ## Habits -/

/-- Requests that concern no project. -/
def Neutral (r : Request) : Prop := ∀ project, Quiet project r

def neutral : Habit Request Answer Exc := ⟨fun _ => True, Neutral, fun _ _ => trivial⟩

/-- Commands of a project, but not its start. -/
def quietly (call : AdapterCall) (project : String) : Habit Request Answer Exc :=
  ⟨fun t => Owns call t project, Quiet project, Trace.Owns.grows fun _ => Quiet.works⟩

/-- Commands of a project. -/
def working (call : AdapterCall) (project : String) : Habit Request Answer Exc :=
  ⟨fun t => Owns call t project, Works project, Trace.Owns.grows fun _ => id⟩

theorem Neutral.quiet {r : Request} (h : Neutral r) : Quiet project r := h project

theorem Neutral.works {r : Request} (h : Neutral r) : Works project r := (h project).works

/-! ## Stopping a project -/

/-- Once its stop was commanded, a project is not dirty. -/
theorem not_dirty_down {x : Except Exc (Option ProcessResult)} :
    ¬ Dirty (commands (t ++ [⟨.run (.compose project .down) none, x⟩])) project := by
  rw [commands_append]
  change ¬ Dirty (commands t ++ [.compose project .down]) project
  rw [dirty_append, not_or, not_and_not_right]
  exact ⟨nofun, fun _ => rfl⟩

theorem quiet_run (hproject : ∀ other, command.project? = some other → other = project)
    (hup : command ≠ .compose project .up) : Quiet project (.run command stdin) := ⟨hproject, hup⟩

theorem quiet_down : Quiet project (.run (.compose project .down) stdin) :=
  ⟨fun _ h => (Option.some.inj h).symm, nofun⟩

/-- The project is not dirty after a stop, and was cleaned up if that has succeeded. -/
structure Stopped (project : String) (t t' : Trace) : Prop where
  grows : Grows (Quiet project) t t'
  clean : ¬ Dirty t'.commands project

theorem Stopped.of_down {x : Except Exc (Option ProcessResult)}
    (h : Grows (Quiet project) (t ++ [⟨.run (.compose project .down) none, x⟩]) t') : Stopped project t t' :=
  ⟨(grows_append (t := t) (x := ⟨.run (.compose project .down) none, x⟩) quiet_down).trans h,
    not_dirty_of_grows h not_dirty_down⟩

/-! ## Creating a project -/

/-- The call has created nothing yet. -/
structure Fresh (t : Trace) : Prop where
  created (token : Token) : ¬ t.Created token
  discarded (live : LiveWorld) (x : Except Exc Bool) : ⟨.discardLive live, x⟩ ∉ t
  acquired (environmentId : NonEmpty) (x : Except Exc Unit) : ⟨.acquire environmentId, x⟩ ∉ t

/-- The call has created one identity. -/
structure Creating (token : Token) (t : Trace) : Prop where
  created : t.Created token
  unique {token' : Token} : t.Created token' → token' = token
  discarded (live : LiveWorld) (x : Except Exc Bool) : ⟨.discardLive live, x⟩ ∉ t
  acquired (environmentId : NonEmpty) (x : Except Exc Unit) : ⟨.acquire environmentId, x⟩ ∉ t

/-- The call leaves no lock, and nothing that it created and that is up. -/
structure Settled (t : Trace) : Prop where
  acquired (environmentId : NonEmpty) (x : Except Exc Unit) : ⟨.acquire environmentId, x⟩ ∉ t
  clean {token : Token} : t.Created token → ¬ Dirty t.commands token.project

/-- The call has created a world that is live. -/
def Opened (token : Token) (t : Trace) : Prop :=
  Creating token t ∧ ∃ live, Registered t live ∧ live.handle.environmentId = token.environmentId

theorem Fresh.settled (h : Fresh t) : Settled t := ⟨h.acquired, fun hcreated => absurd hcreated (h.created _)⟩

/-- What is not one of these requests leaves a fresh call fresh. -/
theorem Fresh.append (h : Fresh t) {x : Exchange} (hcreated : ∀ token, x ≠ ⟨.issueEnvironment token, .ok .issued⟩)
    (hdiscarded : ∀ live, x.request ≠ .discardLive live) (hacquired : ∀ id, x.request ≠ .acquire id) :
    Fresh (t ++ [x]) := by
  refine ⟨fun token hx => ?_, fun live y hx => ?_, fun id y hx => ?_⟩
  · exact (List.mem_append.mp hx).elim (h.created token) fun hx => hcreated token (List.mem_singleton.mp hx).symm
  · exact (List.mem_append.mp hx).elim (h.discarded live y) fun hx =>
      hdiscarded live (congrArg (·.request) (List.mem_singleton.mp hx).symm)
  · exact (List.mem_append.mp hx).elim (h.acquired id y) fun hx =>
      hacquired id (congrArg (·.request) (List.mem_singleton.mp hx).symm)

theorem Fresh.issued (h : Fresh t) : Creating token (t ++ [⟨.issueEnvironment token, .ok .issued⟩]) := by
  refine ⟨List.mem_append_right _ List.mem_cons_self, fun hx => ?_, fun live y hx => ?_, fun id y hx => ?_⟩
  · rcases List.mem_append.mp hx with hx | hx
    · exact absurd hx (h.created _)
    · cases List.mem_singleton.mp hx
      rfl
  · exact (List.mem_append.mp hx).elim (h.discarded live y) fun hx => nomatch List.mem_singleton.mp hx
  · exact (List.mem_append.mp hx).elim (h.acquired id y) fun hx => nomatch List.mem_singleton.mp hx

theorem not_works_discardLive {live : LiveWorld} : ¬ Works project (.discardLive live) := by
  rintro (h | ⟨stdin, h⟩)
  · exact h
  · cases h

theorem not_works_acquire {environmentId : NonEmpty} : ¬ Works project (.acquire environmentId) := by
  rintro (h | ⟨stdin, h⟩)
  · exact h
  · cases h

theorem Fresh.grows (h : Fresh t) (hgrows : Grows (Works project) t t') : Fresh t' :=
  ⟨fun token hx => h.created token ((created_of_grows (fun _ => id) hgrows).mp hx),
    fun live x hx => h.discarded live x (hgrows.mem_of_not hx not_works_discardLive),
    fun id x hx => h.acquired id x (hgrows.mem_of_not hx not_works_acquire)⟩

theorem fresh_nil : Fresh [] :=
  ⟨fun _ => List.not_mem_nil, fun _ _ => List.not_mem_nil, fun _ _ => List.not_mem_nil⟩

theorem Creating.grows (h : Creating token t) (hgrows : Grows (Works project) t t') : Creating token t' :=
  ⟨hgrows.subset h.created, fun hx => h.unique ((created_of_grows (fun _ => id) hgrows).mp hx),
    fun live x hx => h.discarded live x (hgrows.mem_of_not hx not_works_discardLive),
    fun id x hx => h.acquired id x (hgrows.mem_of_not hx not_works_acquire)⟩

theorem Creating.registered (h : Creating token t) (live : LiveWorld) (x : Except Exc Bool) :
    Creating token (t ++ [⟨.registerLive live, x⟩]) := by
  refine ⟨List.mem_append_left _ h.created, fun hx => ?_, fun live y hx => ?_, fun id y hx => ?_⟩
  · exact (List.mem_append.mp hx).elim h.unique fun hx => nomatch List.mem_singleton.mp hx
  · exact (List.mem_append.mp hx).elim (h.discarded live y) fun hx => nomatch List.mem_singleton.mp hx
  · exact (List.mem_append.mp hx).elim (h.acquired id y) fun hx => nomatch List.mem_singleton.mp hx

theorem Opened.grows (h : Opened token t) (hgrows : Grows (Works project) t t') : Opened token t' :=
  ⟨h.1.grows hgrows, h.2.imp fun _ hlive => ⟨hgrows.subset hlive.1, hlive.2⟩⟩

theorem Creating.owns (h : Creating token t) : Owns call t token.project := Or.inl ⟨token, h.created, rfl⟩

/-- A world that a fork gives up is stopped. -/
theorem Creating.settled_of_discarded (h : Creating token t) {live : LiveWorld} {x : Except Exc Bool}
    (hstopped : Stopped token.project (t ++ [⟨.discardLive live, x⟩]) t') : Settled t' := by
  refine ⟨fun environmentId y hx => ?_, fun {token'} hcreated => ?_⟩
  · have hx := hstopped.grows.mem_of_not hx id
    exact (List.mem_append.mp hx).elim (h.acquired environmentId y) fun hx =>
      nomatch List.mem_singleton.mp hx
  · have hcreated := (created_of_grows (fun _ => Quiet.works) hstopped.grows).mp hcreated
    have hcreated := (List.mem_append.mp hcreated).resolve_right fun hx => nomatch List.mem_singleton.mp hx
    rw [h.unique hcreated]
    exact hstopped.clean

theorem Creating.settled (h : Creating token t) (hstopped : Stopped token.project t t') : Settled t' := by
  have hcreating := h.grows (hstopped.grows.mono fun _ => Quiet.works)
  refine ⟨hcreating.acquired, fun hcreated => ?_⟩
  rw [hcreating.unique hcreated]
  exact hstopped.clean

/-! ## Holding a lock -/

/-- The call holds one lock and has created nothing. -/
structure Locked (env : EnvironmentHandle) (t : Trace) : Prop where
  created (token : Token) : ¬ t.Created token
  holds : t.Holds env.environmentId
  only {environmentId : NonEmpty} {x : Except Exc Unit} : ⟨.acquire environmentId, x⟩ ∈ t →
    environmentId = env.environmentId

/-- The call holds no lock and has created nothing. -/
structure Unlocked (t : Trace) : Prop where
  created (token : Token) : ¬ t.Created token
  released (environmentId : NonEmpty) : ¬ t.Holds environmentId

theorem Fresh.unlocked (h : Fresh t) : Unlocked t :=
  ⟨h.created, fun environmentId hholds => h.acquired environmentId _ hholds.1⟩

theorem Fresh.cancelled (h : Fresh t) {environmentId : NonEmpty} {e : Exc} :
    Unlocked (t ++ [⟨.acquire environmentId, .error e⟩]) := by
  refine ⟨fun token hx => ?_, fun environmentId' hholds => ?_⟩
  · exact (List.mem_append.mp hx).elim (h.created token) fun hx => nomatch List.mem_singleton.mp hx
  · exact (List.mem_append.mp hholds.1).elim (h.acquired _ _) fun hx => nomatch List.mem_singleton.mp hx

variable {env : EnvironmentHandle}

/-- Nothing was released that was not acquired. -/
theorem Fresh.locked (h : Fresh t) (hreleased : ∀ x, ⟨.release env.environmentId, x⟩ ∉ t) :
    Locked env (t ++ [⟨.acquire env.environmentId, .ok ()⟩]) := by
  refine ⟨fun token hx => ?_, ⟨List.mem_append_right _ List.mem_cons_self, fun x hx => ?_⟩, fun hx => ?_⟩
  · exact (List.mem_append.mp hx).elim (h.created token) fun hx => nomatch List.mem_singleton.mp hx
  · exact (List.mem_append.mp hx).elim (hreleased x) fun hx => nomatch List.mem_singleton.mp hx
  · rcases List.mem_append.mp hx with hx | hx
    · exact absurd hx (h.acquired _ _)
    · cases List.mem_singleton.mp hx
      rfl

theorem not_works_release {environmentId : NonEmpty} : ¬ Works project (.release environmentId) := by
  rintro (h | ⟨stdin, h⟩)
  · exact h
  · cases h

theorem Locked.grows (h : Locked env t) (hgrows : Grows (Works project) t t') : Locked env t' :=
  ⟨fun token hx => h.created token ((created_of_grows (fun _ => id) hgrows).mp hx),
    ⟨hgrows.subset h.holds.1, fun x hx => h.holds.2 x (hgrows.mem_of_not hx not_works_release)⟩,
    fun hx => h.only (hgrows.mem_of_not hx not_works_acquire)⟩

theorem Locked.owns {live : LiveWorld} (h : Locked live.handle t) (hcall : call.handle? = some live.handle)
    (hsaw : SawLocked t live) : Owns call t live.project :=
  Or.inr ⟨live, hcall, hsaw, rfl, h.holds⟩

theorem Locked.discarded (h : Locked env t) {live : LiveWorld} {x : Except Exc Bool} :
    Locked env (t ++ [⟨.discardLive live, x⟩]) := by
  refine ⟨fun token hx => ?_, ⟨List.mem_append_left _ h.holds.1, fun y hx => ?_⟩, fun hx => ?_⟩
  · exact (List.mem_append.mp hx).elim (h.created token) fun hx => nomatch List.mem_singleton.mp hx
  · exact (List.mem_append.mp hx).elim (h.holds.2 y) fun hx => nomatch List.mem_singleton.mp hx
  · exact (List.mem_append.mp hx).elim h.only fun hx => nomatch List.mem_singleton.mp hx

theorem Locked.unlocked (h : Locked env t) : Unlocked (t ++ [⟨.release env.environmentId, .ok ()⟩]) := by
  refine ⟨fun token hx => ?_, fun environmentId hholds => ?_⟩
  · exact (List.mem_append.mp hx).elim (h.created token) fun hx => nomatch List.mem_singleton.mp hx
  · have hacquired := (List.mem_append.mp hholds.1).resolve_right fun hx => nomatch List.mem_singleton.mp hx
    obtain rfl := h.only hacquired
    exact hholds.2 _ (List.mem_append_right _ List.mem_cons_self)

/-- A project that the call has not started stays so. -/
theorem not_mem_up_of_grows (h : Grows (Quiet project) t t') (hup : .compose project .up ∉ t.commands) :
    .compose project .up ∉ t'.commands := by
  obtain ⟨made, rfl, hmade⟩ := h
  rw [commands, List.filterMap_append]
  refine fun hmem => (List.mem_append.mp hmem).elim hup fun hmem => ?_
  obtain ⟨⟨r, x⟩, hx, hcommand⟩ := List.mem_filterMap.mp hmem
  cases r with
  | run command stdin => exact (hmade _ hx).2 (Option.some.inj hcommand)
  | _ => cases hcommand

theorem Fresh.neutral (h : Fresh t) (hgrows : Grows Neutral t t') : Fresh t' :=
  h.grows (hgrows.mono fun _ h => (h "").works)

theorem Opened.neutral (h : Opened token t) (hgrows : Grows Neutral t t') : Opened token t' :=
  h.grows (hgrows.mono fun _ h => (h "").works)

theorem grows_getLive {environmentId : NonEmpty} {x : Except Exc (Option LiveWorld)} :
    Grows Neutral t (t ++ [⟨.getLive environmentId, x⟩]) :=
  grows_append fun _ => trivial

/-- The live record of the handle that a call was given. -/
structure Given (call : AdapterCall) (env : EnvironmentHandle) (live : LiveWorld) (t : Trace) : Prop where
  call : call.handle? = some live.handle
  handle : live.handle = env
  fresh : Fresh t
  released (x : Except Exc Unit) : ⟨.release live.handle.environmentId, x⟩ ∉ t

theorem given_of_requireLive {env : EnvironmentHandle} {live : LiveWorld} (hcall : call.handle? = some env)
    (hgrows : Grows Neutral [] t) (hhandle : live.handle = env) : Given call env live t := by
  subst hhandle
  refine ⟨hcall, rfl, fresh_nil.neutral hgrows, fun x hx => ?_⟩
  exact absurd (hgrows.mem_of_not hx fun h => not_works_release (h "").works) List.not_mem_nil

/-! ## Requests -/

variable {Id : Type} {s s' : Shared Id} {i : Id}

/-- What a request can do to what all calls share. -/
inductive Handled (s : Shared Id) (i : Id) : (r : Request) → Except Exc (Answer r) → Shared Id → Prop where
  | run (command : Command) (stdin : Option ByteArray) (result : Except Exc (Option ProcessResult)) :
      Handled s i (.run command stdin) result { s with commands := s.commands ++ [command] }
  | newToken (hex : String) : Handled s i .newToken (.ok hex) s
  | getLive (environmentId : NonEmpty) : Handled s i (.getLive environmentId) (.ok (s.live environmentId)) s
  | registered (live : LiveWorld) (hnew : s.live live.handle.environmentId = none) :
      Handled s i (.registerLive live) (.ok true)
        { s with live := Function.update s.live live.handle.environmentId (some live) }
  | present (live : LiveWorld) : Handled s i (.registerLive live) (.ok false) s
  | discarded (live : LiveWorld) (hlive : s.live live.handle.environmentId = some live) :
      Handled s i (.discardLive live) (.ok true)
        { s with live := Function.update s.live live.handle.environmentId none }
  | absent (live : LiveWorld) : Handled s i (.discardLive live) (.ok false) s
  | issued (token : Token) (hnew : token.environmentId ∉ s.issuedEnvironments) :
      Handled s i (.issueEnvironment token) (.ok .issued)
        { s with issuedEnvironments := token.environmentId :: s.issuedEnvironments }
  | refused (token : Token) {result : Issue} (hrefused : result ≠ .issued) :
      Handled s i (.issueEnvironment token) (.ok result) s
  | issueSnapshot (token : Token) (result : Issue) (issuedSnapshots : List NonEmpty) :
      Handled s i (.issueSnapshot token) (.ok result) { s with issuedSnapshots := issuedSnapshots }
  | getSnapshot (snapshotId : NonEmpty) :
      Handled s i (.getSnapshot snapshotId) (.ok (s.snapshots snapshotId)) s
  | storeSnapshot (stored : StoredSnapshot) (fresh : Bool) (snapshots : NonEmpty → Option StoredSnapshot) :
      Handled s i (.storeSnapshot stored) (.ok fresh) { s with snapshots := snapshots }
  | acquired (environmentId : NonEmpty) (hfree : s.locks environmentId = none) :
      Handled s i (.acquire environmentId) (.ok ())
        { s with locks := Function.update s.locks environmentId (some i) }
  | cancelled (environmentId : NonEmpty) :
      Handled s i (.acquire environmentId) (.error (.other "CancelledError")) s
  | released (environmentId : NonEmpty) :
      Handled s i (.release environmentId) (.ok ())
        { s with locks := Function.update s.locks environmentId none }

theorem handled_of_handle {r : Request} {outcome : Outcome} {x : Except Exc (Answer r)}
    (h : s.handle i r outcome = some (x, s')) : Handled s i r x s' := by
  unfold Shared.handle at h
  split at h
  · cases h
    exact .run ..
  · cases h
    exact .newToken _
  · cases h
    exact .getLive _
  · next live =>
      cases hlive : s.live live.handle.environmentId with
      | none =>
          rw [hlive] at h
          cases h
          exact .registered live hlive
      | some other =>
          rw [hlive] at h
          cases h
          exact .present live
  · next live =>
      split at h
      · next hlive =>
          cases h
          exact .discarded live hlive
      · cases h
        exact .absent live
  · next token =>
      dsimp only at h
      by_cases hissued : issue s.issuedEnvironments maxIssuedEnvironments token.environmentId = .issued
      · rw [if_pos hissued, hissued] at h
        cases h
        exact .issued token (issue_eq_issued hissued)
      · rw [if_neg hissued] at h
        cases h
        exact .refused token hissued
  · next token =>
      dsimp only at h
      by_cases hissued : issue s.issuedSnapshots maxIssuedSnapshots token.snapshotId = .issued
      · rw [if_pos hissued] at h
        cases h
        exact .issueSnapshot ..
      · rw [if_neg hissued] at h
        cases h
        exact .issueSnapshot token _ s.issuedSnapshots
  · cases h
    exact .getSnapshot _
  · split at h
    · cases h
      exact .storeSnapshot _ _ s.snapshots
    · cases h
      exact .storeSnapshot ..
  · next environmentId =>
      split at h
      · next hfree =>
          cases h
          exact .acquired environmentId hfree
      · cases h
  · cases h
    exact .cancelled _
  · cases h
    exact .released _
  · cases h

end StateWeaver.Compose
