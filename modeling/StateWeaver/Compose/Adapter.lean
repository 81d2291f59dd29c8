import StateWeaver.Worlds.Models
import StateWeaver.Lib.Concurrent

/-!
# The Compose adapter

Every world is a Compose project that the adapter starts, and stops with all volumes. A project has a name of
its own, which is made of 32 random hexadecimal digits; the environment identity, the handle and all resources
are named after it, so different projects share nothing. The registry of live worlds, the retained snapshots and the issued identities are shared between calls; a lock of each live
world lets one operation at a time use it. A command is a request to the process runner, which may answer
anything or raise, also because the call was cancelled.
-/

namespace StateWeaver.Compose

open Worlds
open Requests (Component Program)
open Requests.Action (lift raise onError attempt)

/-! ## Identities -/

/-- The pattern of `uuid.uuid4().hex`. -/
def isToken (hex : String) : Bool :=
  hex.toList.length == 32 && hex.toList.all fun c => ('0' ≤ c && c ≤ '9') || ('a' ≤ c && c ≤ 'f')

/-- A random token of 32 hexadecimal digits. -/
structure Token where
  hex : String
  matchesPattern : isToken hex = true
  deriving DecidableEq

theorem isAlphanum_of_isHex {c : Char} (h : (('0' ≤ c && c ≤ '9') || ('a' ≤ c && c ≤ 'f')) = true) :
    c.isAlphanum = true := by
  simp only [Char.isAlphanum, Char.isAlpha, Char.isLower, Char.isUpper, Char.isDigit, Bool.or_eq_true,
    Bool.and_eq_true, decide_eq_true_eq] at h ⊢
  rcases h with h | h
  · exact Or.inr h
  · exact Or.inl (Or.inr ⟨h.1, Char.le_trans h.2 (by decide)⟩)

/-- A name that ends in a token. -/
theorem isNonEmpty_append {start : String} (hstart : start.toList.length ≤ 128)
    (hchars : start.toList.all (fun c => c.isAlphanum || ['.', '_', ':', '-'].contains c) = true)
    (token : Token) : isNonEmpty (start ++ token.hex) = true := by
  obtain ⟨hlength, hhex⟩ := Bool.and_eq_true_iff.mp token.matchesPattern
  have hlength := beq_iff_eq.mp hlength
  rw [isNonEmpty, String.toList_append, List.length_append, hlength, List.all_append, hchars]
  simp only [Bool.and_eq_true, decide_eq_true_eq, Bool.true_and]
  refine ⟨⟨by omega, by omega⟩, List.all_eq_true.mpr fun c hc => ?_⟩
  rw [isAlphanum_of_isHex (List.all_eq_true.mp hhex c hc), Bool.true_or]

/-- A name that ends in a token. -/
def Token.name (token : Token) (start : String) (hstart : start.toList.length ≤ 128 := by decide)
    (hchars : start.toList.all (fun c => c.isAlphanum || ['.', '_', ':', '-'].contains c) = true := by decide) :
    NonEmpty :=
  ⟨start ++ token.hex, isNonEmpty_append hstart hchars token⟩

namespace Token

variable {token token' : Token}

/-- The name of the Compose project. -/
def project (token : Token) : String := "swm2" ++ token.hex

def environmentId (token : Token) : NonEmpty := token.name "environment:"

def snapshotId (token : Token) : NonEmpty := token.name "snapshot:"

theorem project_injective (h : token.project = token'.project) : token = token' := by
  obtain ⟨hex, hhex⟩ := token
  obtain ⟨hex', hhex'⟩ := token'
  obtain rfl : hex = hex' := (String.append_right_inj _).mp h
  rfl

theorem environmentId_injective (h : token.environmentId = token'.environmentId) : token = token' := by
  obtain ⟨hex, hhex⟩ := token
  obtain ⟨hex', hhex'⟩ := token'
  obtain rfl : hex = hex' := (String.append_right_inj _).mp (congrArg NonEmpty.val h)
  rfl

end Token

/-! ## Exceptions -/

inductive Exc where
  /-- `ComposeAdapterError`. -/
  | adapter (message : String)
  /-- `ComposeUnavailableError`. -/
  | unavailable (message : String)
  | fileNotFound
  /-- `ProcessBoundaryError`, by its code. -/
  | boundary (code : String)
  /-- Another exception, by the name of its class; `CancelledError` is one. -/
  | other (name : String)
  deriving DecidableEq

/-- What `_diagnose_real_start_failure` passes over. -/
def Exc.isUndiagnosed : Exc → Bool
  | .adapter _ | .unavailable _ => true
  | .other name => name ∈ ["ValueError", "JSONDecodeError", "UnicodeEncodeError", "RecursionError"]
  | _ => false

/-! ## Profiles -/

/-- `_SYNTHETIC_PROFILE` and `_REAL_PROFILE`. -/
inductive Profile where
  | synthetic | real
  deriving DecidableEq

namespace Profile

def pin : Profile → AdapterPin
  | synthetic => ⟨⟨"docker-compose-synthetic", by decide⟩, ⟨"0.1.0", by decide⟩⟩
  | real => ⟨⟨"docker-compose-real-providers", by decide⟩, ⟨"0.1.0", by decide⟩⟩

def targetId : Profile → String
  | synthetic => "synthetic-demo"
  | real => "real-provider-demo"

def targetVersion : Profile → String
  | synthetic | real => "1.0.0"

end Profile

/-- `_QUOTAS`. -/
def quotas : ResourceQuotas := ⟨60, 512, 64, 1000, 4, by decide⟩

def identityAllocationAttempts : ℕ := 32

def maxIssuedEnvironments : ℕ := 4096

def maxIssuedSnapshots : ℕ := 256

def maxProcessStreamBytes : ℕ := 1048576

/-! ## Commands -/

/-- The Compose operations: `up --detach --wait --no-build`, `down --volumes --remove-orphans`,
`ps --format json` with or without the service, and the state bridge with `export` or `import`. -/
inductive Operation where
  | up | down | ps | psService | export_ | import_
  deriving DecidableEq

/-- `_PROJECT_INVENTORY_OPERATIONS`. -/
inductive Resource where
  | ps | network | volume
  deriving DecidableEq

/-- A command of the grammar that the runner admits. -/
inductive Command where
  | version
  | imageInspect
  | inspect (containerId : String)
  | compose (project : String) (operation : Operation)
  | inventory (project : String) (resource : Resource)
  deriving DecidableEq

structure ProcessResult where
  returncode : ℤ
  stdout : String
  stderr : String
  deriving DecidableEq

/-! ## Worlds and snapshots -/

structure ImageIdentity where
  binding : String
  bridge : String
  deriving DecidableEq

/-- The content hashes of an archive, which cover all components. -/
structure Hashes where
  map : SortedMap NonEmpty Digest
  complete : ∀ name ∈ requiredComponents, name ∈ map.entries.map fun e => e.1.val

theorem Hashes.map_injective : Function.Injective map := by
  rintro ⟨⟩ ⟨⟩ h
  simpa using h

instance instDecidableEqHashes : DecidableEq Hashes := Hashes.map_injective.decidableEq

variable [Sha256]

structure LiveWorld [Sha256] where
  project : String
  target : TargetSpec
  rootSnapshotId : NonEmpty
  handle : EnvironmentHandle
  imageIdentity : ImageIdentity
  sourceSnapshot : Option SnapshotManifest
  /-- Project and environment are named after one token. -/
  named : ∃ token : Token, project = token.project ∧ handle.environmentId = token.environmentId
  deriving DecidableEq

structure StoredSnapshot [Sha256] where
  manifest : SnapshotManifest
  archive : ByteArray
  imageIdentity : ImageIdentity

/-- What the adapter makes of the output of a command. -/
class Parsers where
  /-- `str.strip`. -/
  strip : String → String
  /-- The identity of the image in `_require_image`. -/
  imageIdentity : Profile → String → Except Exc ImageIdentity
  /-- The container of the single healthy row in `_health`. -/
  containerId : Profile → String → String → Except Exc String
  /-- The code of the first service that is not healthy in `_diagnose_real_start_failure`. -/
  startFailure : String → Except Exc (Option String)
  /-- `_decode_archive`. -/
  decodeArchive : Profile → String → String → Except Exc (ByteArray × Hashes)
  /-- The acknowledgement of `import` in `_import_state`. -/
  acknowledged : Profile → String → Except Exc Unit

/-! ## Requests -/

inductive Issue where
  | exhausted | taken | issued
  deriving DecidableEq

inductive Request [Sha256] where
  | run (command : Command) (stdin : Option ByteArray)
  /-- `uuid.uuid4().hex`. -/
  | newToken
  | getLive (environmentId : NonEmpty)
  | registerLive (live : LiveWorld)
  | discardLive (live : LiveWorld)
  | issueEnvironment (token : Token)
  | issueSnapshot (token : Token)
  | getSnapshot (snapshotId : NonEmpty)
  | storeSnapshot (stored : StoredSnapshot)
  /-- The lock of a live world. -/
  | acquire (environmentId : NonEmpty)
  | release (environmentId : NonEmpty)

/-- The answers. A runner may return something that is no result. -/
@[reducible]
def Answer : Request → Type
  | .run _ _ => Option ProcessResult
  | .newToken => String
  | .getLive _ => Option LiveWorld
  | .registerLive _ | .discardLive _ | .storeSnapshot _ => Bool
  | .issueEnvironment _ | .issueSnapshot _ => Issue
  | .getSnapshot _ => Option StoredSnapshot
  | .acquire _ | .release _ => Unit

abbrev Call (α : Type) := Requests.Action Request Answer Exc α

/-- Make a request. -/
def ask (r : Request) : Call (Answer r) := Requests.Action.request r

/-- Raise unless a condition holds. -/
def require (c : Prop) [Decidable c] (e : Exc) : Call Unit := lift (Imp.require c e)

/-! ## Running commands -/

/-- What `_run` makes of an exception of the runner. -/
def boundaryError : Exc → Exc
  | .fileNotFound => .unavailable "docker executable is unavailable"
  | .boundary code =>
      if code = "process-deadline-exceeded" then
        .unavailable "local Docker Compose command exceeded its fixed deadline"
      else .adapter "local Docker Compose process exceeded its fixed output boundary"
  | e => e

/-- `_run`. -/
def run (command : Command) (stdin : Option ByteArray := none) : Call String := do
  match ← onError (ask (.run command stdin)) fun e => raise (boundaryError e) with
  | none => raise (.adapter "process runner returned an invalid result")
  | some result => do
      require (result.stdout.utf8ByteSize ≤ maxProcessStreamBytes ∧
          result.stderr.utf8ByteSize ≤ maxProcessStreamBytes)
        (.adapter "process output exceeds the fixed archive boundary")
      require (result.returncode = 0) (.unavailable "local Docker Compose command failed")
      return result.stdout

/-- `_compose`. -/
def compose (project : String) (operation : Operation) (stdin : Option ByteArray := none) : Call String :=
  run (.compose project operation) stdin

/-- `_require_docker`. -/
def requireDocker : Call Unit := do
  let _ ← run .version
  return ()

variable [Parsers] (profile : Profile)

/-- `_require_image`. -/
def requireImage : Call ImageIdentity := do
  let stdout ← run .imageInspect
  lift (Parsers.imageIdentity profile stdout)

def diagnosticUnavailable : String := "real-provider-start-diagnostic-unavailable"

/-- `_diagnose_real_start_failure`. -/
def diagnoseRealStartFailure (project : String) : Call (Option String) :=
  onError
    (do
      let stdout ← compose project .ps
      lift (Parsers.startFailure stdout))
    fun e => if e.isUndiagnosed then return some diagnosticUnavailable else raise e

/-- `_start_world`. -/
def startWorld (project : String) : Call Unit :=
  onError
    (do
      let _ ← compose project .up
      return ())
    fun e =>
      match e with
      | .unavailable _ =>
          if profile = .real then do
            match ← diagnoseRealStartFailure project with
            | some code => if code = diagnosticUnavailable then raise e else raise (.unavailable code)
            | none => raise e
          else raise e
      | e => raise e

/-- `_health`. -/
def health (project : String) (expected : ImageIdentity) : Call Unit := do
  let stdout ← compose project (if profile = .real then .psService else .ps)
  let containerId ← lift (Parsers.containerId profile project stdout)
  let image ← run (.inspect containerId)
  require (Parsers.strip image = expected.bridge) (.adapter "running container image identity is invalid")

/-- `_assert_project_clean`, from a resource on. -/
def assertProjectClean (project : String) : List Resource → Call Unit
  | [] => return ()
  | resource :: rest => do
      let stdout ← run (.inventory project resource)
      require (Parsers.strip stdout = "") (.adapter "fixed Compose cleanup inventory is not empty")
      assertProjectClean project rest

/-- Stop a project, and look whether anything of it is left. -/
def cleanup (project : String) : Call Unit := do
  let _ ← compose project .down
  if profile = .real then assertProjectClean project [.ps, .network, .volume] else return ()

/-- `_compensating_down`. A deadline ends it like an exception. -/
def compensatingDown (project : String) : Call Unit := do
  let _ ← attempt (cleanup profile project)
  return ()

/-! ## Archives -/

/-- `bytes.decode("utf-8")`. -/
def decodeUtf8 (bytes : ByteArray) : Except Exc String :=
  match String.fromUTF8? bytes with
  | some s => .ok s
  | none => .error (.other "UnicodeDecodeError")

/-- `_export_state`. -/
def exportState (live : LiveWorld) : Call (ByteArray × Hashes) := do
  let stdout ← compose live.project .export_
  lift (Parsers.decodeArchive profile live.imageIdentity.binding stdout)

/-- Whether the archive of a snapshot still matches its manifest. -/
def checkStored (stored : StoredSnapshot) : Except Exc Unit := do
  let raw ← decodeUtf8 stored.archive
  let (archive, hashes) ← Parsers.decodeArchive profile stored.imageIdentity.binding raw
  Imp.require (archive = stored.archive ∧ hashes.map = stored.manifest.contentHashes)
    (.adapter "retained snapshot archive no longer matches its manifest")

/-- `_import_state`. -/
def importState (live : LiveWorld) (stored : StoredSnapshot) : Call Unit := do
  lift (checkStored profile stored)
  let stdout ← compose live.project .import_ (some stored.archive)
  lift (Parsers.acknowledged profile stdout)
  let (restoredArchive, restoredHashes) ← exportState profile live
  require (restoredArchive = stored.archive ∧ restoredHashes.map = stored.manifest.contentHashes)
    (.adapter "state import identity verification failed")

/-! ## Registries -/

/-- `_validate_target`. -/
def validateTarget (target : TargetSpec) : Except Exc Unit :=
  Imp.require (target.targetId.val = profile.targetId ∧ target.targetVersion.val = profile.targetVersion ∧
      target.secretHandles = [])
    (.adapter (match profile with
      | .synthetic => "only the fixed synthetic demo target is supported"
      | .real => "only the fixed real-provider demo target is supported"))

/-- `_require_live`. -/
def requireLive (env : EnvironmentHandle) : Call LiveWorld := do
  require (env.adapter = profile.pin) (.adapter "environment handle is invalid")
  match ← ask (.getLive env.environmentId) with
  | some live => do
      require (live.handle = env) (.adapter "environment is not owned by this adapter")
      return live
  | none => raise (.adapter "environment is not owned by this adapter")

/-- `_require_same_live`. -/
def requireSameLive (env : EnvironmentHandle) (expected : LiveWorld) : Call LiveWorld := do
  let live ← requireLive profile env
  require (live = expected) (.adapter "environment ownership changed while waiting")
  return live

/-- `_allocate_environment_identity`, with the attempts that are left. -/
def allocateEnvironmentIdentity : ℕ → Call Token
  | 0 => raise (.adapter "unable to allocate a unique environment identity")
  | attempts + 1 => do
      let hex ← ask .newToken
      if h : isToken hex = true then
        match ← ask (.issueEnvironment ⟨hex, h⟩) with
        | .exhausted => raise (.adapter "environment identity capacity is exhausted")
        | .taken => allocateEnvironmentIdentity attempts
        | .issued => return ⟨hex, h⟩
      else allocateEnvironmentIdentity attempts

/-- `_allocate_snapshot_id`, with the attempts that are left. -/
def allocateSnapshotId : ℕ → Call NonEmpty
  | 0 => raise (.adapter "unable to allocate a unique snapshot identity")
  | attempts + 1 => do
      let hex ← ask .newToken
      if h : isToken hex = true then
        match ← ask (.issueSnapshot ⟨hex, h⟩) with
        | .exhausted => raise (.adapter "snapshot retention capacity is exhausted")
        | .taken => allocateSnapshotId attempts
        | .issued => return Token.snapshotId ⟨hex, h⟩
      else allocateSnapshotId attempts

/-- `_require_stored_snapshot`. A manifest carries its validity. -/
def requireStoredSnapshot (snapshot : SnapshotManifest) : Call StoredSnapshot := do
  require (snapshot.adapter = profile.pin) (.adapter "snapshot is invalid")
  match ← ask (.getSnapshot snapshot.snapshotId) with
  | some stored => do
      require (stored.manifest = snapshot) (.adapter "snapshot is not owned by this adapter")
      lift (checkStored profile stored)
      return stored
  | none => raise (.adapter "snapshot is not owned by this adapter")

/-! ## Operations -/

/-- The namespace of a project. -/
def Token.namespace_ (token : Token) : WorldNamespace where
  network := token.name "network:swm2"
  database := token.name "database:swm2"
  cache := token.name "cache:swm2"
  queue := token.name "queue:swm2"
  session := token.name "session:swm2"
  storage := token.name "storage:swm2"
  valuesUnique := by
    have hinjective : Function.Injective fun start => start ++ token.hex := fun _ _ h =>
      (String.append_left_inj _).mp h
    have hnames : ["network:swm2", "database:swm2", "cache:swm2", "queue:swm2", "session:swm2",
      "storage:swm2"].Nodup := by decide
    have hvalues := List.Nodup.map hinjective hnames
    exact List.Nodup.of_map NonEmpty.val hvalues

/-- The live world of `_create_world`. -/
def newWorld (token : Token) (target : TargetSpec) (rootSnapshotId : Option NonEmpty)
    (imageIdentity : ImageIdentity) (sourceSnapshot : Option SnapshotManifest) : LiveWorld where
  project := token.project
  target := target
  rootSnapshotId := rootSnapshotId.getD (token.name "root:environment:")
  handle := ⟨profile.pin, token.environmentId, token.name "compose:swm2", token.namespace_, quotas⟩
  imageIdentity := imageIdentity
  sourceSnapshot := sourceSnapshot
  named := ⟨token, rfl, rfl⟩

/-- `_create_world`. -/
def createWorld (target : TargetSpec) (rootSnapshotId : Option NonEmpty) (imageIdentity : ImageIdentity)
    (sourceSnapshot : Option SnapshotManifest) : Call EnvironmentHandle := do
  let token ← allocateEnvironmentIdentity identityAllocationAttempts
  let live := newWorld profile token target rootSnapshotId imageIdentity sourceSnapshot
  onError
    (do
      startWorld profile token.project
      health profile token.project imageIdentity
      let registered ← ask (.registerLive live)
      require (registered = true) (.adapter "environment identity is already registered"))
    fun e => do
      compensatingDown profile token.project
      raise e
  return live.handle

/-- `async with live.operation_lock`. -/
def withLock {α : Type} (live : LiveWorld) (body : Call α) : Call α := do
  ask (.acquire live.handle.environmentId)
  let result ← attempt body
  ask (.release live.handle.environmentId)
  lift result

/-- `prepare`. -/
def prepare (target : TargetSpec) : Call EnvironmentHandle := do
  lift (validateTarget profile target)
  requireDocker
  let imageIdentity ← requireImage profile
  createWorld profile target none imageIdentity none

/-- The manifest of `snapshot`. -/
def newManifest (live : LiveWorld) (snapshotId : NonEmpty) (hashes : Hashes) : SnapshotManifest where
  snapshotId := snapshotId
  rootSnapshotId := live.rootSnapshotId
  sourceEnvironmentId := live.handle.environmentId
  target := live.target
  adapter := profile.pin
  contentHashes := hashes.map
  stateFingerprint := deriveStateFingerprint hashes.map
  hashesComplete := hashes.complete
  fingerprintDerived := rfl

/-- `snapshot`. -/
def snapshot (env : EnvironmentHandle) : Call SnapshotManifest := do
  let live ← requireLive profile env
  withLock live do
    let live ← requireSameLive profile env live
    let snapshotId ← allocateSnapshotId identityAllocationAttempts
    health profile live.project live.imageIdentity
    let (archive, hashes) ← exportState profile live
    let manifest := newManifest profile live snapshotId hashes
    let fresh ← ask (.storeSnapshot ⟨manifest, archive, live.imageIdentity⟩)
    require (fresh = true) (.adapter "snapshot identity is already registered")
    return manifest

/-- `fork`. -/
def fork (snapshot : SnapshotManifest) : Call EnvironmentHandle := do
  let stored ← requireStoredSnapshot profile snapshot
  requireDocker
  let imageIdentity ← requireImage profile
  require (imageIdentity = stored.imageIdentity)
    (.adapter "fixed Compose image identity changed after snapshot")
  let env ← createWorld profile stored.manifest.target (some stored.manifest.rootSnapshotId) imageIdentity
    (some stored.manifest)
  let live ← requireLive profile env
  onError (importState profile live stored) fun e => do
    let _ ← ask (.discardLive live)
    compensatingDown profile live.project
    raise e
  return env

/-- `restore`. -/
def restore (env : EnvironmentHandle) (snapshot : SnapshotManifest) : Call Unit := do
  let live ← requireLive profile env
  withLock live do
    let live ← requireSameLive profile env live
    let stored ← requireStoredSnapshot profile snapshot
    require (stored.manifest.target = live.target) (.adapter "snapshot is not owned by this adapter")
    require (stored.manifest.rootSnapshotId = live.rootSnapshotId)
      (.adapter "snapshot root lineage differs from environment")
    require (stored.manifest.sourceEnvironmentId = live.handle.environmentId)
      (.adapter "snapshot source environment differs from environment")
    require (stored.imageIdentity = live.imageIdentity)
      (.adapter "fixed Compose image identity changed after snapshot")
    let imageIdentity ← requireImage profile
    require (imageIdentity = live.imageIdentity)
      (.adapter "fixed Compose image identity changed after snapshot")
    onError
      (do
        let _ ← compose live.project .down
        startWorld profile live.project
        health profile live.project live.imageIdentity
        importState profile live stored)
      fun e => do
        compensatingDown profile live.project
        raise e

/-- `destroy`. -/
def destroy (env : EnvironmentHandle) : Call Unit := do
  require (env.adapter = profile.pin) (.adapter "environment handle is invalid")
  match ← ask (.getLive env.environmentId) with
  | none => return ()
  | some live => do
      require (live.handle = env) (.adapter "environment is not owned by this adapter")
      withLock live do
        match ← ask (.getLive env.environmentId) with
        | none => return ()
        | some current => do
            require (current = live ∧ current.handle = env)
              (.adapter "environment is not owned by this adapter")
            cleanup profile live.project
            let discarded ← ask (.discardLive live)
            require (discarded = true) (.adapter "environment ownership changed during destroy")

/-! ## The adapter -/

inductive AdapterCall [Sha256] where
  | prepare (target : TargetSpec)
  | snapshot (env : EnvironmentHandle)
  | fork (snapshot : SnapshotManifest)
  | restore (env : EnvironmentHandle) (snapshot : SnapshotManifest)
  | destroy (env : EnvironmentHandle)

/-- What a call returns. -/
inductive Returned [Sha256] where
  | handle (env : EnvironmentHandle)
  | manifest (snapshot : SnapshotManifest)
  | nothing

/-- The code of a call. -/
def action : AdapterCall → Call Returned
  | .prepare target => do return .handle (← prepare profile target)
  | .snapshot env => do return .manifest (← snapshot profile env)
  | .fork manifest => do return .handle (← fork profile manifest)
  | .restore env manifest => do
      restore profile env manifest
      return .nothing
  | .destroy env => do
      destroy profile env
      return .nothing

/-- What all calls share, with what was commanded and which handles were returned. -/
structure Shared (Id : Type) [Sha256] where
  live : NonEmpty → Option LiveWorld
  snapshots : NonEmpty → Option StoredSnapshot
  issuedEnvironments : List NonEmpty
  issuedSnapshots : List NonEmpty
  /-- Which call holds the lock of a live world. -/
  locks : NonEmpty → Option Id
  commands : List Command
  returned : List EnvironmentHandle

/-- How a request ends. -/
inductive Outcome where
  | answered
  /-- The runner answers or raises. -/
  | process (result : Except Exc (Option ProcessResult))
  | token (hex : String)
  /-- The call is cancelled while it waits for the lock. -/
  | cancelled

/-- Issue an identity that is not taken. -/
def issue (issued : List NonEmpty) (limit : ℕ) (identity : NonEmpty) : Issue :=
  if limit ≤ issued.length then .exhausted else if identity ∈ issued then .taken else .issued

namespace Shared

variable {Id : Type}

def empty : Shared Id := ⟨fun _ => none, fun _ => none, [], [], fun _ => none, [], []⟩

/-- Answer a request. -/
def handle (s : Shared Id) (i : Id) (r : Request) (outcome : Outcome) :
    Option (Except Exc (Answer r) × Shared Id) :=
  match r, outcome with
  | .run command _, .process result => some (result, { s with commands := s.commands ++ [command] })
  | .newToken, .token hex => some (.ok hex, s)
  | .getLive environmentId, .answered => some (.ok (s.live environmentId), s)
  | .registerLive live, .answered =>
      some (if (s.live live.handle.environmentId).isSome then (.ok false, s)
        else (.ok true, { s with live := Function.update s.live live.handle.environmentId (some live) }))
  | .discardLive live, .answered =>
      some (if s.live live.handle.environmentId = some live then
          (.ok true, { s with live := Function.update s.live live.handle.environmentId none })
        else (.ok false, s))
  | .issueEnvironment token, .answered =>
      let result := issue s.issuedEnvironments maxIssuedEnvironments token.environmentId
      some (.ok result, if result = .issued then
        { s with issuedEnvironments := token.environmentId :: s.issuedEnvironments } else s)
  | .issueSnapshot token, .answered =>
      let result := issue s.issuedSnapshots maxIssuedSnapshots token.snapshotId
      some (.ok result, if result = .issued then
        { s with issuedSnapshots := token.snapshotId :: s.issuedSnapshots } else s)
  | .getSnapshot snapshotId, .answered => some (.ok (s.snapshots snapshotId), s)
  | .storeSnapshot stored, .answered =>
      some (if (s.snapshots stored.manifest.snapshotId).isSome then (.ok false, s)
        else (.ok true,
          { s with snapshots := Function.update s.snapshots stored.manifest.snapshotId (some stored) }))
  | .acquire environmentId, .answered =>
      match s.locks environmentId with
      | none => some (.ok (), { s with locks := Function.update s.locks environmentId (some i) })
      | some _ => none
  | .acquire _, .cancelled => some (.error (.other "CancelledError"), s)
  | .release environmentId, .answered =>
      some (.ok (), { s with locks := Function.update s.locks environmentId none })
  | _, _ => none

/-- Record the handle that a call returns. -/
def settle (s : Shared Id) (_ : AdapterCall) : Except Exc Returned → Shared Id
  | .ok (.handle env) => { s with returned := env :: s.returned }
  | _ => s

end Shared

/-- `_FixedDockerComposeEnvironmentAdapter`. -/
def adapter (Id : Type) : Component Id (Shared Id) AdapterCall Request Answer Exc (Except Exc Returned) Outcome :=
  ⟨action profile, Shared.handle, Shared.settle⟩

end StateWeaver.Compose
