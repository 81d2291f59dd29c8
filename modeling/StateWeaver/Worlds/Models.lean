import StateWeaver.Lib.Dict
import StateWeaver.Lib.Imperative
import StateWeaver.Lib.Sha256

/-!
# Domain models of materialized worlds

The values that cross the world manager's trust boundary. A value that a validator accepts once and
nobody changes afterwards (a handle, a snapshot manifest, a capability manifest) carries what its
validator checked as a field, so an invalid one cannot be built. `WorldNode` is copied with changed
fields and checked again each time, so its validator is a function, `WorldNode.modelValidate`, and
`WorldNode.Coherent` is what a node that passed it satisfies.
-/

namespace StateWeaver.Worlds

/-! ## Exceptions -/

/-- The exceptions that can leave a manager operation, with the texts the code gives them. -/
inductive Exc where
  /-- `WorldError` raised by the manager itself. -/
  | worldError (message : String)
  | lifecycleError (message : String)
  | revisionConflict (message : String)
  | adapterPinError (message : String)
  | capabilityError (message : String)
  | adapterReturnError (message : String)
  /-- `CleanupError`, with both causes. -/
  | cleanupError (primaryError cleanupError : Exc)
  | operationTimeout (message : String)
  /-- A `pydantic.ValidationError`, with the text of the first failing check. -/
  | validationError (message : String)
  | timeoutError
  | cancelledError
  /-- Any other subclass of `Exception`. -/
  | exception (name : String)
  /-- Any other subclass of `BaseException`. -/
  | baseException (name : String)
  deriving DecidableEq

/-- Whether the exception is an instance of `WorldError`. -/
def Exc.isWorldError : Exc → Bool
  | .worldError _ | .lifecycleError _ | .revisionConflict _ | .adapterPinError _
  | .capabilityError _ | .adapterReturnError _ | .cleanupError _ _ | .operationTimeout _ => true
  | _ => false

/-! ## Constrained texts -/

/-- The pattern of `NonEmpty`: 1 to 160 characters out of `[A-Za-z0-9._:-]`. -/
def isNonEmpty (s : String) : Bool :=
  1 ≤ s.toList.length && s.toList.length ≤ 160 &&
    s.toList.all fun c => c.isAlphanum || ['.', '_', ':', '-'].contains c

/-- An identifier that matches the pattern of `NonEmpty`. -/
structure NonEmpty where
  val : String
  matchesPattern : isNonEmpty val = true
  deriving DecidableEq

instance : LT NonEmpty := ⟨fun a b => a.val < b.val⟩

instance (a b : NonEmpty) : Decidable (a < b) := inferInstanceAs (Decidable (a.val < b.val))

/-- Read a text as an identifier. -/
def NonEmpty.ofString? (s : String) : Option NonEmpty :=
  if h : isNonEmpty s = true then some ⟨s, h⟩ else none

/-- The pattern of `Digest`: `sha256:` and 64 lower-case hexadecimal digits. -/
def isDigest (s : String) : Bool :=
  s.toList.take 7 == "sha256:".toList && isHexDigest (String.ofList (s.toList.drop 7))

/-- A tagged SHA-256 digest. -/
structure Digest where
  val : String
  matchesPattern : isDigest val = true
  deriving DecidableEq

/-- `_digest`: the tagged SHA-256 digest of a byte string. -/
def digest [Sha256] (value : ByteArray) : Digest :=
  ⟨"sha256:" ++ Sha256.hexdigest value, by
    simp [isDigest, String.toList_append, Sha256.isHexDigest_hexdigest]⟩

/-! ## Enumerations -/

inductive CapabilityLevel where
  | unsupported | partial_ | supported
  deriving DecidableEq

inductive EgressPolicy where
  | deny | allowlist
  deriving DecidableEq

inductive WorldPhase where
  | proposed | ghost | replay | simulated | materializing | active | blocked | frozen
  | fragmentExtracted | compositionCandidate | replayed | verified | rejected | pruned
  deriving DecidableEq

/-- `LEGAL_TRANSITIONS`: the phases a phase may change to. -/
def legalTransitions : WorldPhase → List WorldPhase
  | .proposed => [.ghost]
  | .ghost => [.pruned, .replay]
  | .replay => [.pruned, .simulated]
  | .simulated => [.pruned, .materializing]
  | .materializing => [.active, .blocked]
  | .active => [.frozen]
  | .frozen => [.fragmentExtracted]
  | .fragmentExtracted => [.compositionCandidate]
  | .compositionCandidate => [.replayed]
  | .replayed => [.verified, .rejected]
  | .blocked | .pruned | .verified | .rejected => []

/-- `FORKABLE_PHASES`. -/
def forkablePhases : List WorldPhase := [.active, .frozen]

/-- `M2_REQUIRED_CAPABILITIES`. -/
def m2RequiredCapabilities : List String :=
  ["filesystem_fork", "postgres_snapshot", "redis_snapshot", "queue_snapshot",
    "browser_session_fork", "controlled_clock"]

/-! ## Values that carry their validation -/

structure AdapterPin where
  adapter : NonEmpty
  version : NonEmpty
  deriving DecidableEq

structure CapabilityManifest where
  pin : AdapterPin
  capabilities : SortedMap NonEmpty CapabilityLevel
  egressPolicy : EgressPolicy
  /-- `freeze_capabilities`. -/
  capabilitiesNonempty : capabilities.entries ≠ []
  deriving DecidableEq

/-- `supports`: whether a capability is declared fully supported. -/
def CapabilityManifest.supports (m : CapabilityManifest) (name : String) : Bool :=
  m.capabilities.entries.any fun e => e.1.val == name && e.2 == .supported

structure WorldNamespace where
  network : NonEmpty
  database : NonEmpty
  cache : NonEmpty
  queue : NonEmpty
  session : NonEmpty
  storage : NonEmpty
  /-- `namespace_values_are_unique`. -/
  valuesUnique : [network, database, cache, queue, session, storage].Nodup
  deriving DecidableEq

structure ResourceQuotas where
  cpuSeconds : Nat
  memoryMb : Nat
  pids : Nat
  requests : Nat
  concurrentActions : Nat
  /-- The field bounds. -/
  inBounds : (1 ≤ cpuSeconds ∧ cpuSeconds ≤ 86400) ∧ (16 ≤ memoryMb ∧ memoryMb ≤ 1048576) ∧
    (1 ≤ pids ∧ pids ≤ 65536) ∧ requests ≤ 1000000 ∧
    (1 ≤ concurrentActions ∧ concurrentActions ≤ 64)
  deriving DecidableEq

/-- An opaque reference to an environment the adapter runs. -/
structure EnvironmentHandle where
  adapter : AdapterPin
  environmentId : NonEmpty
  opaqueRef : NonEmpty
  worldNamespace : WorldNamespace
  quotas : ResourceQuotas
  deriving DecidableEq

structure TargetSpec where
  targetId : NonEmpty
  targetVersion : NonEmpty
  secretHandles : List NonEmpty
  /-- `secret_handles_unique`. -/
  secretHandlesUnique : secretHandles.Nodup
  deriving DecidableEq

/-- The components every snapshot has to cover. -/
def requiredComponents : List String :=
  ["filesystem", "database", "cache", "queue", "session", "clock"]

/-- `derive_state_fingerprint`: the digest of the sorted compact JSON object of component hashes.
Keys and values need no escapes, by their patterns. -/
def deriveStateFingerprint [Sha256] (contentHashes : SortedMap NonEmpty Digest) : Digest :=
  digest ("\x7b" ++ ",".intercalate
    (contentHashes.entries.map fun e => "\"" ++ e.1.val ++ "\":\"" ++ e.2.val ++ "\"") ++
      "\x7d").toUTF8

structure SnapshotManifest [Sha256] where
  snapshotId : NonEmpty
  rootSnapshotId : NonEmpty
  sourceEnvironmentId : NonEmpty
  target : TargetSpec
  adapter : AdapterPin
  contentHashes : SortedMap NonEmpty Digest
  stateFingerprint : Digest
  /-- `hashes_are_complete_and_immutable`. -/
  hashesComplete : ∀ name ∈ requiredComponents, name ∈ contentHashes.entries.map fun e => e.1.val
  /-- `state_fingerprint_is_content_derived`. -/
  fingerprintDerived : stateFingerprint = deriveStateFingerprint contentHashes
  deriving DecidableEq

/-! ## World nodes -/

/-- One world of the store. -/
structure WorldNode [Sha256] where
  worldId : NonEmpty
  parentWorldId : Option NonEmpty
  rootSnapshotId : NonEmpty
  target : TargetSpec
  adapter : AdapterPin
  capabilityManifest : CapabilityManifest
  phase : WorldPhase
  stateFingerprint : Digest
  lineage : List NonEmpty
  environment : Option EnvironmentHandle := none
  snapshot : Option SnapshotManifest := none
  deduplicatedTo : Option NonEmpty := none
  destroyed : Bool := false
  revision : Nat := 0
  deriving DecidableEq

namespace WorldNode

variable [Sha256]

/-- The pins of a snapshot that have to match the world's. -/
def snapshotPinsMatch (n : WorldNode) (s : SnapshotManifest) : Prop :=
  s.adapter = n.adapter ∧ s.target = n.target ∧ s.rootSnapshotId = n.rootSnapshotId ∧
    s.stateFingerprint = n.stateFingerprint

instance (n : WorldNode) (s : SnapshotManifest) : Decidable (n.snapshotPinsMatch s) :=
  inferInstanceAs (Decidable (_ ∧ _ ∧ _ ∧ _))

/-- The validators of `WorldNode` in the order they run: `lineage_is_unique`, then
`coherent_live_shape`. -/
def modelValidate (n : WorldNode) : Except Exc WorldNode := do
  Imp.require n.lineage.Nodup (.validationError "lineage transitions must be unique")
  Imp.require (¬ (n.destroyed = true ∧ n.environment.isSome = true))
    (.validationError "destroyed worlds cannot retain an environment handle")
  Imp.require (n.parentWorldId ≠ some n.worldId)
    (.validationError "a world cannot be its own parent")
  Imp.require (n.deduplicatedTo ≠ some n.worldId)
    (.validationError "a world cannot be deduplicated to itself")
  Imp.require (¬ (n.phase = .active ∧ n.destroyed = false ∧
      (n.environment.isNone = true ∨ n.snapshot.isNone = true)))
    (.validationError "active materialized worlds require a live environment and snapshot")
  Imp.require (∀ e ∈ n.environment, e.adapter = n.adapter)
    (.validationError "environment adapter must match world adapter pin")
  Imp.require (∀ e ∈ n.environment, ∀ s ∈ n.snapshot, s.sourceEnvironmentId = e.environmentId)
    (.validationError "snapshot source environment must match the live world")
  Imp.require (∀ s ∈ n.snapshot, n.snapshotPinsMatch s)
    (.validationError "snapshot pins must match the world")
  return n

/-- What `modelValidate` checks. -/
structure Coherent (n : WorldNode) : Prop where
  lineage_nodup : n.lineage.Nodup
  environment_of_destroyed : n.destroyed = true → n.environment = none
  parent_ne : n.parentWorldId ≠ some n.worldId
  deduplicatedTo_ne : n.deduplicatedTo ≠ some n.worldId
  active_live : n.phase = .active → n.destroyed = false →
    n.environment.isSome = true ∧ n.snapshot.isSome = true
  environment_adapter : ∀ e, n.environment = some e → e.adapter = n.adapter
  snapshot_source : ∀ e, n.environment = some e → ∀ s, n.snapshot = some s →
    s.sourceEnvironmentId = e.environmentId
  snapshot_pins : ∀ s, n.snapshot = some s → n.snapshotPinsMatch s

/-- The validator returns the node it was given exactly when the node is coherent. -/
theorem modelValidate_eq_ok {n m : WorldNode} :
    n.modelValidate = .ok m ↔ m = n ∧ n.Coherent := by
  simp only [modelValidate, Imp.check_bind_eq_ok, Imp.require_eq_ok, Option.mem_def]
  constructor
  · rintro ⟨hlineage, hdestroyed, hparent, hdedup, hactive, hadapter, hsource, hpins, hret⟩
    cases hret
    refine ⟨rfl, hlineage, ?_, hparent, hdedup, ?_, hadapter, hsource, hpins⟩
    · intro h
      simpa [h] using hdestroyed
    · intro hphase hlive
      simpa [hphase, hlive, not_or, Option.isSome_iff_ne_none] using hactive
  · rintro ⟨rfl, h⟩
    refine ⟨h.lineage_nodup, ?_, h.parent_ne, h.deduplicatedTo_ne, ?_, h.environment_adapter,
      h.snapshot_source, h.snapshot_pins, rfl⟩
    · rintro ⟨hd, henv⟩
      simp [h.environment_of_destroyed hd] at henv
    · rintro ⟨hphase, hlive, hmissing⟩
      have hsome := h.active_live hphase hlive
      rcases hmissing with hnone | hnone
      · simp [Option.isNone_iff_eq_none.mp hnone] at hsome
      · simp [Option.isNone_iff_eq_none.mp hnone] at hsome

end WorldNode

end StateWeaver.Worlds
