import StateWeaver.Worlds.Store

/-!
# The environment adapter as the manager sees it

The adapter is not part of the repository's core: whatever it answers, and whether it raises, is an
input. This module has the checks the manager puts every answer through before it uses it.
-/

namespace StateWeaver.Worlds

variable [Sha256]

/-- The value an operation of the adapter returns. A value of an expected class that fails its own
validation is `other`. -/
inductive AdapterValue [Sha256] where
  | none_
  | handle (environment : EnvironmentHandle)
  | snapshot (manifest : SnapshotManifest)
  | capabilities (manifest : CapabilityManifest)
  | other
  deriving DecidableEq

/-- How an operation of the adapter ends. -/
inductive Answer [Sha256] where
  | returned (value : AdapterValue)
  | raised (e : Exc)
  deriving DecidableEq

/-- The operations of the `EnvironmentAdapter` port that the manager awaits. -/
inductive AdapterCall [Sha256] where
  | prepare (target : TargetSpec)
  | snapshot (environment : EnvironmentHandle)
  | fork (manifest : SnapshotManifest)
  | restore (environment : EnvironmentHandle) (manifest : SnapshotManifest)
  | destroy (environment : EnvironmentHandle)
  deriving DecidableEq

/-! ## Capabilities -/

/-- `_validated_capabilities`, applied to the answer of `capabilities()`. -/
def validatedCapabilities : Answer → Except Exc CapabilityManifest
  | .raised e => .error e
  | .returned (.capabilities manifest) => do
      Imp.require (manifest.egressPolicy = .deny)
        (.capabilityError "M2 adapters require default-deny network egress")
      Imp.require (∀ name ∈ m2RequiredCapabilities, manifest.supports name = true)
        (.capabilityError "adapter lacks required M2 isolation capabilities")
      return manifest
  | .returned _ => .error (.adapterReturnError "adapter capabilities returned an invalid model")

/-- `_check_pin` of a manager that was built with the capabilities `own`. -/
def checkPin (own : CapabilityManifest) (pin : AdapterPin) (capabilities : Answer) :
    Except Exc Unit := do
  let current ← validatedCapabilities capabilities
  Imp.require (current = own ∧ current.pin = pin)
    (.adapterPinError "adapter version or identity no longer matches world pin")

/-! ## Awaited answers -/

/-- `_bounded`: which exception of the adapter reaches the caller, and as what. -/
def bounded : Answer → Except Exc AdapterValue
  | .returned value => .ok value
  | .raised .timeoutError =>
      .error (.operationTimeout "adapter operation exceeded its authorized deadline")
  | .raised .cancelledError => .error .cancelledError
  | .raised (.baseException name) => .error (.baseException name)
  | .raised e => .error (if e.isWorldError then e else .worldError "adapter operation failed")

/-- `_as_handle`. -/
def asHandle : AdapterValue → Except Exc EnvironmentHandle
  | .handle environment => .ok environment
  | _ => .error (.adapterReturnError "adapter returned an invalid environment handle")

/-- `_as_snapshot`. -/
def asSnapshot : AdapterValue → Except Exc SnapshotManifest
  | .snapshot manifest => .ok manifest
  | _ => .error (.adapterReturnError "adapter returned an invalid snapshot manifest")

/-- `_require_none`. -/
def requireNone : AdapterValue → Except Exc Unit
  | .none_ => .ok ()
  | _ => .error (.adapterReturnError "adapter restore returned an invalid result")

/-- `_validate_snapshot`. -/
def validateSnapshot (own : CapabilityManifest) (snapshot : SnapshotManifest) (target : TargetSpec)
    (environment : EnvironmentHandle) (rootSnapshotId : Option NonEmpty) (capabilities : Answer) :
    Except Exc Unit := do
  checkPin own snapshot.adapter capabilities
  Imp.require (snapshot.target = target)
    (.lifecycleError "snapshot target pin differs from world target")
  Imp.require (snapshot.sourceEnvironmentId = environment.environmentId)
    (.lifecycleError "snapshot source environment differs from live environment")
  Imp.require (∀ root ∈ rootSnapshotId, snapshot.rootSnapshotId = root)
    (.lifecycleError "snapshot root lineage differs from world root")

/-! ## Specifications -/

/-- What the pin check demands of the answer of `capabilities()`. -/
theorem checkPin_eq_ok {own : CapabilityManifest} {pin : AdapterPin} {capabilities : Answer} :
    checkPin own pin capabilities = .ok () ↔
      validatedCapabilities capabilities = .ok own ∧ own.pin = pin := by
  rw [checkPin, Imp.except_bind_eq_ok]
  simp only [Imp.require_eq_ok]
  constructor
  · rintro ⟨_, hcurrent, rfl, hpin⟩
    exact ⟨hcurrent, hpin⟩
  · rintro ⟨hcurrent, hpin⟩
    exact ⟨own, hcurrent, rfl, hpin⟩

theorem asHandle_eq_ok {value : AdapterValue} {environment : EnvironmentHandle} :
    asHandle value = .ok environment ↔ value = .handle environment := by
  cases value <;> simp [asHandle]

theorem asSnapshot_eq_ok {value : AdapterValue} {manifest : SnapshotManifest} :
    asSnapshot value = .ok manifest ↔ value = .snapshot manifest := by
  cases value <;> simp [asSnapshot]

theorem bounded_eq_ok {answer : Answer} {value : AdapterValue} :
    bounded answer = .ok value ↔ answer = .returned value := by
  cases answer with
  | returned v => simp [bounded]
  | raised e => cases e <;> simp [bounded]

/-- What a snapshot that passed the manager's checks has in common with the world it is for. -/
structure SnapshotFits (own : CapabilityManifest) (snapshot : SnapshotManifest)
    (target : TargetSpec) (environment : EnvironmentHandle) (rootSnapshotId : Option NonEmpty) :
    Prop where
  adapter : snapshot.adapter = own.pin
  target : snapshot.target = target
  source : snapshot.sourceEnvironmentId = environment.environmentId
  root : ∀ root, rootSnapshotId = some root → snapshot.rootSnapshotId = root

theorem validateSnapshot_eq_ok {own : CapabilityManifest} {snapshot : SnapshotManifest}
    {target : TargetSpec} {environment : EnvironmentHandle} {rootSnapshotId : Option NonEmpty}
    {capabilities : Answer} :
    validateSnapshot own snapshot target environment rootSnapshotId capabilities = .ok () ↔
      validatedCapabilities capabilities = .ok own ∧
        SnapshotFits own snapshot target environment rootSnapshotId := by
  simp only [validateSnapshot, Imp.check_bind_eq_ok, Imp.require_eq_ok, checkPin_eq_ok,
    Option.mem_def]
  constructor
  · rintro ⟨⟨hcurrent, hpin⟩, htarget, hsource, hroot⟩
    exact ⟨hcurrent, hpin.symm, htarget, hsource, hroot⟩
  · rintro ⟨hcurrent, h⟩
    exact ⟨⟨hcurrent, h.adapter.symm⟩, h.target, h.source, h.root⟩

end StateWeaver.Worlds
