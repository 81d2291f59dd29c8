import StateWeaver.Worlds.Models

/-!
# The in-memory world store

`_WorldStore` as its methods compute it. A method that writes is a computation of `StoreM`; a check
that only reads is an `Except`. The writer authority that every mutating method demands is held by
the one manager that owns the store, so it is not a value of the model.

Each method has a specification: what it needs to succeed and the store it leaves behind
(`.._eq_ok`), and, for the methods that check before they write, that a failing call leaves the
store as it was (`.._error`). Later modules use these and do not unfold the methods.
-/

namespace StateWeaver.Worlds

variable [Sha256]

/-- `_WorldReservation`. The serial number is the identity of the object, which `is` compares. -/
structure WorldReservation where
  worldId : NonEmpty
  serial : Nat
  deriving DecidableEq

/-- `_PendingWorld`. -/
structure PendingWorld where
  reservation : WorldReservation
  environment : Option EnvironmentHandle := none
  deriving DecidableEq

/-- The key of the deduplication index, as `_fingerprint_key` builds it. -/
structure FingerprintKey where
  rootSnapshotId : NonEmpty
  targetId : NonEmpty
  targetVersion : NonEmpty
  adapter : NonEmpty
  version : NonEmpty
  stateFingerprint : Digest
  deriving DecidableEq

/-- `_WorldStore`. -/
structure WorldStore where
  nodes : Dict NonEmpty WorldNode
  fingerprints : Dict FingerprintKey NonEmpty
  pendingWorlds : Dict NonEmpty PendingWorld
  /-- How many reservations were created, hence the serial number of the next one. -/
  reservationsIssued : Nat
  deriving DecidableEq

/-- A method of the store that may write and may raise. -/
abbrev StoreM (α : Type) := Imp WorldStore Exc α

/-- The key a node is deduplicated by. -/
def fingerprintKey (node : WorldNode) : FingerprintKey :=
  ⟨node.rootSnapshotId, node.target.targetId, node.target.targetVersion, node.adapter.adapter,
    node.adapter.version, node.stateFingerprint⟩

/-- The environment of a world that still runs: none once the world is destroyed. -/
def WorldNode.liveEnvironment (node : WorldNode) : Option EnvironmentHandle :=
  if node.destroyed then none else node.environment

namespace WorldStore

/-- The store of a new manager. -/
def empty : WorldStore := ⟨.empty, .empty, .empty, 0⟩

/-! ## Queries -/

/-- `get`. -/
def get (s : WorldStore) (worldId : NonEmpty) : Except Exc WorldNode :=
  match s.nodes.get? worldId with
  | some node => .ok node
  | none => .error (.lifecycleError "unknown world")

/-- `canonical_world_id`: the world that stands for a fingerprint, unless it is ambiguous. -/
def canonicalWorldId (s : WorldStore) (fingerprint : String) : Option NonEmpty :=
  let candidates := (s.fingerprints.entries.filter fun e =>
    e.1.stateFingerprint.val = fingerprint).map Prod.snd
  match candidates.dedup with
  | [worldId] =>
      match s.nodes.get? worldId with
      | some node =>
          if node.destroyed = false ∧ node.stateFingerprint.val = fingerprint then some worldId
          else none
      | none => none
  | _ => none

/-! ## Environment disjointness -/

end WorldStore

/-- `_namespace_values`. -/
def namespaceValues (environment : EnvironmentHandle) : List NonEmpty :=
  [environment.worldNamespace.network, environment.worldNamespace.database,
    environment.worldNamespace.cache, environment.worldNamespace.queue,
    environment.worldNamespace.session, environment.worldNamespace.storage]

/-- Neither the identifier nor the opaque reference is shared. -/
def IdentityDisjoint (a b : EnvironmentHandle) : Prop :=
  a.environmentId ≠ b.environmentId ∧ a.opaqueRef ≠ b.opaqueRef

/-- No namespace component is shared. -/
def NamespaceDisjoint (a b : EnvironmentHandle) : Prop :=
  ∀ v ∈ namespaceValues a, v ∉ namespaceValues b

/-- Nothing that identifies an environment is shared. -/
def EnvironmentDisjoint (a b : EnvironmentHandle) : Prop :=
  IdentityDisjoint a b ∧ NamespaceDisjoint a b

instance (a b : EnvironmentHandle) : Decidable (IdentityDisjoint a b) :=
  inferInstanceAs (Decidable (_ ∧ _))

instance (a b : EnvironmentHandle) : Decidable (NamespaceDisjoint a b) :=
  inferInstanceAs (Decidable (∀ v ∈ namespaceValues a, v ∉ namespaceValues b))

instance (a b : EnvironmentHandle) : Decidable (EnvironmentDisjoint a b) :=
  inferInstanceAs (Decidable (_ ∧ _))

omit [Sha256] in
theorem IdentityDisjoint.symm {a b : EnvironmentHandle} (h : IdentityDisjoint a b) :
    IdentityDisjoint b a :=
  ⟨h.1.symm, h.2.symm⟩

omit [Sha256] in
theorem NamespaceDisjoint.symm {a b : EnvironmentHandle} (h : NamespaceDisjoint a b) :
    NamespaceDisjoint b a :=
  fun v hb ha => h v ha hb

omit [Sha256] in
theorem EnvironmentDisjoint.symm {a b : EnvironmentHandle} (h : EnvironmentDisjoint a b) :
    EnvironmentDisjoint b a :=
  ⟨h.1.symm, h.2.symm⟩

/-- `_assert_environment_identity_disjoint`. -/
def assertEnvironmentIdentityDisjoint (candidate existing : EnvironmentHandle) :
    Except Exc Unit := do
  Imp.require (candidate.environmentId ≠ existing.environmentId)
    (.lifecycleError "environment identifier is already assigned to another world")
  Imp.require (candidate.opaqueRef ≠ existing.opaqueRef)
    (.lifecycleError "opaque environment reference is already assigned to another world")

/-- `_assert_environment_namespace_disjoint`. -/
def assertEnvironmentNamespaceDisjoint (candidate existing : EnvironmentHandle) :
    Except Exc Unit :=
  Imp.require (NamespaceDisjoint candidate existing)
    (.lifecycleError "world namespace component is already assigned to another world")

/-- `_assert_environment_disjoint`. -/
def assertEnvironmentDisjoint (candidate existing : EnvironmentHandle) : Except Exc Unit := do
  assertEnvironmentIdentityDisjoint candidate existing
  assertEnvironmentNamespaceDisjoint candidate existing

namespace WorldStore

/-- Run a check against the environment of every live world. -/
def forLiveEnvironments (s : WorldStore) (excluding : Option NonEmpty)
    (check : EnvironmentHandle → Except Exc Unit) : Except Exc Unit :=
  Imp.forEach s.nodes.entries fun e =>
    if some e.1 = excluding then .ok () else
      match e.2.liveEnvironment with
      | none => .ok ()
      | some environment => check environment

/-- Run a check against the environment of every reservation that has claimed one. -/
def forPendingEnvironments (s : WorldStore) (excluding : Option NonEmpty)
    (check : EnvironmentHandle → Except Exc Unit) : Except Exc Unit :=
  Imp.forEach s.pendingWorlds.entries fun e =>
    if some e.1 = excluding then .ok () else
      match e.2.environment with
      | none => .ok ()
      | some environment => check environment

/-- `_assert_environment_unassigned`. -/
def assertEnvironmentUnassigned (s : WorldStore) (candidate : EnvironmentHandle)
    (excluding : Option NonEmpty) : Except Exc Unit := do
  s.forLiveEnvironments excluding (assertEnvironmentDisjoint candidate)
  s.forPendingEnvironments excluding (assertEnvironmentDisjoint candidate)

/-- `_assert_unique_live_environment`. -/
def assertUniqueLiveEnvironment (s : WorldStore) (node : WorldNode)
    (excluding : Option NonEmpty) : Except Exc Unit :=
  match node.liveEnvironment with
  | none => .ok ()
  | some environment => s.assertEnvironmentUnassigned environment excluding

/-! ## Reservations -/

/-- `_reserve_world`, on an identifier that was already validated. -/
def reserveWorld (worldId : NonEmpty) : StoreM WorldReservation := do
  let s ← MonadState.get
  Imp.lift (Imp.require (s.nodes.contains worldId = false ∧ s.pendingWorlds.contains worldId = false)
    (.lifecycleError "world identifier already exists or is reserved"))
  let reservation : WorldReservation := ⟨worldId, s.reservationsIssued⟩
  modify fun s => { s with
    pendingWorlds := s.pendingWorlds.insert worldId { reservation := reservation }
    reservationsIssued := s.reservationsIssued + 1 }
  return reservation

/-- `_pending_for`. -/
def pendingFor (s : WorldStore) (reservation : WorldReservation) : Except Exc PendingWorld :=
  match s.pendingWorlds.get? reservation.worldId with
  | some pending =>
      if pending.reservation = reservation then .ok pending
      else .error (.lifecycleError "world reservation is no longer active")
  | none => .error (.lifecycleError "world reservation is no longer active")

/-- `_claim_environment`. -/
def claimEnvironment (reservation : WorldReservation) (environment : EnvironmentHandle) :
    StoreM Unit := do
  let s ← MonadState.get
  let pending ← Imp.lift (s.pendingFor reservation)
  Imp.lift (Imp.require (pending.environment = none)
    (.lifecycleError "world reservation already owns an environment"))
  Imp.lift (s.forLiveEnvironments none (assertEnvironmentIdentityDisjoint environment))
  Imp.lift (s.forPendingEnvironments (some reservation.worldId)
    (assertEnvironmentIdentityDisjoint environment))
  modify fun s => { s with
    pendingWorlds := s.pendingWorlds.insert reservation.worldId
      { pending with environment := some environment } }

/-- `_validate_reserved_namespace`. -/
def validateReservedNamespace (s : WorldStore) (reservation : WorldReservation) :
    Except Exc Unit := do
  let pending ← s.pendingFor reservation
  match pending.environment with
  | none => .error (.lifecycleError "world reservation has no environment")
  | some candidate => do
      s.forLiveEnvironments none (assertEnvironmentNamespaceDisjoint candidate)
      s.forPendingEnvironments (some reservation.worldId)
        (assertEnvironmentNamespaceDisjoint candidate)

/-- `_release_world`. -/
def releaseWorld (reservation : WorldReservation) : StoreM Unit := do
  let s ← MonadState.get
  let _ ← Imp.lift (s.pendingFor reservation)
  modify fun s => { s with pendingWorlds := s.pendingWorlds.erase reservation.worldId }

/-! ## Publication and replacement -/

/-- `_validate_parent`. -/
def validateParent (s : WorldStore) (node : WorldNode) (requireLive : Bool) : Except Exc Unit :=
  match node.parentWorldId with
  | none =>
      Imp.require (node.lineage = [])
        (.lifecycleError "root worlds cannot claim transition lineage")
  | some parentWorldId => do
      let parent ← s.get parentWorldId
      Imp.require (¬ (requireLive = true ∧ parent.destroyed = true) ∧
          parent.rootSnapshotId = node.rootSnapshotId ∧ parent.target = node.target ∧
          parent.adapter = node.adapter ∧ parent.capabilityManifest = node.capabilityManifest)
        (.lifecycleError "invalid parent lineage")
      Imp.require (node.lineage.length = parent.lineage.length + 1 ∧
          node.lineage.dropLast = parent.lineage)
        (.lifecycleError "world lineage must extend the complete parent transition prefix")

/-- One turn of the loop of `_rebuild_indexes`. -/
def rebuildStep (acc : Dict NonEmpty WorldNode × Dict FingerprintKey NonEmpty)
    (e : NonEmpty × WorldNode) :
    Except Exc (Dict NonEmpty WorldNode × Dict FingerprintKey NonEmpty) := do
  let key := fingerprintKey e.2
  let canonical := if e.2.destroyed then none else acc.2.get? key
  let node ← { e.2 with deduplicatedTo := canonical }.modelValidate
  return (acc.1.insert e.1 node, if e.2.destroyed then acc.2 else acc.2.setdefault key e.1)

/-- `_rebuild_indexes`. -/
def rebuildIndexes : StoreM Unit := do
  let s ← MonadState.get
  let rebuilt ← Imp.lift (s.nodes.entries.foldlM rebuildStep (.empty, .empty))
  modify fun s => { s with nodes := rebuilt.1, fingerprints := rebuilt.2 }

/-- The stored node of an identifier, which the caller has just written. -/
def readBack (worldId : NonEmpty) : StoreM WorldNode := do
  let s ← MonadState.get
  Imp.lift (s.get worldId)

/-- `_add`. -/
def add (node : WorldNode) (reservation : WorldReservation) : StoreM WorldNode := do
  let node ← Imp.lift node.modelValidate
  let s ← MonadState.get
  Imp.lift (Imp.require (s.nodes.contains node.worldId = false)
    (.lifecycleError "world identifier already exists"))
  let pending ← Imp.lift (s.pendingFor reservation)
  Imp.lift (Imp.require (reservation.worldId = node.worldId)
    (.lifecycleError "world reservation does not match the published world"))
  Imp.lift (Imp.require (node.environment = none → pending.environment = none)
    (.lifecycleError "a ghost world cannot consume an environment reservation"))
  Imp.lift (Imp.require (node.environment ≠ none → pending.environment = node.environment)
    (.lifecycleError "world reservation does not own the published environment"))
  Imp.lift (Imp.require (node.revision = 0)
    (.lifecycleError "new worlds must start at revision zero"))
  Imp.lift (s.validateParent node true)
  Imp.lift (s.assertUniqueLiveEnvironment node (some node.worldId))
  modify fun s => { s with nodes := s.nodes.insert node.worldId node }
  rebuildIndexes
  modify fun s => { s with pendingWorlds := s.pendingWorlds.erase reservation.worldId }
  readBack node.worldId

/-- The fields `_replace` compares as `immutable_identity`. -/
def sameIdentity (a b : WorldNode) : Prop :=
  a.parentWorldId = b.parentWorldId ∧ a.rootSnapshotId = b.rootSnapshotId ∧ a.target = b.target ∧
    a.adapter = b.adapter ∧ a.capabilityManifest = b.capabilityManifest ∧ a.lineage = b.lineage

instance (a b : WorldNode) : Decidable (sameIdentity a b) :=
  inferInstanceAs (Decidable (_ ∧ _ ∧ _ ∧ _ ∧ _ ∧ _))

/-- `_replace`. -/
def replace (node : WorldNode) (expectedRevision : Nat) : StoreM WorldNode := do
  let node ← Imp.lift node.modelValidate
  let s ← MonadState.get
  let existing ← Imp.lift (s.get node.worldId)
  Imp.lift (Imp.require (node.revision = expectedRevision ∧ existing.revision = expectedRevision)
    (.revisionConflict "world revision changed before commit"))
  Imp.lift (Imp.require (sameIdentity existing node)
    (.lifecycleError "world identity and lineage are immutable"))
  Imp.lift (Imp.require (existing.destroyed = true → node.destroyed = true)
    (.lifecycleError "destroyed worlds cannot be revived"))
  Imp.lift (Imp.require (existing.environment = none → node.environment = none)
    (.lifecycleError "an existing world cannot attach an environment"))
  Imp.lift (Imp.require
    (existing.environment ≠ none → node.environment = none → node.destroyed = true)
    (.lifecycleError "a live world cannot release its environment"))
  Imp.lift (Imp.require
    (existing.environment ≠ none → node.environment ≠ none →
      existing.environment = node.environment)
    (.lifecycleError "a world cannot switch environment identity"))
  Imp.lift (s.validateParent node false)
  let committed ← Imp.lift { node with revision := expectedRevision + 1 }.modelValidate
  modify fun s => { s with nodes := s.nodes.insert node.worldId committed }
  rebuildIndexes
  readBack node.worldId

end WorldStore

/-! ## Specifications of the checks -/

omit [Sha256] in
theorem assertEnvironmentIdentityDisjoint_eq_ok {a b : EnvironmentHandle} :
    assertEnvironmentIdentityDisjoint a b = .ok () ↔ IdentityDisjoint a b := by
  rw [assertEnvironmentIdentityDisjoint, Imp.check_bind_eq_ok, Imp.require_eq_ok,
    Imp.require_eq_ok, IdentityDisjoint]

omit [Sha256] in
theorem assertEnvironmentNamespaceDisjoint_eq_ok {a b : EnvironmentHandle} :
    assertEnvironmentNamespaceDisjoint a b = .ok () ↔ NamespaceDisjoint a b :=
  Imp.require_eq_ok

omit [Sha256] in
theorem assertEnvironmentDisjoint_eq_ok {a b : EnvironmentHandle} :
    assertEnvironmentDisjoint a b = .ok () ↔ EnvironmentDisjoint a b := by
  rw [assertEnvironmentDisjoint, Imp.check_bind_eq_ok, assertEnvironmentIdentityDisjoint_eq_ok,
    assertEnvironmentNamespaceDisjoint_eq_ok, EnvironmentDisjoint]

theorem liveEnvironment_eq_some {node : WorldNode} {e : EnvironmentHandle} :
    node.liveEnvironment = some e ↔ node.destroyed = false ∧ node.environment = some e := by
  unfold WorldNode.liveEnvironment
  cases node.destroyed <;> simp

namespace WorldStore

variable {s s' : WorldStore} {reservation : WorldReservation} {excluding : Option NonEmpty}
  {check : EnvironmentHandle → Except Exc Unit}

/-- `e` is the environment of a live world other than the excluded one. -/
def HeldByLive (s : WorldStore) (excluding : Option NonEmpty) (e : EnvironmentHandle) : Prop :=
  ∃ worldId node, s.nodes.get? worldId = some node ∧ some worldId ≠ excluding ∧
    node.liveEnvironment = some e

/-- `e` is claimed by a pending reservation other than the excluded one. -/
def HeldByPending (s : WorldStore) (excluding : Option NonEmpty) (e : EnvironmentHandle) : Prop :=
  ∃ worldId pending, s.pendingWorlds.get? worldId = some pending ∧ some worldId ≠ excluding ∧
    pending.environment = some e

theorem forLiveEnvironments_eq_ok :
    s.forLiveEnvironments excluding check = .ok () ↔
      ∀ e, s.HeldByLive excluding e → check e = .ok () := by
  rw [forLiveEnvironments, Imp.forEach_eq_ok]
  constructor
  · rintro h e ⟨worldId, node, hnode, hne, hlive⟩
    simpa [hne, hlive] using h (worldId, node) (Dict.mem_entries.mpr hnode)
  · rintro h ⟨worldId, node⟩ hmem
    by_cases hne : some worldId = excluding
    · simp [hne]
    · cases hlive : node.liveEnvironment with
      | none => simp
      | some e => simpa [hne, hlive] using h e ⟨worldId, node, Dict.mem_entries.mp hmem, hne, hlive⟩

theorem forPendingEnvironments_eq_ok :
    s.forPendingEnvironments excluding check = .ok () ↔
      ∀ e, s.HeldByPending excluding e → check e = .ok () := by
  rw [forPendingEnvironments, Imp.forEach_eq_ok]
  constructor
  · rintro h e ⟨worldId, pending, hpending, hne, henv⟩
    simpa [hne, henv] using h (worldId, pending) (Dict.mem_entries.mpr hpending)
  · rintro h ⟨worldId, pending⟩ hmem
    by_cases hne : some worldId = excluding
    · simp [hne]
    · cases henv : pending.environment with
      | none => simp
      | some e => simpa [hne, henv] using h e ⟨worldId, pending, Dict.mem_entries.mp hmem, hne, henv⟩

theorem assertEnvironmentUnassigned_eq_ok {candidate : EnvironmentHandle} :
    s.assertEnvironmentUnassigned candidate excluding = .ok () ↔
      (∀ e, s.HeldByLive excluding e → EnvironmentDisjoint candidate e) ∧
        ∀ e, s.HeldByPending excluding e → EnvironmentDisjoint candidate e := by
  rw [assertEnvironmentUnassigned, Imp.check_bind_eq_ok, forLiveEnvironments_eq_ok,
    forPendingEnvironments_eq_ok]
  simp only [assertEnvironmentDisjoint_eq_ok]

theorem get_eq_ok {worldId : NonEmpty} {node : WorldNode} :
    s.get worldId = .ok node ↔ s.nodes.get? worldId = some node := by
  unfold get
  cases s.nodes.get? worldId <;> simp

theorem pendingFor_eq_ok {pending : PendingWorld} :
    s.pendingFor reservation = .ok pending ↔
      s.pendingWorlds.get? reservation.worldId = some pending ∧
        pending.reservation = reservation := by
  unfold pendingFor
  cases s.pendingWorlds.get? reservation.worldId with
  | none => simp
  | some p =>
      by_cases h : p.reservation = reservation
      · simp only [h, if_true, Except.ok.injEq, Option.some.injEq]
        exact ⟨fun hp => ⟨hp, hp ▸ h⟩, fun hp => hp.1⟩
      · simp only [h, if_false, Option.some.injEq, false_iff, reduceCtorEq]
        rintro ⟨rfl, hp⟩
        exact h hp

theorem validateReservedNamespace_eq_ok :
    s.validateReservedNamespace reservation = .ok () ↔
      ∃ candidate, s.pendingWorlds.get? reservation.worldId =
          some ⟨reservation, some candidate⟩ ∧
        (∀ e, s.HeldByLive none e → NamespaceDisjoint candidate e) ∧
          ∀ e, s.HeldByPending (some reservation.worldId) e → NamespaceDisjoint candidate e := by
  rw [validateReservedNamespace, Imp.except_bind_eq_ok]
  constructor
  · rintro ⟨⟨r, environment⟩, hpending, h⟩
    obtain ⟨hget, rfl⟩ := pendingFor_eq_ok.mp hpending
    cases environment with
    | none => simp at h
    | some candidate =>
        simp only [Imp.check_bind_eq_ok, forLiveEnvironments_eq_ok, forPendingEnvironments_eq_ok,
          assertEnvironmentNamespaceDisjoint_eq_ok] at h
        exact ⟨candidate, hget, h⟩
  · rintro ⟨candidate, hget, h⟩
    refine ⟨⟨reservation, some candidate⟩, pendingFor_eq_ok.mpr ⟨hget, rfl⟩, ?_⟩
    simp only [Imp.check_bind_eq_ok, forLiveEnvironments_eq_ok, forPendingEnvironments_eq_ok,
      assertEnvironmentNamespaceDisjoint_eq_ok]
    exact h

/-- What `_validate_parent` demands of a node. -/
def ValidParent (s : WorldStore) (node : WorldNode) (requireLive : Bool) : Prop :=
  match node.parentWorldId with
  | none => node.lineage = []
  | some parentWorldId => ∃ parent, s.nodes.get? parentWorldId = some parent ∧
      (requireLive = true → parent.destroyed = false) ∧
      parent.rootSnapshotId = node.rootSnapshotId ∧ parent.target = node.target ∧
      parent.adapter = node.adapter ∧ parent.capabilityManifest = node.capabilityManifest ∧
      ∃ transition, node.lineage = parent.lineage ++ [transition]

omit [Sha256] in
/-- A list is another one and one more element, in the words of the code's slice. -/
theorem extends_iff {α : Type} {l parent : List α} :
    l.length = parent.length + 1 ∧ l.dropLast = parent ↔ ∃ a, l = parent ++ [a] := by
  constructor
  · rintro ⟨hlen, rfl⟩
    have hne : l ≠ [] := by
      rintro rfl
      simp at hlen
    exact ⟨l.getLast hne, (List.dropLast_append_getLast hne).symm⟩
  · rintro ⟨a, rfl⟩
    simp

theorem validateParent_eq_ok {node : WorldNode} {requireLive : Bool} :
    s.validateParent node requireLive = .ok () ↔ s.ValidParent node requireLive := by
  unfold validateParent ValidParent
  cases node.parentWorldId with
  | none => simp
  | some parentWorldId =>
      simp only [Imp.except_bind_eq_ok, get_eq_ok]
      constructor
      · rintro ⟨parent, hget, _, hparent, hlineage⟩
        rw [Imp.require_eq_ok] at hparent hlineage
        obtain ⟨hlive, hroot, htarget, hadapter, hcaps⟩ := hparent
        refine ⟨parent, hget, ?_, hroot, htarget, hadapter, hcaps, extends_iff.mp hlineage⟩
        intro hreq
        simpa [hreq] using hlive
      · rintro ⟨parent, hget, hlive, hroot, htarget, hadapter, hcaps, hlineage⟩
        refine ⟨parent, hget, (), Imp.require_eq_ok.mpr ⟨?_, hroot, htarget, hadapter, hcaps⟩,
          Imp.require_eq_ok.mpr (extends_iff.mpr hlineage)⟩
        rintro ⟨hreq, hdestroyed⟩
        simp [hlive hreq] at hdestroyed

/-! ## Specifications of the reservation methods -/

theorem reserveWorld_eq_ok {worldId : NonEmpty} :
    reserveWorld worldId s = .ok reservation s' ↔
      s.nodes.get? worldId = none ∧ s.pendingWorlds.get? worldId = none ∧
        reservation = ⟨worldId, s.reservationsIssued⟩ ∧
        s' = { s with
          pendingWorlds := s.pendingWorlds.insert worldId { reservation := reservation }
          reservationsIssued := s.reservationsIssued + 1 } := by
  rw [reserveWorld, Imp.get_bind, Imp.lift_check_bind_eq_ok, Imp.require_eq_ok, Dict.contains_eq_false,
    Dict.contains_eq_false, Imp.modify_bind, Imp.pure_eq_ok, and_assoc]
  constructor
  · rintro ⟨hn, hp, rfl, rfl⟩
    exact ⟨hn, hp, rfl, rfl⟩
  · rintro ⟨hn, hp, rfl, rfl⟩
    exact ⟨hn, hp, rfl, rfl⟩

theorem atomic_reserveWorld (worldId : NonEmpty) : Imp.Atomic (reserveWorld worldId) s :=
  Imp.atomic_get_bind (Imp.atomic_lift_bind fun _ _ => Imp.atomic_of_eq_ok rfl)

/-- The store after a reservation has claimed an environment. -/
def claimed (s : WorldStore) (reservation : WorldReservation) (environment : EnvironmentHandle) :
    WorldStore :=
  { s with pendingWorlds :=
      s.pendingWorlds.insert reservation.worldId ⟨reservation, some environment⟩ }

theorem claimEnvironment_eq_ok {environment : EnvironmentHandle} {u : Unit} :
    claimEnvironment reservation environment s = .ok u s' ↔
      s.pendingWorlds.get? reservation.worldId = some ⟨reservation, none⟩ ∧
        (∀ e, s.HeldByLive none e → IdentityDisjoint environment e) ∧
        (∀ e, s.HeldByPending (some reservation.worldId) e → IdentityDisjoint environment e) ∧
        s' = s.claimed reservation environment := by
  rw [claimEnvironment, Imp.get_bind, Imp.lift_bind_eq_ok]
  simp only [Imp.lift_check_bind_eq_ok, Imp.require_eq_ok, forLiveEnvironments_eq_ok,
    forPendingEnvironments_eq_ok, assertEnvironmentIdentityDisjoint_eq_ok, Imp.modify_eq_ok]
  constructor
  · rintro ⟨⟨r, environment'⟩, hpending, hfree, hlive, hpend, rfl⟩
    obtain ⟨hget, rfl⟩ := pendingFor_eq_ok.mp hpending
    simp only at hfree
    subst hfree
    exact ⟨hget, hlive, hpend, rfl⟩
  · rintro ⟨hget, hlive, hpend, rfl⟩
    exact ⟨⟨reservation, none⟩, pendingFor_eq_ok.mpr ⟨hget, rfl⟩, rfl, hlive, hpend, rfl⟩

theorem atomic_claimEnvironment (environment : EnvironmentHandle) :
    Imp.Atomic (claimEnvironment reservation environment) s :=
  Imp.atomic_get_bind <| Imp.atomic_lift_bind fun _ _ => Imp.atomic_lift_bind fun _ _ =>
    Imp.atomic_lift_bind fun _ _ => Imp.atomic_lift_bind fun _ _ => Imp.atomic_modify

/-- The store after a reservation has been released. -/
def released (s : WorldStore) (reservation : WorldReservation) : WorldStore :=
  { s with pendingWorlds := s.pendingWorlds.erase reservation.worldId }

theorem releaseWorld_eq_ok {u : Unit} :
    releaseWorld reservation s = .ok u s' ↔
      (∃ environment, s.pendingWorlds.get? reservation.worldId =
        some ⟨reservation, environment⟩) ∧ s' = s.released reservation := by
  rw [releaseWorld, Imp.get_bind, Imp.lift_bind_eq_ok]
  simp only [Imp.modify_eq_ok]
  constructor
  · rintro ⟨⟨r, environment⟩, hpending, rfl⟩
    obtain ⟨hget, rfl⟩ := pendingFor_eq_ok.mp hpending
    exact ⟨⟨environment, hget⟩, rfl⟩
  · rintro ⟨⟨environment, hget⟩, rfl⟩
    exact ⟨⟨reservation, environment⟩, pendingFor_eq_ok.mpr ⟨hget, rfl⟩, rfl⟩

end WorldStore

end StateWeaver.Worlds
