import StateWeaver.Worlds.Adapter

/-!
# The operations of the manager

An operation runs without interruption from one await to the next. Such a stretch is a computation of
`StoreM` that ends in the place where the operation is suspended next, in its result, or in an
exception. An operation is suspended either at the gate of a world (`GateFrame`) or in an awaited
operation of the adapter (`AdapterFrame`); a frame holds the local variables the rest of the
operation reads.

`try .. except` clauses are handlers: `releasing` while the operation holds a bare reservation,
`cleaning` once it has claimed an environment.
-/

namespace StateWeaver.Worlds

open WorldStore

variable [Sha256]

/-- `_validated_world_id`. -/
def validatedWorldId (worldId : String) : Except Exc NonEmpty :=
  match NonEmpty.ofString? worldId with
  | some worldId => .ok worldId
  | none => .error (.lifecycleError "world identifier is invalid")

/-! ## Calls and frames -/

/-- A call of a public method, with its arguments as the caller passes them. -/
inductive Call [Sha256] where
  | prepare (target : TargetSpec) (worldId : Option String)
  | createGhost (parentWorldId lineageTransition : String) (worldId : Option String)
  | snapshot (worldId : String)
  | fork (parentWorldId lineageTransition : String) (worldId : Option String)
  | restore (worldId : String) (manifest : AdapterValue)
  | destroy (worldId : String)
  | transition (worldId : String) (destination : WorldPhase)

/-- An operation that waits for the gate of a world. -/
inductive GateFrame [Sha256] where
  | createGhost (reservation : WorldReservation) (parentWorldId : NonEmpty)
      (lineageTransition : String)
  | fork (reservation : WorldReservation) (parentWorldId : NonEmpty) (lineageTransition : String)
  | snapshot (worldId : NonEmpty)
  | restore (worldId : NonEmpty) (manifest : SnapshotManifest)
  | destroy (worldId : NonEmpty)
  | transition (worldId : NonEmpty) (destination : WorldPhase)
  deriving DecidableEq

/-- An operation that waits for the adapter. -/
inductive AdapterFrame [Sha256] where
  | prepareEnvironment (reservation : WorldReservation) (target : TargetSpec)
  | prepareSnapshot (reservation : WorldReservation) (target : TargetSpec)
      (environment : EnvironmentHandle)
  | forkEnvironment (reservation : WorldReservation) (parent : WorldNode)
      (manifest : SnapshotManifest) (lineageTransition : String)
  | forkSnapshot (reservation : WorldReservation) (parent : WorldNode) (lineageTransition : String)
      (environment : EnvironmentHandle)
  | cleanupReserved (reservation : WorldReservation) (environment : EnvironmentHandle)
      (primary : Exc)
  | snapshot (node : WorldNode) (environment : EnvironmentHandle)
  | restore (node : WorldNode) (environment : EnvironmentHandle) (manifest : SnapshotManifest)
  | restoredSnapshot (node : WorldNode) (environment : EnvironmentHandle)
      (manifest : SnapshotManifest)
  | cleanupNode (node : WorldNode) (environment : EnvironmentHandle) (primary : Exc)
  | destroy (node : WorldNode) (environment : EnvironmentHandle)
  deriving DecidableEq

/-- Where an operation is suspended. -/
inductive Task [Sha256] where
  | atGate (frame : GateFrame)
  | atAdapter (frame : AdapterFrame)
  deriving DecidableEq

/-- What an operation returns. -/
inductive Returned [Sha256] where
  | node (node : WorldNode)
  | snapshot (manifest : SnapshotManifest)
  deriving DecidableEq

/-- Where a stretch that raises nothing ends. -/
inductive Progress [Sha256] where
  | suspended (task : Task)
  | returned (value : Returned)
  deriving DecidableEq

/-- The methods that go through the same failures: those that materialize a world, `create_ghost`,
those that take a snapshot of a materialized world, `destroy`, and `transition`. -/
inductive Family where
  | materializing | ghost | observing | destroying | transitioning
  deriving DecidableEq

/-- The family of a method. -/
def Call.family : Call → Family
  | .prepare _ _ | .fork _ _ _ => .materializing
  | .createGhost _ _ _ => .ghost
  | .snapshot _ | .restore _ _ => .observing
  | .destroy _ => .destroying
  | .transition _ _ => .transitioning

/-- The family of the operation a frame belongs to. -/
def GateFrame.family : GateFrame → Family
  | .fork _ _ _ => .materializing
  | .createGhost _ _ _ => .ghost
  | .snapshot _ | .restore _ _ => .observing
  | .destroy _ => .destroying
  | .transition _ _ => .transitioning

/-- The family of the operation a frame belongs to. -/
def AdapterFrame.family : AdapterFrame → Family
  | .prepareEnvironment _ _ | .prepareSnapshot _ _ _ | .forkEnvironment _ _ _ _
  | .forkSnapshot _ _ _ _ | .cleanupReserved _ _ _ => .materializing
  | .snapshot _ _ | .restore _ _ _ | .restoredSnapshot _ _ _ | .cleanupNode _ _ _ => .observing
  | .destroy _ _ => .destroying

/-- The family of a suspended operation. -/
def Task.family : Task → Family
  | .atGate frame => frame.family
  | .atAdapter frame => frame.family

/-- The operation of the adapter that a frame awaits. -/
def AdapterFrame.call : AdapterFrame → AdapterCall
  | .prepareEnvironment _ target => .prepare target
  | .prepareSnapshot _ _ environment | .forkSnapshot _ _ _ environment
  | .snapshot _ environment | .restoredSnapshot _ environment _ => .snapshot environment
  | .forkEnvironment _ _ manifest _ => .fork manifest
  | .cleanupReserved _ environment _ | .cleanupNode _ environment _
  | .destroy _ environment => .destroy environment
  | .restore _ environment manifest => .restore environment manifest

/-- The world whose gate an operation waits for. -/
def GateFrame.world : GateFrame → NonEmpty
  | .createGhost _ parentWorldId _ | .fork _ parentWorldId _ => parentWorldId
  | .snapshot worldId | .restore worldId _ | .destroy worldId | .transition worldId _ => worldId

/-- The node that an operation read when it entered the gate it still holds. -/
def AdapterFrame.node? : AdapterFrame → Option WorldNode
  | .forkEnvironment _ parent _ _ | .forkSnapshot _ parent _ _ => some parent
  | .snapshot node _ | .restore node _ _ | .restoredSnapshot node _ _ | .cleanupNode node _ _
  | .destroy node _ => some node
  | .prepareEnvironment _ _ | .prepareSnapshot _ _ _ | .cleanupReserved _ _ _ => none

/-- The reservation an operation holds, and the environment it has claimed for it. -/
def Task.claim? : Task → Option (WorldReservation × Option EnvironmentHandle)
  | .atGate (.createGhost reservation _ _) | .atGate (.fork reservation _ _)
  | .atAdapter (.prepareEnvironment reservation _)
  | .atAdapter (.forkEnvironment reservation _ _ _) => some (reservation, none)
  | .atAdapter (.prepareSnapshot reservation _ environment)
  | .atAdapter (.forkSnapshot reservation _ _ environment)
  | .atAdapter (.cleanupReserved reservation environment _) => some (reservation, some environment)
  | _ => none

/-- The node a suspended operation works on. -/
def Task.node? : Task → Option WorldNode
  | .atGate _ => none
  | .atAdapter frame => frame.node?

/-- The world whose gate a suspended operation holds. -/
def Task.gate? (task : Task) : Option NonEmpty := task.node?.map WorldNode.worldId

/-! ## Handlers -/

/-- `except BaseException: release_world(reservation); raise`. -/
def releasing {α : Type} (reservation : WorldReservation) (body : StoreM α) : StoreM α :=
  Imp.onError body fun primary => releaseWorld reservation >>= fun _ => throw primary

/-- `except BaseException as primary: await _cleanup_reserved_or_raise(..); raise`, up to the await
of the adapter's `destroy`. -/
def cleaning (reservation : WorldReservation) (environment : EnvironmentHandle)
    (body : StoreM Progress) : StoreM Progress :=
  Imp.onError body fun primary =>
    return .suspended (.atAdapter (.cleanupReserved reservation environment primary))

/-- A method that suspends inside the gate when its checks pass. -/
def admitting (admitted : WorldStore → Except Exc AdapterFrame) : StoreM Progress := do
  let s ← MonadState.get
  let frame ← Imp.lift (admitted s)
  return .suspended (.atAdapter frame)

/-- `_store_writer.replace(copy, expected_revision=node.revision)` of a validated copy. -/
def commit (node copy : WorldNode) : StoreM WorldNode := do
  let copy ← Imp.lift copy.modelValidate
  replace copy node.revision

/-! ## Up to the first await

Each method first checks its arguments, then binds the running loop, and then goes on to its first
await. The outer `Except` is what comes before the loop is bound. -/

/-- The identifier of a new world. -/
def resolvedWorldId (worldId : Option String) (uuid : String) : String :=
  worldId.getD ("world:" ++ uuid)

/-- Reserve an identifier and suspend. -/
def reserving (worldId : NonEmpty) (next : WorldReservation → Task) : StoreM Progress := do
  let reservation ← reserveWorld worldId
  return .suspended (next reservation)

/-- A method up to its first await. -/
def Call.start (s : WorldStore) (uuid : String) : Call → Except Exc (StoreM Progress)
  | .prepare target worldId => do
      let worldId ← validatedWorldId (resolvedWorldId worldId uuid)
      return reserving worldId fun reservation => .atAdapter (.prepareEnvironment reservation target)
  | .createGhost parentWorldId lineageTransition worldId => do
      let parentWorldId ← validatedWorldId parentWorldId
      let worldId ← validatedWorldId (resolvedWorldId worldId uuid)
      let _ ← s.get parentWorldId
      return reserving worldId fun reservation =>
        .atGate (.createGhost reservation parentWorldId lineageTransition)
  | .snapshot worldId => do
      let worldId ← validatedWorldId worldId
      let _ ← s.get worldId
      return pure (.suspended (.atGate (.snapshot worldId)))
  | .fork parentWorldId lineageTransition worldId => do
      let parentWorldId ← validatedWorldId parentWorldId
      let worldId ← validatedWorldId (resolvedWorldId worldId uuid)
      let _ ← s.get parentWorldId
      return reserving worldId fun reservation =>
        .atGate (.fork reservation parentWorldId lineageTransition)
  | .restore worldId manifest => do
      let worldId ← validatedWorldId worldId
      let _ ← s.get worldId
      let manifest ← asSnapshot manifest
      return pure (.suspended (.atGate (.restore worldId manifest)))
  | .destroy worldId => do
      let worldId ← validatedWorldId worldId
      let _ ← s.get worldId
      return pure (.suspended (.atGate (.destroy worldId)))
  | .transition worldId destination => do
      let worldId ← validatedWorldId worldId
      let _ ← s.get worldId
      return pure (.suspended (.atGate (.transition worldId destination)))

/-! ## `prepare` and `fork` -/

section Reserved

variable (own : CapabilityManifest) (reservation : WorldReservation)

/-- The lineage of a child, `(*parent.lineage, lineage_transition)`. -/
def childLineage (parent : WorldNode) (lineageTransition : String) : Except Exc (List NonEmpty) :=
  match NonEmpty.ofString? lineageTransition with
  | some transition => .ok (parent.lineage ++ [transition])
  | none => .error (.validationError "lineage transition is invalid")

/-- The environment of `prepare` or `fork` as it comes back from the adapter: check it, claim it, and
ask for its snapshot. -/
def claimAnswered (answer : Answer) (capabilities : Nat → Answer)
    (next : EnvironmentHandle → AdapterFrame) : StoreM Progress := do
  let environment ← releasing reservation do
    let raw ← Imp.lift (bounded answer)
    let environment ← Imp.lift (asHandle raw)
    Imp.lift (checkPin own environment.adapter (capabilities 0))
    claimEnvironment reservation environment
    return environment
  cleaning reservation environment do
    let s ← MonadState.get
    Imp.lift (s.validateReservedNamespace reservation)
    return .suspended (.atAdapter (next environment))

/-- The first snapshot of `prepare` or `fork` as it comes back from the adapter: check it, build the
node, and publish it. -/
def publishAnswered (environment : EnvironmentHandle) (target : TargetSpec)
    (rootSnapshotId : Option NonEmpty) (worldNode : SnapshotManifest → Except Exc WorldNode)
    (answer : Answer) (capabilities : Nat → Answer) : StoreM Progress :=
  cleaning reservation environment do
    let raw ← Imp.lift (bounded answer)
    let snapshot ← Imp.lift (asSnapshot raw)
    Imp.lift (validateSnapshot own snapshot target environment rootSnapshotId (capabilities 0))
    let node ← Imp.lift (worldNode snapshot)
    let node ← add node reservation
    return .returned (.node node)

/-- The node `prepare` publishes. -/
def rootNode (target : TargetSpec) (environment : EnvironmentHandle) (snapshot : SnapshotManifest) :
    WorldNode where
  worldId := reservation.worldId
  parentWorldId := none
  rootSnapshotId := snapshot.rootSnapshotId
  target := target
  adapter := own.pin
  capabilityManifest := own
  phase := .active
  stateFingerprint := snapshot.stateFingerprint
  lineage := []
  environment := some environment
  snapshot := some snapshot

/-- The node `fork` publishes. -/
def forkedNode (parent : WorldNode) (lineage : List NonEmpty) (environment : EnvironmentHandle)
    (snapshot : SnapshotManifest) : WorldNode where
  worldId := reservation.worldId
  parentWorldId := some parent.worldId
  rootSnapshotId := parent.rootSnapshotId
  target := parent.target
  adapter := parent.adapter
  capabilityManifest := parent.capabilityManifest
  phase := .active
  stateFingerprint := snapshot.stateFingerprint
  lineage := lineage
  environment := some environment
  snapshot := some snapshot

/-- The node `create_ghost` publishes. -/
def ghostNode (parent : WorldNode) (lineage : List NonEmpty) : WorldNode where
  worldId := reservation.worldId
  parentWorldId := some parent.worldId
  rootSnapshotId := parent.rootSnapshotId
  target := parent.target
  adapter := parent.adapter
  capabilityManifest := parent.capabilityManifest
  phase := .ghost
  stateFingerprint := parent.stateFingerprint
  lineage := lineage

/-- `prepare`, after the adapter's `prepare`. -/
def prepareEnvironmentAnswered (target : TargetSpec) : Answer → (Nat → Answer) → StoreM Progress :=
  fun answer capabilities =>
    claimAnswered own reservation answer capabilities fun environment =>
      .prepareSnapshot reservation target environment

/-- `prepare`, after the adapter's `snapshot`. -/
def prepareSnapshotAnswered (target : TargetSpec) (environment : EnvironmentHandle) :
    Answer → (Nat → Answer) → StoreM Progress :=
  publishAnswered own reservation environment target none fun snapshot =>
    (rootNode own reservation target environment snapshot).modelValidate

/-- What `fork` checks inside the gate of the parent, before it asks the adapter. -/
def forkAdmitted (s : WorldStore) (parentWorldId : NonEmpty) (lineageTransition : String)
    (capabilities : Nat → Answer) : Except Exc AdapterFrame := do
  let parent ← s.get parentWorldId
  match parent.snapshot with
  | none => .error (.lifecycleError "parent lifecycle state cannot be forked")
  | some manifest => do
      Imp.require (parent.destroyed = false ∧ parent.phase ∈ forkablePhases)
        (.lifecycleError "parent lifecycle state cannot be forked")
      checkPin own parent.adapter (capabilities 0)
      return .forkEnvironment reservation parent manifest lineageTransition

/-- `fork`, from entering the gate of the parent. -/
def forkEntered (parentWorldId : NonEmpty) (lineageTransition : String)
    (capabilities : Nat → Answer) : StoreM Progress :=
  releasing reservation <| admitting fun s =>
    forkAdmitted own reservation s parentWorldId lineageTransition capabilities

/-- `fork`, after the adapter's `fork`. -/
def forkEnvironmentAnswered (parent : WorldNode) (lineageTransition : String) :
    Answer → (Nat → Answer) → StoreM Progress :=
  fun answer capabilities =>
    claimAnswered own reservation answer capabilities fun environment =>
      .forkSnapshot reservation parent lineageTransition environment

/-- `fork`, after the adapter's `snapshot`. -/
def forkSnapshotAnswered (parent : WorldNode) (lineageTransition : String)
    (environment : EnvironmentHandle) : Answer → (Nat → Answer) → StoreM Progress :=
  publishAnswered own reservation environment parent.target (some parent.rootSnapshotId)
    fun snapshot => do
      let lineage ← childLineage parent lineageTransition
      (forkedNode reservation parent lineage environment snapshot).modelValidate

/-- `_cleanup_reserved_or_raise`, after the adapter's `destroy`, and the re-raise that follows. -/
def cleanupReservedAnswered (primary : Exc) (answer : Answer) : StoreM Progress :=
  match bounded answer with
  | .error cleanupError => throw (.cleanupError primary cleanupError)
  | .ok _ => do
      releaseWorld reservation
      throw primary

/-- `create_ghost`, from entering the gate of the parent. -/
def createGhostEntered (parentWorldId : NonEmpty) (lineageTransition : String)
    (capabilities : Nat → Answer) : StoreM Progress :=
  releasing reservation do
    let s ← MonadState.get
    let parent ← Imp.lift (s.get parentWorldId)
    Imp.lift (checkPin own parent.adapter (capabilities 0))
    let lineage ← Imp.lift (childLineage parent lineageTransition)
    let node ← Imp.lift (ghostNode reservation parent lineage).modelValidate
    let node ← add node reservation
    return .returned (.node node)

end Reserved

/-! ## `snapshot` and `restore` -/

section Published

variable (own : CapabilityManifest)

/-- What `snapshot` checks inside the gate, before it asks the adapter. -/
def snapshotAdmitted (s : WorldStore) (worldId : NonEmpty) (capabilities : Nat → Answer) :
    Except Exc AdapterFrame := do
  let node ← s.get worldId
  match node.liveEnvironment with
  | none => .error (.lifecycleError "world has no live environment")
  | some environment => do
      checkPin own node.adapter (capabilities 0)
      return .snapshot node environment

/-- The `try` clause of `snapshot` once the adapter has answered. -/
def snapshotChecked (node : WorldNode) (environment : EnvironmentHandle) (answer : Answer)
    (capabilities : Nat → Answer) : Except Exc SnapshotManifest := do
  let raw ← bounded answer
  let snapshot ← asSnapshot raw
  validateSnapshot own snapshot node.target environment (some node.rootSnapshotId) (capabilities 0)
  return snapshot

/-- The copy of a node that a new snapshot leaves. -/
def WorldNode.withSnapshot (node : WorldNode) (snapshot : SnapshotManifest) : WorldNode :=
  { node with snapshot := some snapshot, stateFingerprint := snapshot.stateFingerprint }

/-- The copy of a node whose environment is gone. -/
def WorldNode.gone (node : WorldNode) : WorldNode :=
  { node with destroyed := true, environment := none }

/-- The copy of a node without an environment that is given up. -/
def WorldNode.discarded (node : WorldNode) : WorldNode := { node with destroyed := true }

/-- The copy of a node whose environment could not be cleaned up. -/
def WorldNode.blocked (node : WorldNode) : WorldNode := { node with phase := .blocked }

/-- `snapshot`, after the adapter's `snapshot`. -/
def snapshotAnswered (node : WorldNode) (environment : EnvironmentHandle) (answer : Answer)
    (capabilities : Nat → Answer) : StoreM Progress :=
  match snapshotChecked own node environment answer capabilities with
  | .error primary => return .suspended (.atAdapter (.cleanupNode node environment primary))
  | .ok snapshot => do
      let _ ← commit node (node.withSnapshot snapshot)
      return .returned (.snapshot snapshot)

/-- What `restore` checks inside the gate, before it asks the adapter. -/
def restoreAdmitted (s : WorldStore) (worldId : NonEmpty) (manifest : SnapshotManifest)
    (capabilities : Nat → Answer) : Except Exc AdapterFrame := do
  let node ← s.get worldId
  match node.liveEnvironment with
  | none => .error (.lifecycleError "world is unavailable for restore")
  | some environment => do
      Imp.require (node.phase ≠ .pruned) (.lifecycleError "world is unavailable for restore")
      checkPin own node.adapter (capabilities 0)
      validateSnapshot own manifest node.target environment (some node.rootSnapshotId)
        (capabilities 1)
      return .restore node environment manifest

/-- `restore`, after the adapter's `restore`. -/
def restoreAnswered (node : WorldNode) (environment : EnvironmentHandle)
    (manifest : SnapshotManifest) (answer : Answer) : StoreM Progress :=
  match bounded answer >>= requireNone with
  | .error primary => return .suspended (.atAdapter (.cleanupNode node environment primary))
  | .ok _ => return .suspended (.atAdapter (.restoredSnapshot node environment manifest))

/-- The `try` clause of `restore` once the adapter has answered the second time. -/
def restoredChecked (node : WorldNode) (environment : EnvironmentHandle)
    (manifest : SnapshotManifest) (answer : Answer) (capabilities : Nat → Answer) :
    Except Exc SnapshotManifest := do
  let restored ← snapshotChecked own node environment answer capabilities
  Imp.require (restored.contentHashes = manifest.contentHashes)
    (.lifecycleError "restore identity verification failed")
  return restored

/-- `restore`, after the adapter's `snapshot`. -/
def restoredSnapshotAnswered (node : WorldNode) (environment : EnvironmentHandle)
    (manifest : SnapshotManifest) (answer : Answer) (capabilities : Nat → Answer) :
    StoreM Progress :=
  match restoredChecked own node environment manifest answer capabilities with
  | .error primary => return .suspended (.atAdapter (.cleanupNode node environment primary))
  | .ok restored => do
      let node ← commit node (node.withSnapshot restored)
      return .returned (.node node)

/-- The handler of `snapshot` and `restore`, after the adapter's `destroy`. -/
def cleanupNodeAnswered (node : WorldNode) (primary : Exc) (answer : Answer) : StoreM Progress :=
  match bounded answer with
  | .error cleanupError => do
      let _ ← commit node node.blocked
      throw (.cleanupError primary cleanupError)
  | .ok _ => do
      let _ ← commit node node.gone
      throw primary

/-! ## `destroy` and `transition` -/

/-- `destroy`, from entering the gate. -/
def destroyEntered (worldId : NonEmpty) (capabilities : Nat → Answer) : StoreM Progress := do
  let s ← MonadState.get
  let node ← Imp.lift (s.get worldId)
  if node.destroyed then
    return .returned (.node node)
  else
    match node.environment with
    | none => do
        let node ← commit node node.discarded
        return .returned (.node node)
    | some environment => do
        Imp.lift (checkPin own node.adapter (capabilities 0))
        return .suspended (.atAdapter (.destroy node environment))

/-- `destroy`, after the adapter's `destroy`. -/
def destroyAnswered (node : WorldNode) (answer : Answer) : StoreM Progress := do
  let _ ← Imp.lift (bounded answer)
  let node ← commit node node.gone
  return .returned (.node node)

/-- `transition`, from entering the gate. -/
def transitionEntered (worldId : NonEmpty) (destination : WorldPhase) : StoreM Progress := do
  let s ← MonadState.get
  let node ← Imp.lift (s.get worldId)
  Imp.lift (Imp.require (node.destroyed = false)
    (.lifecycleError "destroyed worlds cannot transition"))
  Imp.lift (Imp.require (destination ∈ legalTransitions node.phase)
    (.lifecycleError "illegal world lifecycle transition"))
  let node ← commit node { node with phase := destination }
  return .returned (.node node)

/-- `snapshot`, from entering the gate. -/
def snapshotEntered (worldId : NonEmpty) (capabilities : Nat → Answer) : StoreM Progress :=
  admitting fun s => snapshotAdmitted own s worldId capabilities

/-- `restore`, from entering the gate. -/
def restoreEntered (worldId : NonEmpty) (manifest : SnapshotManifest)
    (capabilities : Nat → Answer) : StoreM Progress :=
  admitting fun s => restoreAdmitted own s worldId manifest capabilities

/-! ## Resuming a frame -/

/-- What an operation does when it enters the gate. -/
def GateFrame.enter (capabilities : Nat → Answer) : GateFrame → StoreM Progress
  | .createGhost reservation parentWorldId lineageTransition =>
      createGhostEntered own reservation parentWorldId lineageTransition capabilities
  | .fork reservation parentWorldId lineageTransition =>
      forkEntered own reservation parentWorldId lineageTransition capabilities
  | .snapshot worldId => snapshotEntered own worldId capabilities
  | .restore worldId manifest => restoreEntered own worldId manifest capabilities
  | .destroy worldId => destroyEntered own worldId capabilities
  | .transition worldId destination => transitionEntered worldId destination

/-- What an operation does when it is cancelled while it waits for the gate. -/
def GateFrame.cancelled : GateFrame → StoreM Progress
  | .createGhost reservation _ _ | .fork reservation _ _ =>
      releasing reservation (throw .cancelledError)
  | .snapshot _ | .restore _ _ | .destroy _ | .transition _ _ => throw .cancelledError

/-- What an operation does with the answer of the adapter. -/
def AdapterFrame.answered (answer : Answer) (capabilities : Nat → Answer) :
    AdapterFrame → StoreM Progress
  | .prepareEnvironment reservation target =>
      prepareEnvironmentAnswered own reservation target answer capabilities
  | .prepareSnapshot reservation target environment =>
      prepareSnapshotAnswered own reservation target environment answer capabilities
  | .forkEnvironment reservation parent _ lineageTransition =>
      forkEnvironmentAnswered own reservation parent lineageTransition answer capabilities
  | .forkSnapshot reservation parent lineageTransition environment =>
      forkSnapshotAnswered own reservation parent lineageTransition environment answer capabilities
  | .cleanupReserved reservation _ primary => cleanupReservedAnswered reservation primary answer
  | .snapshot node environment => snapshotAnswered own node environment answer capabilities
  | .restore node environment manifest => restoreAnswered node environment manifest answer
  | .restoredSnapshot node environment manifest =>
      restoredSnapshotAnswered own node environment manifest answer capabilities
  | .cleanupNode node _ primary => cleanupNodeAnswered node primary answer
  | .destroy node _ => destroyAnswered node answer

end Published

end StateWeaver.Worlds
