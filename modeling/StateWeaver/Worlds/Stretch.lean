import StateWeaver.Worlds.Manager

/-!
# What one stretch of an operation can do

`Stretch` lists every way a stretch can end: what it found, the store it left, and where the
operation is afterwards. `TaskInvariant` is what a suspended operation may rely on, and with it the
four theorems at the end show that nothing else happens. Everything that is proved about the manager
afterwards goes by cases on `Stretch`.
-/

namespace StateWeaver.Worlds

open WorldStore

variable [Sha256]

/-- What lets an operation run. -/
inductive Cue [Sha256] where
  | started (call : Call)
  | entered (frame : GateFrame)
  | cancelled (frame : GateFrame)
  | answered (frame : AdapterFrame) (answer : Answer)

/-- Where the operation was suspended. -/
def Cue.task? : Cue → Option Task
  | .started _ => none
  | .entered frame | .cancelled frame => some (.atGate frame)
  | .answered frame _ => some (.atAdapter frame)

/-- What the operation holds when it starts to run. -/
def Cue.claim? (cue : Cue) : Option (WorldReservation × Option EnvironmentHandle) :=
  cue.task?.bind Task.claim?

/-- The world whose gate the operation holds while it runs. -/
def Cue.gate? : Cue → Option NonEmpty
  | .entered frame => some frame.world
  | .answered frame _ => frame.node?.map WorldNode.worldId
  | .started _ | .cancelled _ => none

/-- The family of the operation that runs. -/
def Cue.family : Cue → Family
  | .started call => call.family
  | .entered frame | .cancelled frame => frame.family
  | .answered frame _ => frame.family

/-- Where the operation is suspended afterwards. -/
def Outcome.task? : Outcome → Option Task
  | .suspended task => some task
  | .returned _ | .raised _ => none

/-- The reservation of an operation that awaits its environment, and its frame once it has claimed
one. -/
def AdapterFrame.claiming? :
    AdapterFrame → Option (WorldReservation × (EnvironmentHandle → AdapterFrame))
  | .prepareEnvironment reservation target =>
      some (reservation, fun environment => .prepareSnapshot reservation target environment)
  | .forkEnvironment reservation parent _ lineageTransition =>
      some (reservation, fun environment =>
        .forkSnapshot reservation parent lineageTransition environment)
  | _ => none

/-- The reservation and the environment of an operation that has claimed one, has passed the
namespace check and awaits the first snapshot. -/
def AdapterFrame.publishing? : AdapterFrame → Option (WorldReservation × EnvironmentHandle)
  | .prepareSnapshot reservation _ environment | .forkSnapshot reservation _ _ environment =>
      some (reservation, environment)
  | _ => none

/-- The node and the environment an operation on a published world works with. -/
def AdapterFrame.working? : AdapterFrame → Option (WorldNode × EnvironmentHandle)
  | .snapshot node environment | .restore node environment _ | .restoredSnapshot node environment _
  | .cleanupNode node environment _ | .destroy node environment => some (node, environment)
  | _ => none

/-- Whether a failure of the operation is followed by a cleanup of the node's environment. -/
def AdapterFrame.guarded : AdapterFrame → Bool
  | .snapshot _ _ | .restore _ _ _ | .restoredSnapshot _ _ _ => true
  | _ => false

/-- What a suspended operation may rely on. -/
structure TaskInvariant (own : CapabilityManifest) (s : WorldStore) (task : Task) : Prop where
  /-- Its reservation is active and holds the environment it claimed. -/
  claim : ∀ reservation environment, task.claim? = some (reservation, environment) →
    s.pendingWorlds.get? reservation.worldId = some ⟨reservation, environment⟩
  pinned : ∀ reservation environment, task.claim? = some (reservation, some environment) →
    environment.adapter = own.pin
  /-- The node it has read is still the stored one, and lives. -/
  read : ∀ node, task.node? = some node →
    s.bareNode node.worldId = some node.bare ∧ node.Coherent ∧ node.destroyed = false
  working : ∀ frame node environment, task = .atAdapter frame →
    frame.working? = some (node, environment) → node.environment = some environment

/-- The store of a manager: well formed, and every world pinned to the manager's capabilities. -/
structure StoreInvariant (own : CapabilityManifest) (s : WorldStore) : Prop where
  wellFormed : s.WellFormed
  pinned : ∀ worldId node, s.bareNode worldId = some node →
    node.adapter = own.pin ∧ node.capabilityManifest = own

/-- The ways a stretch can end. -/
inductive Stretch (own : CapabilityManifest) (s : WorldStore) : Cue → Outcome → WorldStore → Prop
  /-- A call is refused before it has done anything. -/
  | refused {call e} : Stretch own s (.started call) (.raised e) s
  | reserved {call s' reservation next}
      (hrun : reserveWorld reservation.worldId s = .ok reservation s')
      (hclaim : next.claim? = some (reservation, none)) (hnode : next.node? = none)
      (hframe : ∀ frame, next = .atAdapter frame → frame.working? = none)
      (hfamily : next.family = call.family) :
      Stretch own s (.started call) (.suspended next) s'
  | queued {call frame} (hclaim : (Task.atGate frame).claim? = none)
      (hfamily : frame.family = call.family) :
      Stretch own s (.started call) (.suspended (.atGate frame)) s
  /-- An operation without a reservation fails at the gate or its checks inside the gate fail. -/
  | turnedAway {cue frame e} (hcue : cue = .entered frame ∨ cue = .cancelled frame)
      (hclaim : (Task.atGate frame).claim? = none) : Stretch own s cue (.raised e) s
  /-- An operation with a reservation fails before it has claimed an environment. -/
  | dropped {cue reservation e} (hclaim : cue.claim? = some (reservation, none)) :
      Stretch own s cue (.raised e) (s.released reservation)
  | forkAdmitted {reservation parentWorldId lineageTransition parent manifest}
      (hget : s.nodes.get? parentWorldId = some parent) (hsnapshot : parent.snapshot = some manifest)
      (hlive : parent.destroyed = false) (hphase : parent.phase ∈ forkablePhases) :
      Stretch own s (.entered (.fork reservation parentWorldId lineageTransition))
        (.suspended (.atAdapter (.forkEnvironment reservation parent manifest lineageTransition))) s
  | ghostPublished {reservation parentWorldId lineageTransition parent lineage node'}
      (hget : s.nodes.get? parentWorldId = some parent)
      (hlineage : childLineage parent lineageTransition = .ok lineage)
      (hcan : s.CanPublish (ghostNode reservation parent lineage) reservation) :
      Stretch own s (.entered (.createGhost reservation parentWorldId lineageTransition))
        (.returned (.node node')) (s.published (ghostNode reservation parent lineage))
  | snapshotAdmitted {worldId node environment} (hget : s.nodes.get? worldId = some node)
      (hlive : node.liveEnvironment = some environment) :
      Stretch own s (.entered (.snapshot worldId))
        (.suspended (.atAdapter (.snapshot node environment))) s
  | restoreAdmitted {worldId node environment manifest} (hget : s.nodes.get? worldId = some node)
      (hlive : node.liveEnvironment = some environment) (hphase : node.phase ≠ .pruned)
      (hfits : SnapshotFits own manifest node.target environment (some node.rootSnapshotId)) :
      Stretch own s (.entered (.restore worldId manifest))
        (.suspended (.atAdapter (.restore node environment manifest))) s
  | destroyAdmitted {worldId node environment} (hget : s.nodes.get? worldId = some node)
      (hlive : node.liveEnvironment = some environment) :
      Stretch own s (.entered (.destroy worldId))
        (.suspended (.atAdapter (.destroy node environment))) s
  | alreadyDestroyed {worldId node} (hget : s.nodes.get? worldId = some node)
      (hdestroyed : node.destroyed = true) :
      Stretch own s (.entered (.destroy worldId)) (.returned (.node node)) s
  | unmaterializedDestroyed {worldId node node' existing}
      (hget : s.nodes.get? worldId = some node) (henvironment : node.environment = none)
      (hcan : s.CanReplace node.discarded node.revision existing) :
      Stretch own s (.entered (.destroy worldId)) (.returned (.node node'))
        (s.replaced node.discarded)
  | transitioned {worldId destination node node' existing}
      (hget : s.nodes.get? worldId = some node) (hlive : node.destroyed = false)
      (hlegal : destination ∈ legalTransitions node.phase)
      (hcan : s.CanReplace { node with phase := destination } node.revision existing) :
      Stretch own s (.entered (.transition worldId destination)) (.returned (.node node'))
        (s.replaced { node with phase := destination })
  | claimed {frame reservation next environment} (hframe : frame.claiming? = some (reservation, next))
      (hpin : environment.adapter = own.pin)
      (hrun : claimEnvironment reservation environment s = .ok () (s.claimed reservation environment))
      (hnamespace :
        (s.claimed reservation environment).validateReservedNamespace reservation = .ok ()) :
      Stretch own s (.answered frame (.returned (.handle environment)))
        (.suspended (.atAdapter (next environment))) (s.claimed reservation environment)
  | overlapping {frame reservation next environment primary}
      (hframe : frame.claiming? = some (reservation, next)) (hpin : environment.adapter = own.pin)
      (hrun : claimEnvironment reservation environment s = .ok () (s.claimed reservation environment)) :
      Stretch own s (.answered frame (.returned (.handle environment)))
        (.suspended (.atAdapter (.cleanupReserved reservation environment primary)))
        (s.claimed reservation environment)
  | rootPublished {reservation target environment snapshot node'}
      (hfits : SnapshotFits own snapshot target environment none)
      (hcan : s.CanPublish (rootNode own reservation target environment snapshot) reservation) :
      Stretch own s
        (.answered (.prepareSnapshot reservation target environment) (.returned (.snapshot snapshot)))
        (.returned (.node node')) (s.published (rootNode own reservation target environment snapshot))
  | forkPublished {reservation parent lineageTransition environment snapshot lineage node'}
      (hfits : SnapshotFits own snapshot parent.target environment (some parent.rootSnapshotId))
      (hlineage : childLineage parent lineageTransition = .ok lineage)
      (hcan : s.CanPublish (forkedNode reservation parent lineage environment snapshot) reservation) :
      Stretch own s
        (.answered (.forkSnapshot reservation parent lineageTransition environment)
          (.returned (.snapshot snapshot)))
        (.returned (.node node'))
        (s.published (forkedNode reservation parent lineage environment snapshot))
  /-- The world is not published; its environment has to be cleaned up. -/
  | unpublished {frame answer reservation environment primary}
      (hframe : frame.publishing? = some (reservation, environment)) :
      Stretch own s (.answered frame answer)
        (.suspended (.atAdapter (.cleanupReserved reservation environment primary))) s
  | cleanedUp {reservation environment primary value} :
      Stretch own s (.answered (.cleanupReserved reservation environment primary) (.returned value))
        (.raised primary) (s.released reservation)
  /-- The cleanup fails: the reservation and its environment stay in quarantine. -/
  | quarantined {reservation environment primary answer cleanupError}
      (hanswer : bounded answer = .error cleanupError) :
      Stretch own s (.answered (.cleanupReserved reservation environment primary) answer)
        (.raised (.cleanupError primary cleanupError)) s
  | snapshotTaken {node environment snapshot existing}
      (hfits : SnapshotFits own snapshot node.target environment (some node.rootSnapshotId))
      (hcan : s.CanReplace (node.withSnapshot snapshot) node.revision existing) :
      Stretch own s (.answered (.snapshot node environment) (.returned (.snapshot snapshot)))
        (.returned (.snapshot snapshot)) (s.replaced (node.withSnapshot snapshot))
  | restoreAccepted {node environment manifest} :
      Stretch own s (.answered (.restore node environment manifest) (.returned .none_))
        (.suspended (.atAdapter (.restoredSnapshot node environment manifest))) s
  | restored {node environment manifest restored existing node'}
      (hfits : SnapshotFits own restored node.target environment (some node.rootSnapshotId))
      (hsame : restored.contentHashes = manifest.contentHashes)
      (hcan : s.CanReplace (node.withSnapshot restored) node.revision existing) :
      Stretch own s
        (.answered (.restoredSnapshot node environment manifest) (.returned (.snapshot restored)))
        (.returned (.node node')) (s.replaced (node.withSnapshot restored))
  /-- A snapshot or a restore fails after it has called the adapter. -/
  | failing {frame node environment primary answer}
      (hframe : frame.working? = some (node, environment)) (hguarded : frame.guarded = true) :
      Stretch own s (.answered frame answer)
        (.suspended (.atAdapter (.cleanupNode node environment primary))) s
  | removed {node environment primary value existing}
      (hcan : s.CanReplace node.gone node.revision existing) :
      Stretch own s (.answered (.cleanupNode node environment primary) (.returned value))
        (.raised primary) (s.replaced node.gone)
  | blocked {node environment primary answer cleanupError existing}
      (hanswer : bounded answer = .error cleanupError)
      (hcan : s.CanReplace node.blocked node.revision existing) :
      Stretch own s (.answered (.cleanupNode node environment primary) answer)
        (.raised (.cleanupError primary cleanupError)) (s.replaced node.blocked)
  | destroyed {node environment value existing node'}
      (hcan : s.CanReplace node.gone node.revision existing) :
      Stretch own s (.answered (.destroy node environment) (.returned value))
        (.returned (.node node')) (s.replaced node.gone)
  | destroyFailed {node environment answer e} (hanswer : bounded answer = .error e) :
      Stretch own s (.answered (.destroy node environment) answer) (.raised e) s

/-- A run of a stretch ended in one of these ways. -/
def StretchEnds (own : CapabilityManifest) (s : WorldStore) (cue : Cue)
    (result : EStateM.Result Exc WorldStore Progress) : Prop :=
  Stretch own s cue (ending result).1 (ending result).2

variable {own : CapabilityManifest} {s : WorldStore}

/-! ## Handlers -/

/-- The body of a releasing handler returns, or the reservation is released. -/
theorem releasing_cases {α : Type} {reservation : WorldReservation}
    {environment : Option EnvironmentHandle} (body : StoreM α)
    (hpending : s.pendingWorlds.get? reservation.worldId = some ⟨reservation, environment⟩)
    (hatomic : Imp.Atomic body s) :
    (∃ a s', body s = .ok a s' ∧ releasing reservation body s = .ok a s') ∨
      ∃ e, releasing reservation body s = .error e (s.released reservation) := by
  cases hbody : body s with
  | ok a s' => exact Or.inl ⟨a, s', rfl, Imp.onError_eq_ok.mpr (Or.inl hbody)⟩
  | error e s' =>
      have hsame := hatomic e s' hbody
      subst hsame
      refine Or.inr ⟨e, Imp.onError_eq_error.mpr ⟨e, s', hbody, ?_⟩⟩
      exact Imp.bind_eq_error.mpr (Or.inr ⟨(), _, releaseWorld_eq_ok.mpr ⟨⟨_, hpending⟩, rfl⟩,
        Imp.throw_eq_error.mpr ⟨rfl, rfl⟩⟩)

/-- The body of a cleaning handler returns, or the operation goes on to clean up. -/
theorem cleaning_cases (reservation : WorldReservation) (environment : EnvironmentHandle)
    (body : StoreM Progress) (hatomic : Imp.Atomic body s) :
    (∃ p s', body s = .ok p s' ∧ cleaning reservation environment body s = .ok p s') ∨
      ∃ primary, cleaning reservation environment body s =
        .ok (.suspended (.atAdapter (.cleanupReserved reservation environment primary))) s := by
  cases hbody : body s with
  | ok p s' => exact Or.inl ⟨p, s', rfl, Imp.onError_eq_ok.mpr (Or.inl hbody)⟩
  | error primary s' =>
      have hsame := hatomic primary s' hbody
      subst hsame
      exact Or.inr ⟨primary, Imp.onError_eq_ok.mpr
        (Or.inr ⟨primary, s', hbody, Imp.pure_eq_ok.mpr ⟨rfl, rfl⟩⟩)⟩

/-! ## Commits -/

/-- A validated copy of the stored node that keeps its identity can replace it. -/
theorem canReplace_of_read (hstore : s.WellFormed) {node copy : WorldNode}
    (hread : s.bareNode node.worldId = some node.bare) (hlive : node.destroyed = false)
    (hid : copy.worldId = node.worldId) (hrevision : copy.revision = node.revision)
    (hidentity : sameIdentity node copy)
    (henvironment : copy.environment = node.environment ∨
      copy.environment = none ∧ copy.destroyed = true)
    (hcoherent : copy.Coherent) :
    ∃ existing, existing.bare = node.bare ∧ s.CanReplace copy node.revision existing := by
  obtain ⟨existing, hget, hbare⟩ := bareNode_eq_some.mp hread
  have hexisting : existing = { node with deduplicatedTo := existing.deduplicatedTo } := by
    have h : existing = { existing.bare with deduplicatedTo := existing.deduplicatedTo } := rfl
    rwa [hbare] at h
  have hparent : s.ValidParent copy false := by
    have h := hstore.parent _ _ hread
    unfold ValidParent at h ⊢
    obtain ⟨hp, hroot, htarget, hadapter, hcaps, hlineage⟩ := hidentity
    rw [← hp, ← hroot, ← htarget, ← hadapter, ← hcaps, ← hlineage]
    exact h
  refine ⟨existing, hbare, hcoherent, hid ▸ hget, ⟨hrevision, ?_⟩, ?_, ?_, ?_, ?_, ?_, hparent⟩
  all_goals rw [hexisting]
  · exact hidentity
  · intro h
    rw [hlive] at h
    cases h
  · intro h
    rcases henvironment with heq | ⟨heq, -⟩
    · exact heq.trans h
    · exact heq
  · intro h hnone
    rcases henvironment with heq | ⟨-, hdestroyed⟩
    · exact absurd (heq.symm.trans hnone) h
    · exact hdestroyed
  · intro h hsome
    rcases henvironment with heq | ⟨heq, -⟩
    · exact heq.symm
    · exact absurd heq hsome

/-- A commit that can be done is done. -/
theorem commit_of_canReplace (hcoh : s.Coherent) {node copy existing : WorldNode}
    (hcan : s.CanReplace copy node.revision existing) :
    ∃ node', commit node copy s = .ok node' (s.replaced copy) := by
  obtain ⟨node', hrun, -⟩ := replace_of_canReplace hcoh hcan
  refine ⟨node', ?_⟩
  rw [commit, WorldNode.modelValidate_eq_ok.mpr ⟨rfl, hcan.coherent⟩]
  exact hrun

/-- A commit inside a stretch either fails the validation of the copy or is done. -/
theorem commit_cases (hstore : s.WellFormed) {node copy : WorldNode}
    (hget : s.nodes.get? node.worldId = some node) (hlive : node.destroyed = false)
    (hid : copy.worldId = node.worldId) (hrevision : copy.revision = node.revision)
    (hidentity : sameIdentity node copy) (henvironment : copy.environment = node.environment) :
    (∃ e, copy.modelValidate = .error e ∧ commit node copy s = .error e s) ∨
      ∃ existing node', s.CanReplace copy node.revision existing ∧
        commit node copy s = .ok node' (s.replaced copy) := by
  cases hvalid : copy.modelValidate with
  | error e =>
      refine Or.inl ⟨e, rfl, ?_⟩
      rw [commit, Imp.lift_bind_eq_error]
      exact Or.inl ⟨hvalid, rfl⟩
  | ok validated =>
      obtain ⟨-, hcoherent⟩ := WorldNode.modelValidate_eq_ok.mp hvalid
      obtain ⟨existing, -, hcan⟩ := canReplace_of_read hstore (bareNode_of_get? hget) hlive hid
        hrevision hidentity (Or.inl henvironment) hcoherent
      obtain ⟨node', hrun⟩ := commit_of_canReplace hstore.coherent hcan
      exact Or.inr ⟨existing, node', hcan, hrun⟩

/-! ## Calls -/

/-- What comes before the loop is bound changes nothing, and what comes after reserves the new
identifier or queues the operation at a gate. -/
theorem stretch_start {call : Call} {uuid : String} {stretch : StoreM Progress}
    (h : call.start s uuid = .ok stretch) : StretchEnds own s (.started call) (stretch s) := by
  have hreserving : ∀ (worldId : NonEmpty) (next : WorldReservation → Task),
      (∀ r, (next r).claim? = some (r, none)) → (∀ r, (next r).node? = none) →
      (∀ r frame, next r = .atAdapter frame → frame.working? = none) →
      (∀ r, (next r).family = call.family) →
      StretchEnds own s (.started call) (reserving worldId next s) := by
    intro worldId next hclaim hnode hframe hfamily
    unfold StretchEnds
    cases hrun : reserving worldId next s with
    | ok p s' =>
        obtain ⟨r, s₁, hreserve, hret⟩ := Imp.bind_eq_ok.mp hrun
        obtain ⟨rfl, rfl⟩ := Imp.pure_eq_ok.mp hret
        have hid : r.worldId = worldId := by
          obtain ⟨-, -, rfl, -⟩ := reserveWorld_eq_ok.mp hreserve
          rfl
        exact .reserved (hid ▸ hreserve) (hclaim r) (hnode r) (hframe r) (hfamily r)
    | error e s' =>
        have hsame : s' = s := by
          rcases Imp.bind_eq_error.mp hrun with herr | ⟨_, _, _, herr⟩
          · exact atomic_reserveWorld worldId e s' herr
          · exact absurd herr Imp.pure_ne_error
        subst hsame
        exact .refused
  cases call with
  | prepare target worldId =>
      obtain ⟨w, -, hret⟩ := Imp.except_bind_eq_ok.mp h
      cases hret
      exact hreserving _ _ (fun _ => rfl) (fun _ => rfl) (by rintro r _ ⟨⟩; rfl) fun _ => rfl
  | createGhost parentWorldId lineageTransition worldId =>
      obtain ⟨p, -, h⟩ := Imp.except_bind_eq_ok.mp h
      obtain ⟨w, -, h⟩ := Imp.except_bind_eq_ok.mp h
      obtain ⟨_, -, hret⟩ := Imp.except_bind_eq_ok.mp h
      cases hret
      exact hreserving _ _ (fun _ => rfl) (fun _ => rfl) (by rintro r _ ⟨⟩) fun _ => rfl
  | fork parentWorldId lineageTransition worldId =>
      obtain ⟨p, -, h⟩ := Imp.except_bind_eq_ok.mp h
      obtain ⟨w, -, h⟩ := Imp.except_bind_eq_ok.mp h
      obtain ⟨_, -, hret⟩ := Imp.except_bind_eq_ok.mp h
      cases hret
      exact hreserving _ _ (fun _ => rfl) (fun _ => rfl) (by rintro r _ ⟨⟩) fun _ => rfl
  | snapshot worldId =>
      obtain ⟨w, -, h⟩ := Imp.except_bind_eq_ok.mp h
      obtain ⟨_, -, hret⟩ := Imp.except_bind_eq_ok.mp h
      cases hret
      exact .queued rfl rfl
  | restore worldId manifest =>
      obtain ⟨w, -, h⟩ := Imp.except_bind_eq_ok.mp h
      obtain ⟨_, -, h⟩ := Imp.except_bind_eq_ok.mp h
      obtain ⟨_, -, hret⟩ := Imp.except_bind_eq_ok.mp h
      cases hret
      exact .queued rfl rfl
  | destroy worldId =>
      obtain ⟨w, -, h⟩ := Imp.except_bind_eq_ok.mp h
      obtain ⟨_, -, hret⟩ := Imp.except_bind_eq_ok.mp h
      cases hret
      exact .queued rfl rfl
  | transition worldId destination =>
      obtain ⟨w, -, h⟩ := Imp.except_bind_eq_ok.mp h
      obtain ⟨_, -, hret⟩ := Imp.except_bind_eq_ok.mp h
      cases hret
      exact .queued rfl rfl

/-! ## Entering a gate -/

/-- A stretch under a releasing handler ends as its body does, or drops the reservation. -/
theorem stretch_releasing {cue : Cue} {reservation : WorldReservation} {body : StoreM Progress}
    (hclaim : cue.claim? = some (reservation, none))
    (hpending : s.pendingWorlds.get? reservation.worldId = some ⟨reservation, none⟩)
    (hatomic : Imp.Atomic body s)
    (hbody : ∀ p s', body s = .ok p s' → StretchEnds own s cue (.ok p s')) :
    StretchEnds own s cue (releasing reservation body s) := by
  rcases releasing_cases body hpending hatomic with ⟨p, s', hrun, heq⟩ | ⟨e, heq⟩
  · rw [heq]
    exact hbody p s' hrun
  · rw [heq]
    exact .dropped hclaim

theorem admitting_eq_ok {admitted : WorldStore → Except Exc AdapterFrame} {p : Progress}
    {s' : WorldStore} :
    admitting admitted s = .ok p s' ↔
      ∃ frame, admitted s = .ok frame ∧ p = .suspended (.atAdapter frame) ∧ s' = s := by
  rw [admitting, Imp.get_bind, Imp.lift_bind_eq_ok]
  simp only [Imp.pure_eq_ok]

theorem atomic_admitting {admitted : WorldStore → Except Exc AdapterFrame} :
    Imp.Atomic (admitting admitted) s :=
  Imp.atomic_get_bind (Imp.atomic_lift_bind fun _ _ => Imp.atomic_of_eq_ok rfl)

/-- An operation without a reservation that enters a gate suspends there or is turned away. -/
theorem stretch_admitting {frame : GateFrame} {admitted : WorldStore → Except Exc AdapterFrame}
    (hclaim : (Task.atGate frame).claim? = none)
    (hadmitted : ∀ next, admitted s = .ok next →
      Stretch own s (.entered frame) (.suspended (.atAdapter next)) s) :
    StretchEnds own s (.entered frame) (admitting admitted s) := by
  cases hrun : admitting admitted s with
  | ok p s' =>
      obtain ⟨next, hok, rfl, rfl⟩ := admitting_eq_ok.mp hrun
      exact hadmitted next hok
  | error e s' =>
      have hsame := atomic_admitting e s' hrun
      subst hsame
      exact .turnedAway (Or.inl rfl) hclaim

theorem stretch_forkEntered {reservation : WorldReservation} {parentWorldId : NonEmpty}
    {lineageTransition : String} {capabilities : Nat → Answer}
    (hpending : s.pendingWorlds.get? reservation.worldId = some ⟨reservation, none⟩) :
    StretchEnds own s (.entered (.fork reservation parentWorldId lineageTransition))
      (forkEntered own reservation parentWorldId lineageTransition capabilities s) := by
  refine stretch_releasing rfl hpending atomic_admitting fun p s' hbody => ?_
  obtain ⟨frame, hframe, rfl, rfl⟩ := admitting_eq_ok.mp hbody
  obtain ⟨parent, hget, hrest⟩ := Imp.except_bind_eq_ok.mp hframe
  cases hsnapshot : parent.snapshot with
  | none => simp [hsnapshot] at hrest
  | some manifest =>
      simp only [hsnapshot, Imp.check_bind_eq_ok, Imp.require_eq_ok] at hrest
      obtain ⟨⟨hlive, hphase⟩, -, hret⟩ := hrest
      cases hret
      exact .forkAdmitted (get_eq_ok.mp hget) hsnapshot hlive hphase

theorem stretch_createGhostEntered (hstore : s.WellFormed) {reservation : WorldReservation}
    {parentWorldId : NonEmpty} {lineageTransition : String} {capabilities : Nat → Answer}
    (hpending : s.pendingWorlds.get? reservation.worldId = some ⟨reservation, none⟩) :
    StretchEnds own s (.entered (.createGhost reservation parentWorldId lineageTransition))
      (createGhostEntered own reservation parentWorldId lineageTransition capabilities s) := by
  refine stretch_releasing rfl hpending ?_ fun p s' hbody => ?_
  · refine Imp.atomic_get_bind <| Imp.atomic_lift_bind fun parent _ =>
      Imp.atomic_lift_bind fun _ _ => Imp.atomic_lift_bind fun lineage _ =>
      Imp.atomic_lift_bind fun node _ => Imp.atomic_bind_of_ok ?_ fun _ _ => Imp.pure_ne_error
    exact atomic_add hstore.coherent node reservation
  · rw [Imp.get_bind] at hbody
    obtain ⟨parent, hget, hbody⟩ := Imp.lift_bind_eq_ok.mp hbody
    obtain ⟨-, hbody⟩ := Imp.lift_check_bind_eq_ok.mp hbody
    obtain ⟨lineage, hlineage, hbody⟩ := Imp.lift_bind_eq_ok.mp hbody
    obtain ⟨node, hnode, hbody⟩ := Imp.lift_bind_eq_ok.mp hbody
    obtain ⟨rfl, -⟩ := WorldNode.modelValidate_eq_ok.mp hnode
    obtain ⟨node', s₁, hadd, hret⟩ := Imp.bind_eq_ok.mp hbody
    obtain ⟨hcan, rfl, -⟩ := (add_eq_ok hstore.coherent).mp hadd
    obtain ⟨rfl, rfl⟩ := Imp.pure_eq_ok.mp hret
    exact .ghostPublished (get_eq_ok.mp hget) hlineage hcan

theorem stretch_snapshotEntered {worldId : NonEmpty} {capabilities : Nat → Answer} :
    StretchEnds own s (.entered (.snapshot worldId))
      (snapshotEntered own worldId capabilities s) := by
  refine stretch_admitting rfl fun next hnext => ?_
  obtain ⟨node, hget, hrest⟩ := Imp.except_bind_eq_ok.mp hnext
  cases hlive : node.liveEnvironment with
  | none => simp [hlive] at hrest
  | some environment =>
      simp only [hlive, Imp.check_bind_eq_ok] at hrest
      obtain ⟨-, hret⟩ := hrest
      cases hret
      exact .snapshotAdmitted (get_eq_ok.mp hget) hlive

theorem stretch_restoreEntered {worldId : NonEmpty} {manifest : SnapshotManifest}
    {capabilities : Nat → Answer} :
    StretchEnds own s (.entered (.restore worldId manifest))
      (restoreEntered own worldId manifest capabilities s) := by
  refine stretch_admitting rfl fun next hnext => ?_
  obtain ⟨node, hget, hrest⟩ := Imp.except_bind_eq_ok.mp hnext
  cases hlive : node.liveEnvironment with
  | none => simp [hlive] at hrest
  | some environment =>
      simp only [hlive, Imp.check_bind_eq_ok, Imp.require_eq_ok, validateSnapshot_eq_ok] at hrest
      obtain ⟨hphase, -, ⟨-, hfits⟩, hret⟩ := hrest
      cases hret
      exact .restoreAdmitted (get_eq_ok.mp hget) hlive hphase hfits

/-- A failing check turns an operation without a reservation away. -/
theorem stretch_lift_bind {α : Type} {frame : GateFrame} {x : Except Exc α}
    {f : α → StoreM Progress} (hclaim : (Task.atGate frame).claim? = none)
    (hok : ∀ a, x = .ok a → StretchEnds own s (.entered frame) (f a s)) :
    StretchEnds own s (.entered frame) ((Imp.lift x >>= f) s) := by
  cases hx : x with
  | error e => exact .turnedAway (Or.inl rfl) hclaim
  | ok a => exact hok a hx

/-- An operation that commits a changed copy of the node it has just read is turned away by the
validation of the copy or returns the new node. -/
theorem stretch_commit (hstore : s.WellFormed) {frame : GateFrame} {node copy : WorldNode}
    (hclaim : (Task.atGate frame).claim? = none)
    (hget : s.nodes.get? node.worldId = some node) (hlive : node.destroyed = false)
    (hid : copy.worldId = node.worldId) (hrevision : copy.revision = node.revision)
    (hidentity : sameIdentity node copy) (henvironment : copy.environment = node.environment)
    (hdone : ∀ existing node', s.CanReplace copy node.revision existing →
      Stretch own s (.entered frame) (.returned (.node node')) (s.replaced copy)) :
    StretchEnds own s (.entered frame)
      ((commit node copy >>= fun node' => pure (.returned (.node node'))) s) := by
  rcases commit_cases hstore hget hlive hid hrevision hidentity henvironment with
    ⟨e, -, hrun⟩ | ⟨existing, node', hcan, hrun⟩
  · simp only [bind, EStateM.bind, hrun]
    exact .turnedAway (Or.inl rfl) hclaim
  · simp only [bind, EStateM.bind, hrun]
    exact hdone existing node' hcan

/-- The node an operation reads inside a gate is stored under its own identifier. -/
theorem get_worldId (hstore : s.WellFormed) {worldId : NonEmpty} {node : WorldNode}
    (hget : s.get worldId = .ok node) : s.nodes.get? node.worldId = some node := by
  have hstored := get_eq_ok.mp hget
  rwa [(hstore.coherent.of_get? hstored).1]

theorem stretch_destroyEntered (hstore : s.WellFormed) {worldId : NonEmpty}
    {capabilities : Nat → Answer} :
    StretchEnds own s (.entered (.destroy worldId)) (destroyEntered own worldId capabilities s) := by
  refine stretch_lift_bind rfl fun node hget => ?_
  have hstored := get_eq_ok.mp hget
  by_cases hdestroyed : node.destroyed = true
  · simp only [hdestroyed, if_true]
    exact .alreadyDestroyed hstored hdestroyed
  · have hlive := Bool.eq_false_iff.mpr hdestroyed
    rw [if_neg hdestroyed]
    cases henvironment : node.environment with
    | none =>
        refine stretch_commit hstore rfl (get_worldId hstore hget) hlive rfl rfl
          (sameIdentity.refl node) rfl fun existing node' hcan => ?_
        exact .unmaterializedDestroyed hstored henvironment hcan
    | some environment =>
        refine stretch_lift_bind rfl fun _ _ => ?_
        exact .destroyAdmitted hstored (liveEnvironment_eq_some.mpr ⟨hlive, henvironment⟩)

theorem stretch_transitionEntered (hstore : s.WellFormed) {worldId : NonEmpty}
    {destination : WorldPhase} :
    StretchEnds own s (.entered (.transition worldId destination))
      (transitionEntered worldId destination s) := by
  refine stretch_lift_bind rfl fun node hget => ?_
  refine stretch_lift_bind rfl fun _ hlive => stretch_lift_bind rfl fun _ hlegal => ?_
  rw [Imp.require_eq_ok] at hlive hlegal
  refine stretch_commit hstore rfl (get_worldId hstore hget) hlive rfl rfl
    (sameIdentity.refl node) rfl fun existing node' hcan => ?_
  exact .transitioned (get_eq_ok.mp hget) hlive hlegal hcan

/-- Entering a gate. -/
theorem stretch_enter (hstore : s.WellFormed) {frame : GateFrame} {capabilities : Nat → Answer}
    (htask : TaskInvariant own s (.atGate frame)) :
    StretchEnds own s (.entered frame) (frame.enter own capabilities s) := by
  cases frame with
  | createGhost reservation parentWorldId lineageTransition =>
      exact stretch_createGhostEntered hstore (htask.claim reservation none rfl)
  | fork reservation parentWorldId lineageTransition =>
      exact stretch_forkEntered (htask.claim reservation none rfl)
  | snapshot worldId => exact stretch_snapshotEntered
  | restore worldId manifest => exact stretch_restoreEntered
  | destroy worldId => exact stretch_destroyEntered hstore
  | transition worldId destination => exact stretch_transitionEntered hstore

/-- Being cancelled at a gate. -/
theorem stretch_cancelled {frame : GateFrame} (htask : TaskInvariant own s (.atGate frame)) :
    StretchEnds own s (.cancelled frame) (frame.cancelled s) := by
  have hreleasing : ∀ reservation,
      (Task.atGate frame).claim? = some (reservation, none) →
      StretchEnds own s (.cancelled frame) (releasing reservation (throw .cancelledError) s) := by
    intro reservation hclaim
    refine stretch_releasing hclaim (htask.claim reservation none hclaim) ?_ fun p s' hbody => ?_
    · exact fun e s' herr => (Imp.throw_eq_error.mp herr).2
    · exact absurd hbody Imp.throw_ne_ok
  cases frame with
  | createGhost reservation parentWorldId lineageTransition => exact hreleasing reservation rfl
  | fork reservation parentWorldId lineageTransition => exact hreleasing reservation rfl
  | snapshot worldId => exact .turnedAway (Or.inr rfl) rfl
  | restore worldId manifest => exact .turnedAway (Or.inr rfl) rfl
  | destroy worldId => exact .turnedAway (Or.inr rfl) rfl
  | transition worldId destination => exact .turnedAway (Or.inr rfl) rfl

/-! ## Answers of the adapter -/

/-- What comes back from the adapter for a reservation is claimed, or the reservation is dropped. -/
theorem stretch_claimAnswered {frame : AdapterFrame} {reservation : WorldReservation}
    {next : EnvironmentHandle → AdapterFrame} {answer : Answer} {capabilities : Nat → Answer}
    (hframe : frame.claiming? = some (reservation, next))
    (hclaim : (Task.atAdapter frame).claim? = some (reservation, none))
    (hpending : s.pendingWorlds.get? reservation.worldId = some ⟨reservation, none⟩) :
    StretchEnds own s (.answered frame answer)
      (claimAnswered own reservation answer capabilities next s) := by
  rcases releasing_cases (do
      let raw ← Imp.lift (bounded answer)
      let environment ← Imp.lift (asHandle raw)
      Imp.lift (checkPin own environment.adapter (capabilities 0))
      claimEnvironment reservation environment
      return environment) hpending
    (Imp.atomic_lift_bind fun _ _ => Imp.atomic_lift_bind fun _ _ => Imp.atomic_lift_bind fun _ _ =>
      Imp.atomic_bind_of_ok (atomic_claimEnvironment _) fun _ _ => Imp.pure_ne_error)
    with ⟨environment, s', hbody, hrun⟩ | ⟨e, hrun⟩
  · obtain ⟨raw, hraw, hbody⟩ := Imp.lift_bind_eq_ok.mp hbody
    obtain ⟨handle, hhandle, hbody⟩ := Imp.lift_bind_eq_ok.mp hbody
    obtain ⟨hpin, hbody⟩ := Imp.lift_check_bind_eq_ok.mp hbody
    obtain ⟨_, s₁, hclaimed, hret⟩ := Imp.bind_eq_ok.mp hbody
    obtain ⟨rfl, rfl⟩ := Imp.pure_eq_ok.mp hret
    have hs := (claimEnvironment_eq_ok.mp hclaimed).2.2.2
    subst hs
    obtain rfl := asHandle_eq_ok.mp hhandle
    obtain rfl := bounded_eq_ok.mp hraw
    have hpinned := (checkPin_eq_ok.mp hpin).2.symm
    rcases cleaning_cases reservation environment (do
        let s ← MonadState.get
        Imp.lift (s.validateReservedNamespace reservation)
        return .suspended (.atAdapter (next environment)))
      (Imp.atomic_get_bind (Imp.atomic_lift_bind fun _ _ => Imp.atomic_of_eq_ok rfl))
      with ⟨p, s₂, hcheck, hclean⟩ | ⟨primary, hclean⟩
    · rw [Imp.get_bind] at hcheck
      obtain ⟨hnamespace, hret⟩ := Imp.lift_check_bind_eq_ok.mp hcheck
      obtain ⟨rfl, rfl⟩ := Imp.pure_eq_ok.mp hret
      have hall : claimAnswered own reservation _ capabilities next s = _ :=
        Imp.bind_eq_ok.mpr ⟨environment, _, hrun, hclean⟩
      rw [hall]
      exact .claimed hframe hpinned hclaimed hnamespace
    · have hall : claimAnswered own reservation _ capabilities next s = _ :=
        Imp.bind_eq_ok.mpr ⟨environment, _, hrun, hclean⟩
      rw [hall]
      exact .overlapping hframe hpinned hclaimed
  · have hall : claimAnswered own reservation answer capabilities next s = _ :=
      Imp.bind_eq_error.mpr (Or.inl hrun)
    rw [hall]
    exact .dropped hclaim

/-- The first snapshot of a new world lets it be published, or its environment is cleaned up. -/
theorem stretch_publishAnswered (hstore : s.WellFormed) {frame : AdapterFrame}
    {reservation : WorldReservation} {environment : EnvironmentHandle} {target : TargetSpec}
    {rootSnapshotId : Option NonEmpty} {worldNode : SnapshotManifest → Except Exc WorldNode}
    {answer : Answer} {capabilities : Nat → Answer}
    (hframe : frame.publishing? = some (reservation, environment))
    (hpublish : ∀ snapshot node node', answer = .returned (.snapshot snapshot) →
      SnapshotFits own snapshot target environment rootSnapshotId →
      worldNode snapshot = .ok node → s.CanPublish node reservation →
      Stretch own s (.answered frame answer) (.returned (.node node')) (s.published node)) :
    StretchEnds own s (.answered frame answer)
      (publishAnswered own reservation environment target rootSnapshotId worldNode answer
        capabilities s) := by
  unfold publishAnswered
  rcases cleaning_cases reservation environment (do
      let raw ← Imp.lift (bounded answer)
      let snapshot ← Imp.lift (asSnapshot raw)
      Imp.lift (validateSnapshot own snapshot target environment rootSnapshotId (capabilities 0))
      let node ← Imp.lift (worldNode snapshot)
      let node ← add node reservation
      return .returned (.node node))
    (Imp.atomic_lift_bind fun _ _ => Imp.atomic_lift_bind fun _ _ => Imp.atomic_lift_bind fun _ _ =>
      Imp.atomic_lift_bind fun node _ => Imp.atomic_bind_of_ok
        (atomic_add hstore.coherent node reservation) fun _ _ => Imp.pure_ne_error)
    with ⟨p, s', hbody, hrun⟩ | ⟨primary, hrun⟩
  · rw [hrun]
    obtain ⟨raw, hraw, hbody⟩ := Imp.lift_bind_eq_ok.mp hbody
    obtain ⟨snapshot, hsnapshot, hbody⟩ := Imp.lift_bind_eq_ok.mp hbody
    obtain ⟨hvalid, hbody⟩ := Imp.lift_check_bind_eq_ok.mp hbody
    obtain ⟨node, hnode, hbody⟩ := Imp.lift_bind_eq_ok.mp hbody
    obtain ⟨node', s₁, hadd, hret⟩ := Imp.bind_eq_ok.mp hbody
    obtain ⟨rfl, rfl⟩ := Imp.pure_eq_ok.mp hret
    obtain ⟨hcan, rfl, -⟩ := (add_eq_ok hstore.coherent).mp hadd
    obtain rfl := asSnapshot_eq_ok.mp hsnapshot
    exact hpublish snapshot node node' (bounded_eq_ok.mp hraw) (validateSnapshot_eq_ok.mp hvalid).2
      hnode hcan
  · rw [hrun]
    exact .unpublished hframe

theorem stretch_cleanupReservedAnswered {reservation : WorldReservation}
    {environment : EnvironmentHandle} {primary : Exc} {answer : Answer}
    (hpending : s.pendingWorlds.get? reservation.worldId = some ⟨reservation, some environment⟩) :
    StretchEnds own s (.answered (.cleanupReserved reservation environment primary) answer)
      (cleanupReservedAnswered reservation primary answer s) := by
  unfold cleanupReservedAnswered
  cases hanswer : bounded answer with
  | error cleanupError => exact .quarantined hanswer
  | ok value =>
      have hrelease : releaseWorld reservation s = .ok () (s.released reservation) :=
        releaseWorld_eq_ok.mpr ⟨⟨_, hpending⟩, rfl⟩
      obtain rfl := bounded_eq_ok.mp hanswer
      simp only [bind, EStateM.bind, hrelease]
      exact .cleanedUp


/-! ### Operations on a published world -/

/-- The snapshot that `snapshot` and `restore` accept fits the node. -/
theorem snapshotChecked_eq_ok {node : WorldNode} {environment : EnvironmentHandle}
    {answer : Answer} {capabilities : Nat → Answer} {snapshot : SnapshotManifest}
    (h : snapshotChecked own node environment answer capabilities = .ok snapshot) :
    answer = .returned (.snapshot snapshot) ∧
      SnapshotFits own snapshot node.target environment (some node.rootSnapshotId) := by
  obtain ⟨raw, hraw, h⟩ := Imp.except_bind_eq_ok.mp h
  obtain ⟨snapshot', hsnapshot, h⟩ := Imp.except_bind_eq_ok.mp h
  obtain ⟨hvalid, hret⟩ := Imp.check_bind_eq_ok.mp h
  cases hret
  obtain rfl := asSnapshot_eq_ok.mp hsnapshot
  exact ⟨bounded_eq_ok.mp hraw, (validateSnapshot_eq_ok.mp hvalid).2⟩

/-- A node stays coherent with a new snapshot of its own environment. -/
theorem coherent_withSnapshot {node : WorldNode} {environment : EnvironmentHandle}
    {snapshot : SnapshotManifest} (hcoherent : node.Coherent) (hadapter : node.adapter = own.pin)
    (henvironment : node.environment = some environment)
    (hfits : SnapshotFits own snapshot node.target environment (some node.rootSnapshotId)) :
    (node.withSnapshot snapshot).Coherent where
  lineage_nodup := hcoherent.lineage_nodup
  environment_of_destroyed := hcoherent.environment_of_destroyed
  parent_ne := hcoherent.parent_ne
  deduplicatedTo_ne := hcoherent.deduplicatedTo_ne
  active_live := by
    intro hphase hlive
    exact ⟨(hcoherent.active_live hphase hlive).1, rfl⟩
  environment_adapter := hcoherent.environment_adapter
  snapshot_source := by
    intro e he snapshot' hsnapshot
    cases hsnapshot
    rw [show node.environment = some e from he, Option.some.injEq] at henvironment
    rw [henvironment]
    exact hfits.source
  snapshot_pins := by
    intro snapshot' hsnapshot
    cases hsnapshot
    exact ⟨hfits.adapter.trans hadapter.symm, hfits.target, hfits.root _ rfl, rfl⟩

/-- A node stays coherent when it gives up its environment. -/
theorem coherent_gone {node : WorldNode} (hcoherent : node.Coherent) : node.gone.Coherent where
  lineage_nodup := hcoherent.lineage_nodup
  environment_of_destroyed := fun _ => rfl
  parent_ne := hcoherent.parent_ne
  deduplicatedTo_ne := hcoherent.deduplicatedTo_ne
  active_live := nofun
  environment_adapter := nofun
  snapshot_source := nofun
  snapshot_pins := hcoherent.snapshot_pins

/-- A node stays coherent when it is blocked. -/
theorem coherent_blocked {node : WorldNode} (hcoherent : node.Coherent) : node.blocked.Coherent :=
  { hcoherent with active_live := nofun }

section Working

variable {frame : AdapterFrame} {node : WorldNode} {environment : EnvironmentHandle}
  {answer : Answer} {capabilities : Nat → Answer}

/-- Committing a coherent copy of the node a suspended operation works on succeeds. -/
theorem commit_working (hstore : s.WellFormed)
    (htask : TaskInvariant own s (.atAdapter frame)) (hnode : frame.node? = some node)
    (copy : WorldNode) (hid : copy.worldId = node.worldId) (hrevision : copy.revision = node.revision)
    (hidentity : sameIdentity node copy)
    (henvironment : copy.environment = node.environment ∨
      copy.environment = none ∧ copy.destroyed = true) (hcoherent : copy.Coherent) :
    ∃ existing node', s.CanReplace copy node.revision existing ∧
      commit node copy s = .ok node' (s.replaced copy) := by
  obtain ⟨hread, -, hlive⟩ := htask.read node hnode
  obtain ⟨existing, -, hcan⟩ :=
    canReplace_of_read hstore hread hlive hid hrevision hidentity henvironment hcoherent
  obtain ⟨node', hrun⟩ := commit_of_canReplace hstore.coherent hcan
  exact ⟨existing, node', hcan, hrun⟩

/-- The new snapshot of the node a suspended operation works on can be committed. -/
theorem commit_withSnapshot (hstore : StoreInvariant own s)
    (htask : TaskInvariant own s (.atAdapter frame)) (hnode : frame.node? = some node)
    (hworking : frame.working? = some (node, environment)) {snapshot : SnapshotManifest}
    (hfits : SnapshotFits own snapshot node.target environment (some node.rootSnapshotId)) :
    ∃ existing node', s.CanReplace (node.withSnapshot snapshot) node.revision existing ∧
      commit node (node.withSnapshot snapshot) s =
        .ok node' (s.replaced (node.withSnapshot snapshot)) := by
  obtain ⟨hread, hcoherent, -⟩ := htask.read node hnode
  have hadapter : node.adapter = own.pin := (hstore.pinned _ _ hread).1
  have henvironment := htask.working frame node environment rfl hworking
  exact commit_working hstore.wellFormed htask hnode _ rfl rfl (sameIdentity.refl node) (Or.inl rfl)
    (coherent_withSnapshot hcoherent hadapter henvironment hfits)

theorem stretch_snapshotAnswered (hstore : StoreInvariant own s)
    (htask : TaskInvariant own s (.atAdapter (.snapshot node environment))) :
    StretchEnds own s (.answered (.snapshot node environment) answer)
      (snapshotAnswered own node environment answer capabilities s) := by
  unfold snapshotAnswered
  cases hchecked : snapshotChecked own node environment answer capabilities with
  | error primary => exact .failing rfl rfl
  | ok snapshot =>
      obtain ⟨rfl, hfits⟩ := snapshotChecked_eq_ok hchecked
      obtain ⟨existing, node', hcan, hrun⟩ := commit_withSnapshot hstore htask rfl rfl hfits
      simp only [bind, EStateM.bind, hrun]
      exact .snapshotTaken hfits hcan

theorem stretch_restoreAnswered {manifest : SnapshotManifest} :
    StretchEnds own s (.answered (.restore node environment manifest) answer)
      (restoreAnswered node environment manifest answer s) := by
  unfold restoreAnswered
  cases hchecked : bounded answer >>= requireNone with
  | error primary => exact .failing rfl rfl
  | ok u =>
      obtain ⟨value, hvalue, hnone⟩ := Imp.except_bind_eq_ok.mp hchecked
      obtain rfl := bounded_eq_ok.mp hvalue
      cases value with
      | none_ => exact .restoreAccepted
      | handle _ => cases hnone
      | snapshot _ => cases hnone
      | capabilities _ => cases hnone
      | other => cases hnone

theorem stretch_restoredSnapshotAnswered (hstore : StoreInvariant own s)
    {manifest : SnapshotManifest}
    (htask : TaskInvariant own s (.atAdapter (.restoredSnapshot node environment manifest))) :
    StretchEnds own s (.answered (.restoredSnapshot node environment manifest) answer)
      (restoredSnapshotAnswered own node environment manifest answer capabilities s) := by
  unfold restoredSnapshotAnswered
  cases hchecked : restoredChecked own node environment manifest answer capabilities with
  | error primary => exact .failing rfl rfl
  | ok restored =>
      obtain ⟨snapshot, hsnapshot, hrest⟩ := Imp.except_bind_eq_ok.mp hchecked
      obtain ⟨hsame, hret⟩ := Imp.check_bind_eq_ok.mp hrest
      cases hret
      obtain ⟨rfl, hfits⟩ := snapshotChecked_eq_ok hsnapshot
      obtain ⟨existing, node', hcan, hrun⟩ := commit_withSnapshot hstore htask rfl rfl hfits
      simp only [bind, EStateM.bind, hrun]
      exact .restored hfits (Imp.require_eq_ok.mp hsame) hcan

theorem stretch_cleanupNodeAnswered (hstore : s.WellFormed) {primary : Exc}
    (htask : TaskInvariant own s (.atAdapter (.cleanupNode node environment primary))) :
    StretchEnds own s (.answered (.cleanupNode node environment primary) answer)
      (cleanupNodeAnswered node primary answer s) := by
  obtain ⟨-, hcoherent, -⟩ := htask.read node rfl
  unfold cleanupNodeAnswered
  cases hanswer : bounded answer with
  | error cleanupError =>
      obtain ⟨existing, node', hcan, hrun⟩ := commit_working hstore htask rfl node.blocked
        rfl rfl (sameIdentity.refl node) (Or.inl rfl) (coherent_blocked hcoherent)
      simp only [bind, EStateM.bind, hrun]
      exact .blocked hanswer hcan
  | ok value =>
      obtain rfl := bounded_eq_ok.mp hanswer
      obtain ⟨existing, node', hcan, hrun⟩ := commit_working hstore htask rfl node.gone
        rfl rfl (sameIdentity.refl node) (Or.inr ⟨rfl, rfl⟩) (coherent_gone hcoherent)
      simp only [bind, EStateM.bind, hrun]
      exact .removed hcan

theorem stretch_destroyAnswered (hstore : s.WellFormed)
    (htask : TaskInvariant own s (.atAdapter (.destroy node environment))) :
    StretchEnds own s (.answered (.destroy node environment) answer)
      (destroyAnswered node answer s) := by
  obtain ⟨-, hcoherent, -⟩ := htask.read node rfl
  unfold destroyAnswered
  cases hanswer : bounded answer with
  | error e => exact .destroyFailed hanswer
  | ok value =>
      obtain rfl := bounded_eq_ok.mp hanswer
      obtain ⟨existing, node', hcan, hrun⟩ := commit_working hstore htask rfl node.gone
        rfl rfl (sameIdentity.refl node) (Or.inr ⟨rfl, rfl⟩) (coherent_gone hcoherent)
      simp only [bind, EStateM.bind, Imp.lift, hrun]
      exact .destroyed hcan

/-- Getting an answer of the adapter. -/
theorem stretch_answered (hstore : StoreInvariant own s)
    (htask : TaskInvariant own s (.atAdapter frame)) :
    StretchEnds own s (.answered frame answer) (frame.answered own answer capabilities s) := by
  cases frame with
  | prepareEnvironment reservation target =>
      exact stretch_claimAnswered rfl rfl (htask.claim reservation none rfl)
  | prepareSnapshot reservation target environment =>
      refine stretch_publishAnswered hstore.wellFormed rfl ?_
      rintro snapshot node node' rfl hfits hnode hcan
      obtain ⟨rfl, -⟩ := WorldNode.modelValidate_eq_ok.mp hnode
      exact .rootPublished hfits hcan
  | forkEnvironment reservation parent manifest lineageTransition =>
      exact stretch_claimAnswered rfl rfl (htask.claim reservation none rfl)
  | forkSnapshot reservation parent lineageTransition environment =>
      refine stretch_publishAnswered hstore.wellFormed rfl ?_
      rintro snapshot node node' rfl hfits hnode hcan
      obtain ⟨lineage, hlineage, hnode⟩ := Imp.except_bind_eq_ok.mp hnode
      obtain ⟨rfl, -⟩ := WorldNode.modelValidate_eq_ok.mp hnode
      exact .forkPublished hfits hlineage hcan
  | cleanupReserved reservation environment primary =>
      exact stretch_cleanupReservedAnswered (htask.claim reservation (some environment) rfl)
  | snapshot node environment => exact stretch_snapshotAnswered hstore htask
  | restore node environment manifest => exact stretch_restoreAnswered
  | restoredSnapshot node environment manifest =>
      exact stretch_restoredSnapshotAnswered hstore htask
  | cleanupNode node environment primary =>
      exact stretch_cleanupNodeAnswered hstore.wellFormed htask
  | destroy node environment => exact stretch_destroyAnswered hstore.wellFormed htask

end Working

end StateWeaver.Worlds
