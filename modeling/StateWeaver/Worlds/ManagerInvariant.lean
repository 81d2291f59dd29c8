import StateWeaver.Worlds.Stretch

/-!
# The invariant of the manager

`Manager.Invariant` says what holds between the store and the suspended operations: each of them may
rely on its `TaskInvariant`, no two hold the same reservation, and no two hold the same gate. A step
runs one operation, so the invariant survives because of what the step leaves alone: `Effect` sums up
the store calls of a stretch, and its two frame lemmas say that reservations and nodes which the
operation does not hold stay as they are.
-/

namespace StateWeaver.Worlds

open WorldStore

variable [Sha256] {own : CapabilityManifest} {s s' : WorldStore} {cue : Cue} {outcome : Outcome}

/-- What the operation holds afterwards. -/
def Outcome.claim? (outcome : Outcome) : Option (WorldReservation × Option EnvironmentHandle) :=
  outcome.task?.bind Task.claim?

/-- The store call of a stretch, with what the operation holds before and after. -/
inductive Effect (own : CapabilityManifest) (s : WorldStore) (cue : Cue) (outcome : Outcome) :
    WorldStore → Prop
  | keeps (hclaim : ∀ claim, outcome.claim? = some claim → cue.claim? = some claim) :
      Effect own s cue outcome s
  | reserves {reservation s'} (hrun : reserveWorld reservation.worldId s = .ok reservation s')
      (hclaim : outcome.claim? = some (reservation, none)) : Effect own s cue outcome s'
  | claims {reservation environment} (hclaim : cue.claim? = some (reservation, none))
      (hclaimed : outcome.claim? = some (reservation, some environment))
      (hrun : claimEnvironment reservation environment s = .ok () (s.claimed reservation environment)) :
      Effect own s cue outcome (s.claimed reservation environment)
  | releases {reservation environment} (hclaim : cue.claim? = some (reservation, environment))
      (hend : outcome.task? = none) : Effect own s cue outcome (s.released reservation)
  | publishes {reservation node} (hclaim : cue.claim? = some (reservation, node.environment))
      (hend : outcome.task? = none) (hcan : s.CanPublish node reservation)
      (hpinned : node.adapter = own.pin ∧ node.capabilityManifest = own) :
      Effect own s cue outcome (s.published node)
  | commits {copy expectedRevision existing} (hgate : cue.gate? = some copy.worldId)
      (hend : outcome.task? = none) (hcan : s.CanReplace copy expectedRevision existing) :
      Effect own s cue outcome (s.replaced copy)

/-- What the operation that runs may rely on. -/
def CueInvariant (own : CapabilityManifest) (s : WorldStore) (cue : Cue) : Prop :=
  ∀ task, cue.task? = some task → TaskInvariant own s task

theorem claiming?_claim? {frame : AdapterFrame} {reservation : WorldReservation}
    {next : EnvironmentHandle → AdapterFrame} (h : frame.claiming? = some (reservation, next)) :
    (Task.atAdapter frame).claim? = some (reservation, none) ∧ ∀ environment,
      (Task.atAdapter (next environment)).claim? = some (reservation, some environment) ∧
        (next environment).node? = frame.node? ∧ (next environment).working? = none := by
  cases frame <;> cases h <;> exact ⟨rfl, fun _ => ⟨rfl, rfl, rfl⟩⟩

theorem publishing?_claim? {frame : AdapterFrame} {reservation : WorldReservation}
    {environment : EnvironmentHandle} (h : frame.publishing? = some (reservation, environment)) :
    (Task.atAdapter frame).claim? = some (reservation, some environment) := by
  cases frame <;> cases h <;> rfl

theorem working?_node? {frame : AdapterFrame} {node : WorldNode} {environment : EnvironmentHandle}
    (h : frame.working? = some (node, environment)) :
    frame.node? = some node ∧ (Task.atAdapter frame).claim? = none := by
  cases frame <;> cases h <;> exact ⟨rfl, rfl⟩

/-- The children of a pinned parent are pinned. -/
theorem StoreInvariant.pinned_of_get? (h : StoreInvariant own s) {worldId : NonEmpty}
    {node : WorldNode} (hget : s.nodes.get? worldId = some node) :
    node.adapter = own.pin ∧ node.capabilityManifest = own :=
  h.pinned worldId node.bare (bareNode_of_get? hget)

/-- Every stretch has one of the effects. -/
theorem Stretch.effect (hstore : StoreInvariant own s) (hcue : CueInvariant own s cue)
    (h : Stretch own s cue outcome s') : Effect own s cue outcome s' := by
  have hid : ∀ {worldId node}, s.nodes.get? worldId = some node → node.worldId = worldId :=
    fun hget => (hstore.wellFormed.coherent.of_get? hget).1
  cases h with
  | refused => exact .keeps nofun
  | reserved hrun hclaim hnode hframe hfamily => exact .reserves hrun hclaim
  | queued hclaim hfamily =>
      refine .keeps fun claim hsome => ?_
      rw [show (Outcome.suspended (.atGate _)).claim? = none from hclaim] at hsome
      cases hsome
  | turnedAway hcue hclaim => exact .keeps nofun
  | dropped hclaim => exact .releases hclaim rfl
  | forkAdmitted hget hsnapshot hlive hphase => exact .keeps fun claim hsome => hsome
  | ghostPublished hget hlineage hcan =>
      have hpinned := hstore.pinned_of_get? hget
      exact .publishes rfl rfl hcan hpinned
  | snapshotAdmitted hget hlive => exact .keeps fun claim hsome => hsome
  | restoreAdmitted hget hlive hphase hfits => exact .keeps fun claim hsome => hsome
  | destroyAdmitted hget hlive => exact .keeps fun claim hsome => hsome
  | alreadyDestroyed hget hdestroyed => exact .keeps nofun
  | unmaterializedDestroyed hget henvironment hcan =>
      exact .commits (congrArg some (hid hget).symm) rfl hcan
  | transitioned hget hlive hlegal hcan => exact .commits (congrArg some (hid hget).symm) rfl hcan
  | claimed hframe hpin hrun hnamespace =>
      obtain ⟨hclaim, hnext⟩ := claiming?_claim? hframe
      exact .claims hclaim (hnext _).1 hrun
  | overlapping hframe hpin hrun => exact .claims (claiming?_claim? hframe).1 rfl hrun
  | rootPublished hfits hcan => exact .publishes rfl rfl hcan ⟨rfl, rfl⟩
  | forkPublished hfits hlineage hcan =>
      obtain ⟨hread, -, -⟩ := (hcue _ rfl).read _ rfl
      have hpinned := hstore.pinned _ _ hread
      exact .publishes rfl rfl hcan hpinned
  | unpublished hframe =>
      refine .keeps fun claim hsome => ?_
      cases hsome
      exact publishing?_claim? hframe
  | cleanedUp => exact .releases rfl rfl
  | quarantined hanswer => exact .keeps nofun
  | snapshotTaken hfits hcan => exact .commits rfl rfl hcan
  | restoreAccepted => exact .keeps nofun
  | restored hfits hsame hcan => exact .commits rfl rfl hcan
  | failing hframe hguarded => exact .keeps nofun
  | removed hcan => exact .commits rfl rfl hcan
  | blocked hanswer hcan => exact .commits rfl rfl hcan
  | destroyed hcan => exact .commits rfl rfl hcan
  | destroyFailed hanswer => exact .keeps nofun

/-- A stretch makes at most one call that writes the store. -/
theorem Effect.storeStep (hstore : s.WellFormed) (hcue : CueInvariant own s cue)
    (h : Effect own s cue outcome s') : s' = s ∨ StoreStep s s' := by
  cases h with
  | keeps => exact Or.inl rfl
  | reserves hrun => exact Or.inr (.reserve hrun)
  | claims hclaim hclaimed hrun => exact Or.inr (.claim hrun)
  | releases hclaim =>
      obtain ⟨task, htask, hclaim⟩ := Option.bind_eq_some_iff.mp hclaim
      have hpending := (hcue task htask).claim _ _ hclaim
      exact Or.inr (.release (releaseWorld_eq_ok.mpr ⟨⟨_, hpending⟩, rfl⟩))
  | publishes hclaim hend hcan =>
      obtain ⟨node', hrun, -⟩ := add_of_canPublish hstore.coherent hcan
      exact Or.inr (.publish hrun)
  | commits hgate hend hcan =>
      obtain ⟨node', hrun, -⟩ := replace_of_canReplace hstore.coherent hcan
      exact Or.inr (.commit hrun)

/-! ## What a stretch leaves alone -/

/-- A reservation that the operation does not hold stays as it is. -/
theorem Effect.pending_frame (h : Effect own s cue outcome s') {worldId : NonEmpty}
    {pending : PendingWorld} (hget : s.pendingWorlds.get? worldId = some pending)
    (hother : ∀ reservation environment, cue.claim? = some (reservation, environment) →
      reservation.worldId ≠ worldId) : s'.pendingWorlds.get? worldId = some pending := by
  cases h with
  | keeps => exact hget
  | reserves hrun =>
      obtain ⟨-, hfresh, -, rfl⟩ := reserveWorld_eq_ok.mp hrun
      rw [Dict.get?_insert_of_ne _ (by rintro rfl; rw [hget] at hfresh; cases hfresh)]
      exact hget
  | claims hclaim =>
      rw [claimed, Dict.get?_insert_of_ne _ (hother _ _ hclaim).symm]
      exact hget
  | releases hclaim =>
      rw [released, Dict.get?_erase_of_ne _ (hother _ _ hclaim).symm]
      exact hget
  | publishes hclaim hend hcan =>
      rw [published, Dict.get?_erase_of_ne _ (hcan.worldId ▸ (hother _ _ hclaim).symm)]
      exact hget
  | commits => exact hget

/-- A stored node whose gate the operation does not hold stays as it is. -/
theorem Effect.node_frame (h : Effect own s cue outcome s') {worldId : NonEmpty} {node : WorldNode}
    (hnode : s.bareNode worldId = some node) (hother : cue.gate? ≠ some worldId) :
    s'.bareNode worldId = some node := by
  cases h with
  | keeps => exact hnode
  | reserves hrun =>
      obtain ⟨-, -, -, rfl⟩ := reserveWorld_eq_ok.mp hrun
      exact hnode
  | claims => exact hnode
  | releases => exact hnode
  | publishes hclaim hend hcan =>
      rw [bareNode_published, if_neg]
      · exact hnode
      · rintro rfl
        rw [bareNode_eq_none.mpr hcan.fresh] at hnode
        cases hnode
  | commits hgate =>
      rw [bareNode_replaced, if_neg]
      · exact hnode
      · rintro rfl
        exact hother hgate

/-- Every node of a later store is pinned. -/
theorem Effect.storeInvariant (hstore : StoreInvariant own s) (hcue : CueInvariant own s cue)
    (h : Effect own s cue outcome s') : StoreInvariant own s' := by
  have hwell : s'.WellFormed := by
    rcases h.storeStep hstore.wellFormed hcue with rfl | hstep
    · exact hstore.wellFormed
    · exact hstore.wellFormed.step hstep
  refine ⟨hwell, ?_⟩
  cases h with
  | keeps => exact hstore.pinned
  | reserves hrun =>
      obtain ⟨-, -, -, rfl⟩ := reserveWorld_eq_ok.mp hrun
      exact hstore.pinned
  | claims => exact hstore.pinned
  | releases => exact hstore.pinned
  | publishes hclaim hend hcan hpinned =>
      intro worldId node hnode
      rw [bareNode_published] at hnode
      split at hnode
      · cases hnode
        exact hpinned
      · exact hstore.pinned worldId node hnode
  | commits hgate hend hcan =>
      intro worldId node hnode
      rw [bareNode_replaced] at hnode
      split at hnode
      · cases hnode
        obtain ⟨-, -, -, hadapter, hcaps, -⟩ := hcan.identity
        obtain ⟨hpin, hown⟩ := hstore.pinned_of_get? hcan.exists_get?
        exact ⟨hadapter.symm.trans hpin, hcaps.symm.trans hown⟩
      · exact hstore.pinned worldId node hnode

/-! ## What the operation that ran may rely on -/

/-- A task without a reservation and without a node relies on nothing. -/
theorem taskInvariant_of_none {task : Task} (hclaim : task.claim? = none)
    (hnode : task.node? = none) (hworking : ∀ frame, task = .atAdapter frame → frame.working? = none) :
    TaskInvariant own s task where
  claim := by
    intro _ _ h
    rw [hclaim] at h
    cases h
  pinned := by
    intro _ _ h
    rw [hclaim] at h
    cases h
  read := by
    intro _ h
    rw [hnode] at h
    cases h
  working := by
    intro frame _ _ heq h
    rw [hworking frame heq] at h
    cases h

/-- A task that holds a reservation and works on no published world relies on the reservation and on
the parent it may have read. -/
theorem taskInvariant_of_claim {task : Task} {reservation : WorldReservation}
    {environment : Option EnvironmentHandle} (hclaim : task.claim? = some (reservation, environment))
    (hpending : s.pendingWorlds.get? reservation.worldId = some ⟨reservation, environment⟩)
    (hpinned : ∀ e, environment = some e → e.adapter = own.pin)
    (hread : ∀ node, task.node? = some node →
      s.bareNode node.worldId = some node.bare ∧ node.Coherent ∧ node.destroyed = false)
    (hworking : ∀ frame, task = .atAdapter frame → frame.working? = none) :
    TaskInvariant own s task where
  claim := by
    intro _ _ h
    rw [hclaim] at h
    cases h
    exact hpending
  pinned := by
    intro _ e h
    rw [hclaim] at h
    cases h
    exact hpinned e rfl
  read := hread
  working := by
    intro frame _ _ heq h
    rw [hworking frame heq] at h
    cases h

/-- A task that works on a published world relies on the node it has read. -/
theorem taskInvariant_of_working {frame : AdapterFrame} {node : WorldNode}
    {environment : EnvironmentHandle} (hframe : frame.working? = some (node, environment))
    (hread : s.bareNode node.worldId = some node.bare ∧ node.Coherent ∧ node.destroyed = false)
    (henvironment : node.environment = some environment) :
    TaskInvariant own s (.atAdapter frame) := by
  obtain ⟨hnode, hclaim⟩ := working?_node? hframe
  constructor
  · intro _ _ h
    rw [hclaim] at h
    cases h
  · intro _ _ h
    rw [hclaim] at h
    cases h
  · intro n h
    rw [show (Task.atAdapter frame).node? = some node from hnode] at h
    cases h
    exact hread
  · intro frame' n e heq h
    cases heq
    rw [hframe] at h
    cases h
    exact henvironment

/-- Where the stretch suspends the operation, it may rely on its invariant. -/
theorem Stretch.taskInvariant (hstore : StoreInvariant own s) (hcue : CueInvariant own s cue)
    (h : Stretch own s cue outcome s') {task : Task} (htask : outcome.task? = some task) :
    TaskInvariant own s' task := by
  have hread : ∀ {worldId node}, s.nodes.get? worldId = some node → node.destroyed = false →
      s.bareNode node.worldId = some node.bare ∧ node.Coherent ∧ node.destroyed = false := by
    intro worldId node hget hlive
    obtain ⟨hid, hcoherent⟩ := hstore.wellFormed.coherent.of_get? hget
    exact ⟨bareNode_of_get? (hid ▸ hget), hcoherent, hlive⟩
  cases h <;> cases htask
  case reserved hrun hclaim hnode hframe hfamily =>
      have hs := (reserveWorld_eq_ok.mp hrun).2.2.2
      subst hs
      refine taskInvariant_of_claim hclaim (Dict.get?_insert_self _ _ _) ?_ ?_ hframe
      · rintro e ⟨⟩
      · intro node h
        rw [hnode] at h
        cases h
  case queued hclaim hfamily => exact taskInvariant_of_none hclaim rfl (by rintro _ ⟨⟩)
  case forkAdmitted hget hsnapshot hlive hphase =>
      refine taskInvariant_of_claim rfl ((hcue _ rfl).claim _ _ rfl) ?_ ?_ (by rintro _ ⟨⟩; rfl)
      · rintro e ⟨⟩
      · intro node h
        cases h
        exact hread hget hlive
  case snapshotAdmitted hget hlive =>
      obtain ⟨hdestroyed, henvironment⟩ := liveEnvironment_eq_some.mp hlive
      exact taskInvariant_of_working rfl (hread hget hdestroyed) henvironment
  case restoreAdmitted hget hlive hphase hfits =>
      obtain ⟨hdestroyed, henvironment⟩ := liveEnvironment_eq_some.mp hlive
      exact taskInvariant_of_working rfl (hread hget hdestroyed) henvironment
  case destroyAdmitted hget hlive =>
      obtain ⟨hdestroyed, henvironment⟩ := liveEnvironment_eq_some.mp hlive
      exact taskInvariant_of_working rfl (hread hget hdestroyed) henvironment
  case claimed hframe hpin hrun hnamespace =>
      obtain ⟨hclaim, hnext⟩ := claiming?_claim? hframe
      obtain ⟨hclaimed, hnode, hworking⟩ := hnext _
      refine taskInvariant_of_claim hclaimed (Dict.get?_insert_self _ _ _) ?_ ?_ ?_
      · rintro e ⟨⟩
        exact hpin
      · intro node h
        exact (hcue _ rfl).read node (hnode.symm.trans h)
      · rintro _ ⟨⟩
        exact hworking
  case overlapping hframe hpin hrun =>
      refine taskInvariant_of_claim rfl (Dict.get?_insert_self _ _ _) ?_ ?_
        (by rintro _ ⟨⟩; rfl)
      · rintro e ⟨⟩
        exact hpin
      · rintro node ⟨⟩
  case unpublished hframe =>
      have hclaim := publishing?_claim? hframe
      refine taskInvariant_of_claim rfl ((hcue _ rfl).claim _ _ hclaim) ?_ ?_
        (by rintro _ ⟨⟩; rfl)
      · rintro e ⟨⟩
        exact (hcue _ rfl).pinned _ _ hclaim
      · rintro node ⟨⟩
  case restoreAccepted =>
      have h := hcue _ rfl
      exact taskInvariant_of_working rfl (h.read _ rfl) (h.working _ _ _ rfl rfl)
  case failing hframe hguarded =>
      have h := hcue _ rfl
      exact taskInvariant_of_working rfl (h.read _ (working?_node? hframe).1)
        (h.working _ _ _ rfl hframe)

/-- An operation holds a gate only after it has entered it. -/
theorem Stretch.gate (hstore : StoreInvariant own s) (h : Stretch own s cue outcome s')
    {task : Task} (htask : outcome.task? = some task) {worldId : NonEmpty}
    (hgate : task.gate? = some worldId) : cue.gate? = some worldId := by
  have hid : ∀ {w node}, s.nodes.get? w = some node → node.worldId = w :=
    fun hget => (hstore.wellFormed.coherent.of_get? hget).1
  cases h <;> cases htask
  case reserved hrun hclaim hnode hframe hfamily =>
      rw [Task.gate?, hnode] at hgate
      cases hgate
  case queued => cases hgate
  case forkAdmitted hget hsnapshot hlive hphase =>
      cases hgate
      exact congrArg some (hid hget).symm
  case snapshotAdmitted hget hlive =>
      cases hgate
      exact congrArg some (hid hget).symm
  case restoreAdmitted hget hlive hphase hfits =>
      cases hgate
      exact congrArg some (hid hget).symm
  case destroyAdmitted hget hlive =>
      cases hgate
      exact congrArg some (hid hget).symm
  case claimed hframe hpin hrun hnamespace =>
      obtain ⟨-, hnode, -⟩ := (claiming?_claim? hframe).2 _
      rw [Task.gate?, Task.node?, hnode] at hgate
      exact hgate
  case overlapping => cases hgate
  case unpublished => cases hgate
  case restoreAccepted => exact hgate
  case failing hframe hguarded =>
      rw [Cue.gate?, (working?_node? hframe).1]
      exact hgate

/-! ## The invariant of the manager -/

namespace Manager

variable {m m' : Manager}

/-- What holds between the store and the suspended operations. -/
structure Invariant (m : Manager) : Prop where
  store : StoreInvariant m.capabilities m.store
  task : ∀ id task, m.tasks.get? id = some task → TaskInvariant m.capabilities m.store task
  /-- No two operations hold the same reservation. -/
  claims : ∀ id id' task task' reservation reservation' environment environment',
    m.tasks.get? id = some task → m.tasks.get? id' = some task' → id ≠ id' →
    task.claim? = some (reservation, environment) →
    task'.claim? = some (reservation', environment') →
    reservation.worldId ≠ reservation'.worldId
  /-- No two operations hold the same gate. -/
  gates : ∀ id id' task task' worldId, m.tasks.get? id = some task →
    m.tasks.get? id' = some task' → id ≠ id' → task.gate? = some worldId →
    task'.gate? ≠ some worldId

/-- Which operation runs with which cue after an input. -/
def Cues (m : Manager) : Input → Cue → Prop
  | .call id _ _ call, cue => m.tasks.get? id = none ∧ cue = .started call
  | .enter id _, cue => ∃ frame, m.tasks.get? id = some (.atGate frame) ∧
      m.gateFree frame.world = true ∧ cue = .entered frame
  | .cancel id, cue => ∃ frame, m.tasks.get? id = some (.atGate frame) ∧ cue = .cancelled frame
  | .answer id answer _, cue => ∃ frame, m.tasks.get? id = some (.atAdapter frame) ∧
      cue = .answered frame answer

theorem Cues.task? {i : Input} (h : m.Cues i cue) : cue.task? = m.tasks.get? i.id := by
  cases i with
  | call id loop uuid call =>
      obtain ⟨hnone, rfl⟩ := h
      exact hnone.symm
  | enter id capabilities =>
      obtain ⟨frame, hget, -, rfl⟩ := h
      exact hget.symm
  | cancel id =>
      obtain ⟨frame, hget, rfl⟩ := h
      exact hget.symm
  | answer id answer capabilities =>
      obtain ⟨frame, hget, rfl⟩ := h
      exact hget.symm

theorem gateFree_eq_true {worldId : NonEmpty} :
    m.gateFree worldId = true ↔
      ∀ id task, m.tasks.get? id = some task → task.gate? ≠ some worldId := by
  simp only [gateFree, List.all_eq_true, decide_eq_true_eq, Prod.forall, Dict.mem_entries]

/-- Nobody else holds the gate of the operation that runs. -/
theorem Invariant.gate_of_cues (hinv : m.Invariant) {i : Input} (hcues : m.Cues i cue)
    {worldId : NonEmpty} (hgate : cue.gate? = some worldId) {id : Nat} {task : Task}
    (hget : m.tasks.get? id = some task) (hne : id ≠ i.id) : task.gate? ≠ some worldId := by
  cases i with
  | call _ loop uuid call =>
      obtain ⟨-, rfl⟩ := hcues
      cases hgate
  | enter _ capabilities =>
      obtain ⟨frame, -, hfree, rfl⟩ := hcues
      cases hgate
      exact gateFree_eq_true.mp hfree id task hget
  | cancel _ =>
      obtain ⟨frame, -, rfl⟩ := hcues
      cases hgate
  | answer id' answer capabilities =>
      obtain ⟨frame, hframe, rfl⟩ := hcues
      exact hinv.gates id' id _ task worldId hframe hget (Ne.symm hne) hgate

theorem Invariant.cueInvariant (hinv : m.Invariant) {i : Input} (hcues : m.Cues i cue) :
    CueInvariant m.capabilities m.store cue := by
  intro task htask
  rw [hcues.task?] at htask
  exact hinv.task _ task htask

/-- The manager after a stretch: the store it left, and the operation where it is now. -/
theorem after_eq (id : Nat) (s : WorldStore) (outcome : Outcome) :
    m.after id s outcome = { m with
      store := s
      tasks := match outcome.task? with
        | some task => m.tasks.insert id task
        | none => m.tasks.erase id } := by
  cases outcome <;> rfl

/-- An operation that is suspended after a stretch is the one that ran or was suspended before. -/
theorem get?_after {id id' : Nat} {s : WorldStore} {task : Task} :
    (m.after id s outcome).tasks.get? id' = some task ↔
      id' = id ∧ outcome.task? = some task ∨ id' ≠ id ∧ m.tasks.get? id' = some task := by
  rw [after_eq]
  cases outcome.task? with
  | none =>
      simp only [Dict.get?_erase]
      by_cases h : id' = id <;> simp [h]
  | some t =>
      simp only [Dict.get?_insert]
      by_cases h : id' = id <;> simp [h]

theorem capabilities_after (id : Nat) (s : WorldStore) (outcome : Outcome) :
    (m.after id s outcome).capabilities = m.capabilities := by
  cases outcome <;> rfl

theorem store_after (id : Nat) (s : WorldStore) (outcome : Outcome) :
    (m.after id s outcome).store = s := by
  cases outcome <;> rfl

/-- A stretch that ran was one of the listed ones. -/
theorem stretch_of_advance (loop : Option Nat) {id : Nat} {stretch : StoreM Progress}
    (hends : StretchEnds m.capabilities m.store cue (stretch m.store))
    (h : { m with eventLoop := loop }.advance id stretch = (outcome, m')) :
    ∃ loop s', m' = { m with eventLoop := loop }.after id s' outcome ∧
      Stretch m.capabilities m.store cue outcome s' := by
  rw [advance, Prod.mk.injEq] at h
  obtain ⟨rfl, rfl⟩ := h
  exact ⟨loop, _, rfl, hends⟩

/-- Every step runs one stretch of one operation. -/
theorem step_eq_some (hinv : m.Invariant) {i : Input} (h : m.step i = some (outcome, m')) :
    ∃ cue, m.Cues i cue ∧ ∃ loop s', m' = { m with eventLoop := loop }.after i.id s' outcome ∧
      Stretch m.capabilities m.store cue outcome s' := by
  cases i with
  | call id loop uuid call =>
      rw [step] at h
      split at h
      · cases h
      · next hfresh =>
          have hnone : m.tasks.get? id = none :=
            Dict.contains_eq_false.mp (Bool.eq_false_iff.mpr hfresh)
          -- A refused call leaves the manager as it was, which is what dropping its task does.
          have hsame : ∀ e, m.after id m.store (.raised e) = m := by
            intro e
            rw [after_eq]
            simp only [Outcome.task?, Dict.erase_of_get?_none hnone]
          refine ⟨.started call, ⟨hnone, rfl⟩, ?_⟩
          rw [Option.some.injEq, start] at h
          cases hstart : call.start m.store uuid with
          | error e =>
              rw [hstart] at h
              cases h
              exact ⟨m.eventLoop, m.store, (hsame e).symm, .refused⟩
          | ok stretch =>
              have hends : StretchEnds m.capabilities m.store (.started call)
                  (stretch m.store) :=
                stretch_start hstart
              rw [hstart, bindRunningLoop] at h
              cases hloop : m.eventLoop with
              | none =>
                  rw [hloop] at h
                  exact stretch_of_advance (some loop) hends h
              | some bound =>
                  rw [hloop] at h
                  by_cases heq : bound = loop
                  · simp only [heq, if_true] at h
                    exact stretch_of_advance m.eventLoop hends h
                  · simp only [heq, if_false] at h
                    cases h
                    exact ⟨m.eventLoop, m.store, (hsame _).symm, .refused⟩
  | enter id capabilities =>
      simp only [step] at h
      split at h
      · next frame hget =>
          split at h
          · next hfree =>
              refine ⟨.entered frame, ⟨frame, hget, hfree, rfl⟩, ?_⟩
              exact stretch_of_advance m.eventLoop
                (stretch_enter hinv.store.wellFormed (hinv.task id _ hget)) (Option.some.inj h)
          · cases h
      · cases h
  | cancel id =>
      simp only [step] at h
      split at h
      · next frame hget =>
          refine ⟨.cancelled frame, ⟨frame, hget, rfl⟩, ?_⟩
          exact stretch_of_advance m.eventLoop
            (stretch_cancelled (hinv.task id _ hget)) (Option.some.inj h)
      · cases h
  | answer id answer capabilities =>
      simp only [step] at h
      split at h
      · next frame hget =>
          refine ⟨.answered frame answer, ⟨frame, hget, rfl⟩, ?_⟩
          exact stretch_of_advance m.eventLoop
            (stretch_answered hinv.store (hinv.task id _ hget)) (Option.some.inj h)
      · cases h

/-- A reservation the operation holds after a stretch is the one it held before, or a new one. -/
theorem claim_of_effect {s' : WorldStore} (h : Effect own s cue outcome s')
    {reservation : WorldReservation} {environment : Option EnvironmentHandle}
    (hclaim : outcome.claim? = some (reservation, environment)) :
    (∃ environment', cue.claim? = some (reservation, environment')) ∨
      s.pendingWorlds.get? reservation.worldId = none := by
  cases h with
  | keeps hkept => exact Or.inl ⟨environment, hkept _ hclaim⟩
  | reserves hrun hclaimed =>
      rw [hclaimed] at hclaim
      cases hclaim
      exact Or.inr (reserveWorld_eq_ok.mp hrun).2.1
  | claims hheld hclaimed hrun =>
      rw [hclaimed] at hclaim
      cases hclaim
      exact Or.inl ⟨none, hheld⟩
  | releases hheld hend =>
      rw [Outcome.claim?, hend] at hclaim
      cases hclaim
  | publishes hheld hend =>
      rw [Outcome.claim?, hend] at hclaim
      cases hclaim
  | commits hgate hend =>
      rw [Outcome.claim?, hend] at hclaim
      cases hclaim

/-- The operations that do not run keep what they rely on. -/
theorem Invariant.taskInvariant_frame (hinv : m.Invariant) {i : Input} (hcues : m.Cues i cue)
    {s' : WorldStore} (heffect : Effect m.capabilities m.store cue outcome s') {id : Nat} {task : Task}
    (hget : m.tasks.get? id = some task) (hne : id ≠ i.id) :
    TaskInvariant m.capabilities s' task := by
  have hold := hinv.task id task hget
  constructor
  · intro reservation environment hclaim
    refine heffect.pending_frame (hold.claim _ _ hclaim) ?_
    intro reservation' environment' hcue
    obtain ⟨task', htask', hclaim'⟩ := Option.bind_eq_some_iff.mp hcue
    rw [hcues.task?] at htask'
    exact hinv.claims i.id id task' task _ _ _ _ htask' hget hne.symm hclaim' hclaim
  · exact hold.pinned
  · intro node hnode
    obtain ⟨hread, hrest⟩ := hold.read node hnode
    refine ⟨heffect.node_frame hread fun hgate => ?_, hrest⟩
    exact hinv.gate_of_cues hcues hgate hget hne (by rw [Task.gate?, hnode]; rfl)
  · exact hold.working

/-- Every stretch keeps the invariant. -/
theorem Invariant.after (hinv : m.Invariant) {i : Input} (hcues : m.Cues i cue)
    {loop : Option Nat} {s' : WorldStore}
    (hstretch : Stretch m.capabilities m.store cue outcome s') :
    ({ m with eventLoop := loop }.after i.id s' outcome).Invariant := by
  have hcue := hinv.cueInvariant hcues
  have heffect := hstretch.effect hinv.store hcue
  constructor
  · rw [capabilities_after, store_after]
    exact heffect.storeInvariant hinv.store hcue
  · intro id task hget
    rw [capabilities_after, store_after]
    rcases get?_after.mp hget with ⟨rfl, htask⟩ | ⟨hne, hold⟩
    · exact hstretch.taskInvariant hinv.store hcue htask
    · exact hinv.taskInvariant_frame hcues heffect hold hne
  · -- The operation that ran holds what it held, or a reservation nobody could hold before.
    have hmixed : ∀ id task task' reservation reservation' environment environment',
        outcome.task? = some task → m.tasks.get? id = some task' → id ≠ i.id →
        task.claim? = some (reservation, environment) →
        task'.claim? = some (reservation', environment') →
        reservation.worldId ≠ reservation'.worldId := by
      intro id task task' reservation reservation' environment environment' htask hget hne hclaim
        hclaim'
      have hout : outcome.claim? = some (reservation, environment) := by
        rw [Outcome.claim?, htask]
        exact hclaim
      rcases claim_of_effect heffect hout with ⟨environment'', hheld⟩ | hfresh
      · obtain ⟨told, htold, hclaimed⟩ := Option.bind_eq_some_iff.mp hheld
        rw [hcues.task?] at htold
        exact hinv.claims i.id id told task' _ _ _ _ htold hget hne.symm hclaimed hclaim'
      · intro heq
        have hpending := (hinv.task id task' hget).claim _ _ hclaim'
        rw [heq, hpending] at hfresh
        cases hfresh
    intro id id' task task' reservation reservation' environment environment' hget hget' hne hclaim
      hclaim'
    rcases get?_after.mp hget with ⟨rfl, htask⟩ | ⟨hold, hget⟩
    · rcases get?_after.mp hget' with ⟨rfl, -⟩ | ⟨hold', hget'⟩
      · exact absurd rfl hne
      · exact hmixed id' task task' _ _ _ _ htask hget' hold' hclaim hclaim'
    · rcases get?_after.mp hget' with ⟨rfl, htask'⟩ | ⟨-, hget'⟩
      · exact (hmixed id task' task _ _ _ _ htask' hget hold hclaim' hclaim).symm
      · exact hinv.claims id id' task task' _ _ _ _ hget hget' hne hclaim hclaim'
  · have hmixed : ∀ id task task' worldId, outcome.task? = some task →
        m.tasks.get? id = some task' → id ≠ i.id → task.gate? = some worldId →
        task'.gate? ≠ some worldId := by
      intro id task task' worldId htask hget hne hgate
      exact hinv.gate_of_cues hcues (hstretch.gate hinv.store htask hgate) hget hne
    intro id id' task task' worldId hget hget' hne hgate
    rcases get?_after.mp hget with ⟨rfl, htask⟩ | ⟨hold, hget⟩
    · rcases get?_after.mp hget' with ⟨rfl, -⟩ | ⟨hold', hget'⟩
      · exact absurd rfl hne
      · exact hmixed id' task task' worldId htask hget' hold' hgate
    · rcases get?_after.mp hget' with ⟨rfl, htask'⟩ | ⟨-, hget'⟩
      · intro hgate'
        exact hmixed id task' task worldId htask' hget hold hgate' hgate
      · exact hinv.gates id id' task task' worldId hget hget' hne hgate

/-- A new manager satisfies the invariant. -/
theorem invariant_create {capabilities : Answer} (h : create capabilities = .ok m) :
    m.Invariant := by
  obtain ⟨own, -, hret⟩ := Imp.except_bind_eq_ok.mp h
  cases hret
  constructor
  · refine ⟨wellFormed_empty, ?_⟩
    intro _ _ h
    cases h
  · intro _ _ h
    cases h
  · intro _ _ _ _ _ _ _ _ h
    cases h
  · intro _ _ _ _ _ h
    cases h

/-- Every step keeps the invariant. -/
theorem Invariant.step (hinv : m.Invariant) {i : Input} (h : m.step i = some (outcome, m')) :
    m'.Invariant := by
  obtain ⟨cue, hcues, loop, s', rfl, hstretch⟩ := step_eq_some hinv h
  exact hinv.after hcues hstretch

/-- The invariant along a run under any condition. -/
theorem Invariant.reaches {allowed : Manager → Input → Prop} (hinv : m.Invariant)
    (h : machine.Reaches allowed m m') : m'.Invariant :=
  h.invariant hinv fun _ _ _ _ hinv _ hstep => hinv.step hstep

/-- The invariant in every state a manager can get to. -/
theorem Reachable.invariant (h : m.Reachable) : m.Invariant := by
  obtain ⟨capabilities, m₀, hcreate, hrun⟩ := h
  exact (invariant_create hcreate).reaches hrun

end Manager

end StateWeaver.Worlds

/-! ## A manager to run -/

namespace StateWeaver.Worlds.Demo

/-- A hash function that lets runs be evaluated. -/
@[reducible]
def sha256 : Sha256 :=
  ⟨fun _ => "0000000000000000000000000000000000000000000000000000000000000000", fun _ => by decide⟩

def pin : AdapterPin := ⟨⟨"adapter", by decide⟩, ⟨"1", by decide⟩⟩

def capabilities : CapabilityManifest where
  pin := pin
  capabilities := ⟨[(⟨"browser_session_fork", by decide⟩, .supported),
    (⟨"controlled_clock", by decide⟩, .supported), (⟨"filesystem_fork", by decide⟩, .supported),
    (⟨"postgres_snapshot", by decide⟩, .supported), (⟨"queue_snapshot", by decide⟩, .supported),
    (⟨"redis_snapshot", by decide⟩, .supported)], by decide⟩
  egressPolicy := .deny
  capabilitiesNonempty := by decide

def target : TargetSpec := ⟨⟨"target", by decide⟩, ⟨"1", by decide⟩, [], by decide⟩

def quotas : ResourceQuotas := ⟨1, 16, 1, 0, 1, by decide⟩

/-- A namespace whose components all lie under one name. -/
def namespaceA : WorldNamespace :=
  ⟨⟨"a.net", by decide⟩, ⟨"a.db", by decide⟩, ⟨"a.cache", by decide⟩, ⟨"a.queue", by decide⟩,
    ⟨"a.session", by decide⟩, ⟨"a.storage", by decide⟩, by decide⟩

/-- A namespace that shares nothing with the first one. -/
def namespaceB : WorldNamespace :=
  ⟨⟨"b.net", by decide⟩, ⟨"b.db", by decide⟩, ⟨"b.cache", by decide⟩, ⟨"b.queue", by decide⟩,
    ⟨"b.session", by decide⟩, ⟨"b.storage", by decide⟩, by decide⟩

def environmentA : EnvironmentHandle :=
  ⟨pin, ⟨"env-a", by decide⟩, ⟨"ref-a", by decide⟩, namespaceA, quotas⟩

def environmentB : EnvironmentHandle :=
  ⟨pin, ⟨"env-b", by decide⟩, ⟨"ref-b", by decide⟩, namespaceB, quotas⟩

/-- An environment with its own identity in the first namespace. -/
def squatter : EnvironmentHandle :=
  ⟨pin, ⟨"env-c", by decide⟩, ⟨"ref-c", by decide⟩, namespaceA, quotas⟩

attribute [local instance] sha256

def component : Digest := digest ByteArray.empty

def snapshotOf (environment : EnvironmentHandle) : SnapshotManifest where
  snapshotId := ⟨"snapshot", by decide⟩
  rootSnapshotId := ⟨"root", by decide⟩
  sourceEnvironmentId := environment.environmentId
  target := target
  adapter := pin
  contentHashes := ⟨[(⟨"cache", by decide⟩, component), (⟨"clock", by decide⟩, component),
    (⟨"database", by decide⟩, component), (⟨"filesystem", by decide⟩, component),
    (⟨"queue", by decide⟩, component), (⟨"session", by decide⟩, component)], by decide⟩
  stateFingerprint := component
  hashesComplete := by decide
  fingerprintDerived := rfl

def capabilitiesAnswer : Nat → Answer := fun _ => .returned (.capabilities capabilities)

/-- The manager as it is constructed. -/
def manager : Manager := ⟨capabilities, .empty, none, .empty⟩

theorem create_manager : Manager.create (.returned (.capabilities capabilities)) = .ok manager := by
  decide

/-- The manager after the given inputs. -/
def after (inputs : List Input) : Manager :=
  ((Manager.machine.replay manager inputs).map Prod.snd).getD manager

theorem reaches_after {inputs : List Input}
    (h : (Manager.machine.replay manager inputs).isSome = true) :
    Manager.machine.Reaches Machine.anyStep manager (after inputs) := by
  obtain ⟨⟨outcomes, m⟩, hrun⟩ := Option.isSome_iff_exists.mp h
  rw [after, hrun]
  exact Machine.reaches_of_replay hrun

/-- A run of allowed steps, one input longer. -/
theorem reaches_snoc {allowed : Manager → Input → Prop} {inputs : List Input} {i : Input}
    (h : Manager.machine.Reaches allowed manager (after inputs)) (hok : allowed (after inputs) i)
    (hstep : ((after inputs).step i).map Prod.snd = some (after (inputs ++ [i]))) :
    Manager.machine.Reaches allowed manager (after (inputs ++ [i])) := by
  obtain ⟨⟨outcome, m⟩, hrun, rfl⟩ := Option.map_eq_some_iff.mp hstep
  exact h.step hok hrun

theorem reachable_after {inputs : List Input}
    (h : (Manager.machine.replay manager inputs).isSome = true) : (after inputs).Reachable :=
  ⟨_, manager, create_manager, reaches_after h⟩

end StateWeaver.Worlds.Demo
