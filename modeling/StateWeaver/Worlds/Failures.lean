import StateWeaver.Worlds.Isolation
import StateWeaver.Worlds.Commits

/-!
# What a failing operation leaves

`FailureContract` says for one step what the store is like when the operation does not return: no
method but `snapshot` and `restore` leaves a trace in the nodes, and these two mark the node whose
environment they had to give up. A reservation outlives its operation exactly when the environment it
has claimed could not be cleaned up; then it is quarantined, and stays so along every run.
-/

namespace StateWeaver.Worlds

open WorldStore

variable [Sha256] {own : CapabilityManifest} {s s' : WorldStore} {cue : Cue} {outcome : Outcome}

/-- The world an operation is for: the one it reserves, or the one it was called on. -/
def Task.subject : Task → NonEmpty
  | .atGate (.createGhost reservation _ _) | .atGate (.fork reservation _ _) => reservation.worldId
  | .atGate frame => frame.world
  | .atAdapter (.prepareEnvironment reservation _)
  | .atAdapter (.prepareSnapshot reservation _ _)
  | .atAdapter (.forkEnvironment reservation _ _ _)
  | .atAdapter (.forkSnapshot reservation _ _ _)
  | .atAdapter (.cleanupReserved reservation _ _) => reservation.worldId
  | .atAdapter (.snapshot node _) | .atAdapter (.restore node _ _)
  | .atAdapter (.restoredSnapshot node _ _) | .atAdapter (.cleanupNode node _ _)
  | .atAdapter (.destroy node _) => node.worldId

/-- An operation stays in its family and with its world. -/
theorem Stretch.continues (hstore : s.WellFormed) (h : Stretch own s cue outcome s') {task : Task}
    (htask : outcome.task? = some task) :
    task.family = cue.family ∧ ∀ before, cue.task? = some before → task.subject = before.subject := by
  have hid : ∀ {worldId node}, s.nodes.get? worldId = some node → node.worldId = worldId :=
    fun hget => (hstore.coherent.of_get? hget).1
  cases h <;> cases htask
  case reserved hrun hclaim hnode hframe hfamily => exact ⟨hfamily, by rintro _ ⟨⟩⟩
  case queued hclaim hfamily => exact ⟨hfamily, by rintro _ ⟨⟩⟩
  case forkAdmitted => exact ⟨rfl, by rintro _ ⟨⟩; rfl⟩
  case snapshotAdmitted hget hlive => exact ⟨rfl, by rintro _ ⟨⟩; exact hid hget⟩
  case restoreAdmitted hget hlive hphase hfits => exact ⟨rfl, by rintro _ ⟨⟩; exact hid hget⟩
  case destroyAdmitted hget hlive => exact ⟨rfl, by rintro _ ⟨⟩; exact hid hget⟩
  case claimed frame _ _ _ hframe hpin hrun hnamespace =>
      cases frame <;> cases hframe <;> exact ⟨rfl, by rintro _ ⟨⟩; rfl⟩
  case overlapping frame _ _ _ _ hframe hpin hrun =>
      cases frame <;> cases hframe <;> exact ⟨rfl, by rintro _ ⟨⟩; rfl⟩
  case unpublished frame _ _ _ _ hframe =>
      cases frame <;> cases hframe <;> exact ⟨rfl, by rintro _ ⟨⟩; rfl⟩
  case restoreAccepted => exact ⟨rfl, by rintro _ ⟨⟩; rfl⟩
  case failing frame _ _ _ _ hframe hguarded =>
      cases frame <;> cases hframe <;> cases hguarded <;> exact ⟨rfl, by rintro _ ⟨⟩; rfl⟩

/-! ## Failing stretches -/

/-- The adapter has answered without raising. -/
def Cue.Succeeds (cue : Cue) : Prop := ∃ frame value, cue = .answered frame (.returned value)

/-- Only operations that make a world hold a reservation. -/
theorem family_of_claim {task : Task}
    {claim : WorldReservation × Option EnvironmentHandle} (h : task.claim? = some claim) :
    task.family = .materializing ∨ task.family = .ghost := by
  rcases task with frame | frame <;> cases frame <;>
    first | exact Or.inl rfl | exact Or.inr rfl | cases h

theorem Cue.family_of_claim {claim : WorldReservation × Option EnvironmentHandle}
    (h : cue.claim? = some claim) : cue.family = .materializing ∨ cue.family = .ghost := by
  obtain ⟨task, htask, hclaim⟩ := Option.bind_eq_some_iff.mp h
  have hfamily := Worlds.family_of_claim hclaim
  cases cue <;> cases htask <;> exact hfamily

/-- A call that is refused changes nothing. -/
theorem Stretch.store_of_refused {e : Exc} (h : Stretch own s cue (.raised e) s')
    (hcall : cue.task? = none) : s' = s := by
  cases h
  case refused => rfl
  case turnedAway => rfl
  case quarantined => rfl
  case destroyFailed => rfl
  case dropped hclaim =>
      rw [Cue.claim?, hcall] at hclaim
      cases hclaim
  all_goals cases hcall

/-- A stretch that materializes a world writes no node unless it returns. -/
theorem Stretch.nodes_of_materializing (h : Stretch own s cue outcome s')
    (hfamily : cue.family = .materializing) (hfails : ∀ value, outcome ≠ .returned value) :
    s'.nodes = s.nodes := by
  cases h
  case reserved hrun =>
      have hs := (reserveWorld_eq_ok.mp hrun).2.2.2
      rw [hs]
  case removed => cases hfamily
  case blocked => cases hfamily
  all_goals first | rfl | exact absurd rfl (hfails _)

/-- Before an environment is claimed, a failing stretch releases the reservation. -/
theorem Stretch.released_of_unclaimed (h : Stretch own s cue outcome s') {e : Exc}
    (hfails : outcome = .raised e) {reservation : WorldReservation}
    (hclaim : cue.claim? = some (reservation, none)) :
    s'.pendingWorlds.get? reservation.worldId = none := by
  cases h <;> cases hfails
  case dropped reservation' hclaim' =>
      rw [hclaim'] at hclaim
      cases hclaim
      exact Dict.get?_erase_self _ _
  case turnedAway frame hnone hcue =>
      have hheld : cue.claim? = (Task.atGate frame).claim? := by
        rcases hcue with rfl | rfl <;> rfl
      rw [hheld, hnone] at hclaim
      cases hclaim
  all_goals cases hclaim

/-- Once an environment is claimed, a failing stretch is the end of its cleanup. -/
theorem Stretch.claimed_cases (h : Stretch own s cue outcome s') {e : Exc}
    (hfails : outcome = .raised e) {reservation : WorldReservation} {environment : EnvironmentHandle}
    (hclaim : cue.claim? = some (reservation, some environment)) :
    (cue.Succeeds ∧ s' = s.released reservation) ∨ (¬ cue.Succeeds ∧ s' = s) := by
  cases h <;> cases hfails
  case dropped reservation' hclaim' =>
      rw [hclaim'] at hclaim
      cases hclaim
  case turnedAway frame hnone hcue =>
      have hheld : cue.claim? = (Task.atGate frame).claim? := by
        rcases hcue with rfl | rfl <;> rfl
      rw [hheld, hnone] at hclaim
      cases hclaim
  case cleanedUp =>
      cases hclaim
      exact Or.inl ⟨⟨_, _, rfl⟩, rfl⟩
  case quarantined hanswer =>
      refine Or.inr ⟨?_, rfl⟩
      rintro ⟨frame, value, ⟨⟩⟩
      cases hanswer
  all_goals cases hclaim

/-- Outside the methods that make a world, a stretch that neither returns nor ends a cleanup changes
nothing. -/
theorem Stretch.store_of_not_making (h : Stretch own s cue outcome s')
    (hfamily : cue.family ≠ .materializing ∧ cue.family ≠ .ghost)
    (hfails : ∀ value, outcome ≠ .returned value)
    (hbefore : ∀ e frame, outcome = .raised e → cue.task? = some (.atAdapter frame) →
      cue.family ≠ .observing) : s' = s := by
  have hunclaimed : ∀ claim, cue.claim? ≠ some claim := by
    intro claim hclaim
    rcases Cue.family_of_claim hclaim with hmaking | hmaking
    · exact hfamily.1 hmaking
    · exact hfamily.2 hmaking
  cases h
  case reserved hclaim _ _ hsame _ =>
      rcases family_of_claim hclaim with hmaking | hmaking
      · exact absurd (hsame.symm.trans hmaking) hfamily.1
      · exact absurd (hsame.symm.trans hmaking) hfamily.2
  case dropped hclaim => exact absurd hclaim (hunclaimed _)
  case claimed hframe _ _ _ => exact absurd (claiming?_claim? hframe).1 (hunclaimed _)
  case overlapping hframe _ _ => exact absurd (claiming?_claim? hframe).1 (hunclaimed _)
  case cleanedUp => exact absurd rfl (hunclaimed _)
  case removed => exact absurd rfl (hbefore _ _ rfl rfl)
  case blocked => exact absurd rfl (hbefore _ _ rfl rfl)
  all_goals first | rfl | exact absurd rfl (hfails _)

/-- A `snapshot` or `restore` that fails in the hands of the adapter ends the cleanup of its world. -/
theorem Stretch.observed_cases (h : Stretch own s cue outcome s') (hfamily : cue.family = .observing)
    {e : Exc} (hfails : outcome = .raised e) {frame : AdapterFrame}
    (hframe : cue.task? = some (.atAdapter frame)) :
    ∃ node environment primary, frame = .cleanupNode node environment primary ∧
      ((cue.Succeeds ∧ s' = s.replaced node.gone) ∨
        (¬ cue.Succeeds ∧ s' = s.replaced node.blocked)) := by
  cases h <;> cases hfails
  case removed node environment value existing hcan =>
      cases hframe
      exact ⟨node, environment, _, rfl, Or.inl ⟨⟨_, _, rfl⟩, rfl⟩⟩
  case blocked node environment primary answer cleanupError existing hanswer hcan =>
      cases hframe
      refine ⟨node, environment, primary, rfl, Or.inr ⟨?_, rfl⟩⟩
      rintro ⟨frame, value, ⟨⟩⟩
      cases hanswer
  case dropped hclaim =>
      rcases Cue.family_of_claim hclaim with hmaking | hmaking <;> rw [hmaking] at hfamily <;>
        cases hfamily
  case turnedAway hcue =>
      rcases hcue with rfl | rfl <;> cases hframe
  case refused => cases hframe
  all_goals cases hfamily

/-- Phases change along legal transitions, except that a world whose cleanup failed is blocked. -/
theorem Stretch.phases (hstore : StoreInvariant own s) (hcue : CueInvariant own s cue)
    (h : Stretch own s cue outcome s') {worldId : NonEmpty} {node node' : WorldNode}
    (hnode : s.bareNode worldId = some node) (hnode' : s'.bareNode worldId = some node')
    (hchanged : node'.phase ≠ node.phase) :
    node'.phase ∈ legalTransitions node.phase ∨
      node'.phase = .blocked ∧ ¬ cue.Succeeds ∧ ∃ n e primary,
        cue.task? = some (.atAdapter (.cleanupNode n e primary)) ∧ n.worldId = worldId := by
  rcases h.update hstore hcue hnode hnode' with rfl | ⟨hgate, changed, hupdate, rfl⟩
  · exact absurd rfl hchanged
  · cases hupdate with
    | transitioned hlegal => exact Or.inl hlegal
    | @blocked n e primary answer hfailed =>
        refine Or.inr ⟨rfl, ?_, n, e, primary, rfl, Option.some.inj hgate⟩
        rintro ⟨_, value, ⟨⟩⟩
        exact hfailed value rfl
    | discarded => exact absurd rfl hchanged
    | observed => exact absurd rfl hchanged
    | removed => exact absurd rfl hchanged
    | destroyed => exact absurd rfl hchanged

/-! ## Quarantine -/

namespace Manager

variable {m m' : Manager}

/-- A reservation that no operation holds any more keeps its environment. -/
structure Quarantined (m : Manager) (reservation : WorldReservation) (e : EnvironmentHandle) :
    Prop where
  pending : m.store.pendingWorlds.get? reservation.worldId = some ⟨reservation, some e⟩
  ownerless : ∀ id task reservation' environment, m.tasks.get? id = some task →
    task.claim? = some (reservation', environment) → reservation'.worldId ≠ reservation.worldId

/-- The world identifier of a quarantined reservation is taken, and its environment is no one
else's. -/
structure KeptApart (m : Manager) (reservation : WorldReservation) (e : EnvironmentHandle) :
    Prop where
  pending : m.store.pendingWorlds.get? reservation.worldId = some ⟨reservation, some e⟩
  unpublished : m.store.nodes.get? reservation.worldId = none
  unused : ∀ worldId e', worldId ≠ reservation.worldId → m.store.Holds worldId e' →
    IdentityDisjoint e e'

theorem Quarantined.keptApart (hinv : m.Invariant) {reservation : WorldReservation}
    {e : EnvironmentHandle} (h : m.Quarantined reservation e) : m.KeptApart reservation e :=
  ⟨h.pending, (hinv.store.wellFormed.pending_fresh _ _ h.pending).2, fun _ _ hne hheld =>
    hinv.store.wellFormed.identityDisjoint (Or.inr ⟨_, h.pending, rfl⟩) hheld hne.symm⟩

/-- No step ends a quarantine. -/
theorem Quarantined.step (hinv : m.Invariant) {reservation : WorldReservation}
    {e : EnvironmentHandle} (h : m.Quarantined reservation e) {i : Input}
    (hstep : m.step i = some (outcome, m')) : m'.Quarantined reservation e := by
  obtain ⟨cue, hcues, loop, s', rfl, hstretch⟩ := step_eq_some hinv hstep
  have heffect := hstretch.effect hinv.store (hinv.cueInvariant hcues)
  have hother : ∀ reservation' environment, cue.claim? = some (reservation', environment) →
      reservation'.worldId ≠ reservation.worldId := by
    intro reservation' environment hclaim
    obtain ⟨task, htask, hheld⟩ := Option.bind_eq_some_iff.mp hclaim
    rw [hcues.task?] at htask
    exact h.ownerless _ _ _ _ htask hheld
  constructor
  · rw [store_after]
    exact heffect.pending_frame h.pending hother
  · intro id task reservation' environment hget hclaim
    rcases get?_after.mp hget with ⟨-, htask⟩ | ⟨-, hbefore⟩
    · have hout : outcome.claim? = some (reservation', environment) := by
        rw [Outcome.claim?, htask]
        exact hclaim
      rcases claim_of_effect heffect hout with ⟨environment', hheld⟩ | hfresh
      · exact hother _ _ hheld
      · intro heq
        rw [heq, h.pending] at hfresh
        cases hfresh
    · exact h.ownerless id task _ _ hbefore hclaim

/-- A quarantined reservation is kept apart in every later state. -/
theorem Quarantined.reaches (hinv : m.Invariant) {reservation : WorldReservation}
    {e : EnvironmentHandle} (h : m.Quarantined reservation e)
    (hrun : machine.Reaches Machine.anyStep m m') : m'.KeptApart reservation e := by
  have hboth : m'.Invariant ∧ m'.Quarantined reservation e := by
    refine hrun.invariant (P := fun m => m.Invariant ∧ m.Quarantined reservation e) ⟨hinv, h⟩ ?_
    rintro m i outcome m' ⟨hinv, h⟩ - hstep
    exact ⟨hinv.step hstep, h.step hinv hstep⟩
  exact hboth.2.keptApart hboth.1

/-! ## The contract -/

/-- The family of the operation an input is for. -/
def family? (m : Manager) : Input → Option Family
  | .call _ _ _ call => some call.family
  | .enter id _ | .cancel id | .answer id _ _ => (m.tasks.get? id).map Task.family

theorem Cues.family? {i : Input} (h : m.Cues i cue) : m.family? i = some cue.family := by
  cases i with
  | call id loop uuid call =>
      obtain ⟨-, rfl⟩ := h
      rfl
  | enter id capabilities =>
      obtain ⟨frame, hget, -, rfl⟩ := h
      exact congrArg (Option.map Task.family) hget
  | cancel id =>
      obtain ⟨frame, hget, rfl⟩ := h
      exact congrArg (Option.map Task.family) hget
  | answer id answer capabilities =>
      obtain ⟨frame, hget, rfl⟩ := h
      exact congrArg (Option.map Task.family) hget

/-- The input is a successful answer of the adapter. -/
def Succeeds (i : Input) : Prop := ∃ id value capabilities, i = .answer id (.returned value) capabilities

/-- What a step leaves when the operation does not return. -/
structure FailureContract (m : Manager) (i : Input) (outcome : Outcome) (m' : Manager) : Prop where
  /-- An operation stays in its family and with its world until it ends. -/
  continues : ∀ task, outcome = .suspended task → m.family? i = some task.family ∧
    ∀ before, m.tasks.get? i.id = some before → task.subject = before.subject
  /-- A refused call changes nothing. -/
  refused : ∀ e, m.tasks.get? i.id = none → outcome = .raised e → m'.store = m.store
  /-- A `prepare` or `fork` that has not returned has written no node. -/
  materializing : m.family? i = some .materializing → (∀ value, outcome ≠ .returned value) →
    m'.store.nodes = m.store.nodes
  /-- A `prepare` or `fork` that fails before it has claimed an environment releases its
  reservation. -/
  unclaimed : ∀ e task reservation, outcome = .raised e → m.tasks.get? i.id = some task →
    task.claim? = some (reservation, none) →
    m'.store.pendingWorlds.get? reservation.worldId = none
  /-- One that fails afterwards releases it if the environment was cleaned up, and otherwise leaves it
  behind for good. -/
  claimed : ∀ e task reservation environment, outcome = .raised e →
    m.tasks.get? i.id = some task → task.claim? = some (reservation, some environment) →
    (Succeeds i → m'.store.pendingWorlds.get? reservation.worldId = none) ∧
      (¬ Succeeds i → ∀ m'', machine.Reaches Machine.anyStep m' m'' →
        m''.KeptApart reservation environment)
  /-- A `snapshot` or `restore` that goes on, or fails before it has called the adapter, has changed
  nothing. -/
  observing : m.family? i = some .observing → (∀ value, outcome ≠ .returned value) →
    (∀ e frame, outcome = .raised e → m.tasks.get? i.id ≠ some (.atAdapter frame)) →
    m'.store = m.store
  /-- One that fails afterwards flags its world destroyed if the environment was cleaned up, and
  otherwise blocks it; all other worlds stay as they are. -/
  observed : ∀ e frame, m.family? i = some .observing → outcome = .raised e →
    m.tasks.get? i.id = some (.atAdapter frame) →
    ∃ node node', m.store.bareNode (Task.atAdapter frame).subject = some node ∧
      m'.store.bareNode (Task.atAdapter frame).subject = some node' ∧
      (Succeeds i → node'.destroyed = true ∧ node'.environment = none) ∧
      (¬ Succeeds i → node'.phase = .blocked ∧ node'.destroyed = false ∧
        node'.environment = node.environment ∧ node.environment ≠ none) ∧
      ∀ worldId, worldId ≠ (Task.atAdapter frame).subject →
        m'.store.bareNode worldId = m.store.bareNode worldId
  /-- A `destroy` or `transition` that has not returned has changed nothing. -/
  unchanged : m.family? i = some .destroying ∨ m.family? i = some .transitioning →
    (∀ value, outcome ≠ .returned value) → m'.store = m.store
  /-- Apart from blocking a world whose cleanup failed, phases change along legal transitions. -/
  phases : ∀ worldId node node', m.store.bareNode worldId = some node →
    m'.store.bareNode worldId = some node' → node'.phase ≠ node.phase →
    node'.phase ∈ legalTransitions node.phase ∨
      node'.phase = .blocked ∧ ¬ Succeeds i ∧ ∃ n e primary,
        m.tasks.get? i.id = some (.atAdapter (.cleanupNode n e primary)) ∧ n.worldId = worldId

theorem Cues.succeeds_iff {i : Input} (h : m.Cues i cue) : cue.Succeeds ↔ Succeeds i := by
  constructor
  · rintro ⟨frame, value, rfl⟩
    cases i with
    | answer id answer capabilities =>
        obtain ⟨_, -, heq⟩ := h
        cases heq
        exact ⟨id, value, capabilities, rfl⟩
    | call => exact absurd h.2 nofun
    | enter =>
        obtain ⟨_, -, -, heq⟩ := h
        cases heq
    | cancel =>
        obtain ⟨_, -, heq⟩ := h
        cases heq
  · rintro ⟨id, value, capabilities, rfl⟩
    obtain ⟨frame, -, rfl⟩ := h
    exact ⟨frame, value, rfl⟩

/-- An operation that ends without having released its reservation leaves it quarantined. -/
theorem quarantined_of_ended (hinv : m.Invariant) {i : Input} {task : Task}
    {reservation : WorldReservation} {e : EnvironmentHandle}
    (hget : m.tasks.get? i.id = some task) (hclaim : task.claim? = some (reservation, some e))
    {loop : Option Nat} (hended : outcome.task? = none) :
    ({ m with eventLoop := loop }.after i.id m.store outcome).Quarantined reservation e := by
  constructor
  · rw [store_after]
    exact (hinv.task _ _ hget).claim _ _ hclaim
  · intro id task' reservation' environment hget' hclaim'
    rcases get?_after.mp hget' with ⟨-, htask⟩ | ⟨hne, hbefore⟩
    · rw [hended] at htask
      cases htask
    · exact hinv.claims id i.id task' task _ _ _ _ hbefore hget hne hclaim' hclaim

/-- What a failed cleanup of a published world leaves. -/
theorem observed_of_stretch (hinv : m.Invariant) {i : Input} (hcues : m.Cues i cue)
    (hstretch : Stretch m.capabilities m.store cue outcome s') (hfamily : cue.family = .observing)
    {e : Exc} (hfails : outcome = .raised e) {frame : AdapterFrame}
    (hframe : cue.task? = some (.atAdapter frame)) :
    ∃ node node', m.store.bareNode (Task.atAdapter frame).subject = some node ∧
      s'.bareNode (Task.atAdapter frame).subject = some node' ∧
      (cue.Succeeds → node'.destroyed = true ∧ node'.environment = none) ∧
      (¬ cue.Succeeds → node'.phase = .blocked ∧ node'.destroyed = false ∧
        node'.environment = node.environment ∧ node.environment ≠ none) ∧
      ∀ worldId, worldId ≠ (Task.atAdapter frame).subject →
        s'.bareNode worldId = m.store.bareNode worldId := by
  obtain ⟨node, environment, primary, rfl, hcases⟩ := hstretch.observed_cases hfamily hfails hframe
  have htask := hinv.task _ _ (hcues.task?.symm.trans hframe)
  obtain ⟨hread, -, hlive⟩ := htask.read node rfl
  have henvironment := htask.working _ node environment rfl rfl
  have hself : ∀ copy : WorldNode, copy.worldId = node.worldId →
      (m.store.replaced copy).bareNode node.worldId =
        some { copy.bare with revision := copy.revision + 1 } := by
    intro copy hid
    rw [bareNode_replaced, if_pos hid.symm]
  have hother : ∀ copy : WorldNode, copy.worldId = node.worldId → ∀ worldId, worldId ≠ node.worldId →
      (m.store.replaced copy).bareNode worldId = m.store.bareNode worldId := by
    intro copy hid worldId hne
    rw [bareNode_replaced, if_neg (hid ▸ hne)]
  rcases hcases with ⟨hsucceeds, rfl⟩ | ⟨hsucceeds, rfl⟩
  · exact ⟨node.bare, _, hread, hself node.gone rfl, fun _ => ⟨rfl, rfl⟩,
      fun h => absurd hsucceeds h, hother node.gone rfl⟩
  · refine ⟨node.bare, _, hread, hself node.blocked rfl, fun h => absurd h hsucceeds,
      fun _ => ⟨rfl, hlive, rfl, ?_⟩, hother node.blocked rfl⟩
    rw [show node.bare.environment = node.environment from rfl, henvironment]
    nofun

/-- The contract holds for every step from a state a manager can get to. -/
theorem failureContract_of_reachable (h : m.Reachable) {i : Input}
    (hstep : m.step i = some (outcome, m')) : FailureContract m i outcome m' := by
  have hinv := h.invariant
  have hnext := hinv.step hstep
  obtain ⟨cue, hcues, loop, s', rfl, hstretch⟩ := step_eq_some hinv hstep
  have hcue := hinv.cueInvariant hcues
  have hfamily : ∀ {family}, m.family? i = some family → cue.family = family := by
    intro family hfam
    rw [hcues.family?, Option.some.injEq] at hfam
    exact hfam
  have hclaim : ∀ {task claim}, m.tasks.get? i.id = some task → task.claim? = some claim →
      cue.claim? = some claim := by
    intro task claim hget hclaimed
    rw [Cue.claim?, hcues.task?, hget]
    exact hclaimed
  constructor
  · rintro task rfl
    obtain ⟨hfam, hsubject⟩ := hstretch.continues hinv.store.wellFormed rfl
    refine ⟨hcues.family?.trans (congrArg some hfam.symm), fun before hget => ?_⟩
    exact hsubject before (hcues.task?.trans hget)
  · rintro e hnone rfl
    rw [store_after]
    exact hstretch.store_of_refused (hcues.task?.trans hnone)
  · intro hfam hfails
    rw [store_after]
    exact hstretch.nodes_of_materializing (hfamily hfam) hfails
  · intro e task reservation hfails hget hclaimed
    rw [store_after]
    exact hstretch.released_of_unclaimed hfails (hclaim hget hclaimed)
  · intro e task reservation environment hfails hget hclaimed
    rcases hstretch.claimed_cases hfails (hclaim hget hclaimed) with
      ⟨hsucceeds, rfl⟩ | ⟨hsucceeds, rfl⟩
    · refine ⟨fun _ => ?_, fun hnot => absurd (hcues.succeeds_iff.mp hsucceeds) hnot⟩
      rw [store_after]
      exact Dict.get?_erase_self _ _
    · refine ⟨fun hyes => absurd (hcues.succeeds_iff.mpr hyes) hsucceeds, fun _ m'' hrun => ?_⟩
      refine (quarantined_of_ended hinv hget hclaimed ?_).reaches hnext hrun
      rw [hfails]
      rfl
  · intro hfam hfails hbefore
    rw [store_after]
    have hobserving := hfamily hfam
    refine hstretch.store_of_not_making ?_ hfails ?_
    · rw [hobserving]
      exact ⟨nofun, nofun⟩
    · intro e frame hraised htask
      exact absurd (hcues.task?.symm.trans htask) (hbefore e frame hraised)
  · intro e frame hfam hfails hget
    rw [store_after]
    have h := observed_of_stretch hinv hcues hstretch (hfamily hfam) hfails
      (hcues.task?.trans hget)
    simp only [hcues.succeeds_iff] at h
    exact h
  · intro hfam hfails
    rw [store_after]
    refine hstretch.store_of_not_making ?_ hfails ?_
    · rcases hfam with hfam | hfam <;> rw [hfamily hfam] <;> exact ⟨nofun, nofun⟩
    · intro e frame _ _
      rcases hfam with hfam | hfam <;> rw [hfamily hfam] <;> nofun
  · intro worldId node node' hnode hnode' hchanged
    rw [store_after] at hnode'
    rw [← hcues.succeeds_iff, ← hcues.task?]
    exact hstretch.phases hinv.store hcue hnode hnode' hchanged

end Manager

end StateWeaver.Worlds

namespace StateWeaver.Worlds.Demo

attribute [local instance] sha256

/-- The adapter does not clean up the environment of a rejected operation in time. -/
def failedCleanup : Input := .answer 1 (.raised .timeoutError) capabilitiesAnswer

theorem failureContract_failedCleanup :
    ∃ outcome m', (after overlappingClaimants).step failedCleanup = some (outcome, m') ∧
      m'.tasks.values.length = 1 ∧ m'.store.pendingWorlds.values.length = 2 ∧
      Manager.FailureContract (after overlappingClaimants) failedCleanup outcome m' := by
  have hrun : ((after overlappingClaimants).step failedCleanup).map
      (fun r => (r.2.tasks.values.length, r.2.store.pendingWorlds.values.length)) = some (1, 2) := by
    decide +kernel
  obtain ⟨⟨outcome, m'⟩, hstep, hlengths⟩ := Option.map_eq_some_iff.mp hrun
  obtain ⟨htasks, hpending⟩ := Prod.mk.inj hlengths
  exact ⟨outcome, m', hstep, htasks, hpending,
    Manager.failureContract_of_reachable (reachable_after (by decide +kernel)) hstep⟩

end StateWeaver.Worlds.Demo
