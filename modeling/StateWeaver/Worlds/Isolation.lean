import StateWeaver.Worlds.ManagerInvariant

/-!
# Isolation of the environments

Every world and every reservation owns its environment. `Manager.Isolated` is what is shared between
no two owners in any state; `Manager.FirstClaimantWins` is that an operation which has claimed an
environment and passed the namespace check cannot lose it to another one. The first holds in every
reachable state. The second does not: the publication of a world is checked against the reservations
of operations that are only waiting to be cleaned up. It holds along every run in which no operation
claims an environment that overlaps the namespace of such a claimant.
-/

namespace StateWeaver.Worlds

open WorldStore

variable [Sha256]

/-- A world or a reservation owns an environment: the world lives in it, or the reservation has
claimed it. -/
def WorldStore.Holds (s : WorldStore) (worldId : NonEmpty) (e : EnvironmentHandle) : Prop :=
  (∃ node, s.nodes.get? worldId = some node ∧ node.liveEnvironment = some e) ∨
    ∃ pending, s.pendingWorlds.get? worldId = some pending ∧ pending.environment = some e

namespace WorldStore

variable {s : WorldStore} {worldId worldId' : NonEmpty} {e e' : EnvironmentHandle}

theorem heldByLive_of_get? {excluding : Option NonEmpty} {node : WorldNode}
    (hget : s.nodes.get? worldId = some node) (hlive : node.liveEnvironment = some e)
    (hne : some worldId ≠ excluding) : s.HeldByLive excluding e :=
  ⟨worldId, node, hget, hne, hlive⟩

/-- Whether a world lives in an environment does not depend on the pointers. -/
theorem lives_iff : (∃ node, s.nodes.get? worldId = some node ∧ node.liveEnvironment = some e) ↔
    ∃ node, s.bareNode worldId = some node ∧ node.liveEnvironment = some e := by
  constructor
  · rintro ⟨node, hget, hlive⟩
    exact ⟨node.bare, bareNode_of_get? hget, hlive⟩
  · rintro ⟨node, hbare, hlive⟩
    obtain ⟨stored, hget, rfl⟩ := bareNode_eq_some.mp hbare
    exact ⟨stored, hget, hlive⟩

/-- Different owners own environments with different identities. -/
theorem WellFormed.identityDisjoint (h : s.WellFormed) (hheld : s.Holds worldId e)
    (hheld' : s.Holds worldId' e') (hne : worldId ≠ worldId') : IdentityDisjoint e e' := by
  have hne' : some worldId' ≠ some worldId := by simpa using hne.symm
  rcases hheld with ⟨node, hget, hlive⟩ | ⟨pending, hget, hclaimed⟩
  · rcases hheld' with ⟨node', hget', hlive'⟩ | ⟨pending', hget', hclaimed'⟩
    · exact (h.live_disjoint worldId node.bare e (bareNode_of_get? hget) hlive e'
        ⟨worldId', node', hget', hne', hlive'⟩).1
    · exact (h.pending_live worldId' pending' e' hget' hclaimed' e
        (heldByLive_of_get? hget hlive nofun)).symm
  · rcases hheld' with ⟨node', hget', hlive'⟩ | ⟨pending', hget', hclaimed'⟩
    · exact h.pending_live worldId pending e hget hclaimed e'
        (heldByLive_of_get? hget' hlive' nofun)
    · exact h.pending_disjoint worldId pending e hget hclaimed e'
        ⟨worldId', pending', hget', hne', hclaimed'⟩

end WorldStore

/-! ## Isolation in every reachable state -/

namespace Manager

variable {m m' : Manager}

/-- No two owners share what identifies an environment. -/
structure Isolated (m : Manager) : Prop where
  /-- Live worlds share neither identity nor namespace components. -/
  live : ∀ worldId worldId' node node' e e', m.store.nodes.get? worldId = some node →
    m.store.nodes.get? worldId' = some node' → worldId ≠ worldId' →
    node.liveEnvironment = some e → node'.liveEnvironment = some e' → EnvironmentDisjoint e e'
  /-- What a reservation has claimed is no live world's. -/
  pending : ∀ worldId worldId' pending node e e',
    m.store.pendingWorlds.get? worldId = some pending → pending.environment = some e →
    m.store.nodes.get? worldId' = some node → node.liveEnvironment = some e' →
    IdentityDisjoint e e'
  /-- An environment that is being destroyed has one owner, and is no other owner's. -/
  destroying : ∀ id frame e, m.tasks.get? id = some (.atAdapter frame) →
    frame.call = .destroy e → ∃ worldId, m.store.Holds worldId e ∧
      ∀ worldId' e', worldId' ≠ worldId → m.store.Holds worldId' e' → IdentityDisjoint e e'

/-- The owner of the environment an operation is destroying. -/
theorem Invariant.exists_owner (hinv : m.Invariant) {id : Nat} {frame : AdapterFrame}
    {e : EnvironmentHandle} (hget : m.tasks.get? id = some (.atAdapter frame))
    (hcall : frame.call = .destroy e) :
    ∃ worldId, m.store.Holds worldId e ∧
      ((∃ reservation primary, frame = .cleanupReserved reservation e primary ∧
          worldId = reservation.worldId) ∨ ∃ node, frame.node? = some node ∧ worldId = node.worldId) := by
  have htask := hinv.task id _ hget
  have hworking : ∀ node, frame.working? = some (node, e) → m.store.Holds node.worldId e := by
    intro node hframe
    obtain ⟨hread, -, hlive⟩ := htask.read node (working?_node? hframe).1
    refine Or.inl (lives_iff.mpr ⟨node.bare, hread, ?_⟩)
    exact liveEnvironment_eq_some.mpr ⟨hlive, htask.working frame node e rfl hframe⟩
  cases frame <;> cases hcall
  case cleanupReserved reservation primary =>
      refine ⟨reservation.worldId, Or.inr ⟨_, htask.claim _ _ rfl, rfl⟩, ?_⟩
      exact Or.inl ⟨reservation, primary, rfl, rfl⟩
  case cleanupNode node primary =>
      exact ⟨node.worldId, hworking node rfl, Or.inr ⟨node, rfl, rfl⟩⟩
  case destroy node => exact ⟨node.worldId, hworking node rfl, Or.inr ⟨node, rfl, rfl⟩⟩

/-- In every state a manager can get to, the environments are isolated. -/
theorem isolated_of_reachable (h : m.Reachable) : m.Isolated := by
  have hinv := h.invariant
  have hstore := hinv.store.wellFormed
  constructor
  · intro worldId worldId' node node' e e' hget hget' hne hlive hlive'
    refine hstore.live_disjoint worldId node.bare e (bareNode_of_get? hget) hlive e' ?_
    exact heldByLive_of_get? hget' hlive' (by simpa using hne.symm)
  · intro worldId worldId' pending node e e' hget hclaimed hget' hlive
    exact hstore.pending_live worldId pending e hget hclaimed e'
      (heldByLive_of_get? hget' hlive nofun)
  · intro id frame e hget hcall
    obtain ⟨worldId, hheld, -⟩ := hinv.exists_owner hget hcall
    refine ⟨worldId, hheld, fun worldId' e' hne hheld' => ?_⟩
    exact hstore.identityDisjoint hheld hheld' hne.symm

end Manager

end StateWeaver.Worlds

namespace StateWeaver.Worlds.Demo

attribute [local instance] sha256

/-- One world is published; the environment of another operation overlaps it and is being
destroyed. -/
def publishedAndRejected : List Input :=
  [.call 0 0 "" (.prepare target (some "A")),
    .answer 0 (.returned (.handle environmentA)) capabilitiesAnswer,
    .answer 0 (.returned (.snapshot (snapshotOf environmentA))) capabilitiesAnswer,
    .call 1 0 "" (.prepare target (some "C")),
    .answer 1 (.returned (.handle squatter)) capabilitiesAnswer]

theorem isolated_publishedAndRejected :
    (after publishedAndRejected).tasks.values.map Task.claim? =
        [some (⟨⟨"C", by decide⟩, 1⟩, some squatter)] ∧
      (after publishedAndRejected).Isolated :=
  ⟨by decide +kernel, Manager.isolated_of_reachable (reachable_after (by decide +kernel))⟩

end StateWeaver.Worlds.Demo

namespace StateWeaver.Worlds

open WorldStore

/-! ## First claimants -/

variable [Sha256] {own : CapabilityManifest} {s s' : WorldStore} {cue : Cue} {outcome : Outcome}

/-- What a stretch lets a world or a reservation own that it did not own before is what the operation
claims. -/
theorem Effect.holds (h : Effect own s cue outcome s')
    {worldId : NonEmpty} {e : EnvironmentHandle} (hheld : s'.Holds worldId e) :
    s.Holds worldId e ∨ ∃ reservation, worldId = reservation.worldId ∧
      cue.claim? = some (reservation, none) ∧ outcome.claim? = some (reservation, some e) := by
  cases h with
  | keeps => exact Or.inl hheld
  | reserves hrun =>
      have hs := (reserveWorld_eq_ok.mp hrun).2.2.2
      subst hs
      rcases hheld with hlive | ⟨pending, hget, hclaimed⟩
      · exact Or.inl (Or.inl hlive)
      · rw [Dict.get?_insert] at hget
        split at hget
        · cases hget
          cases hclaimed
        · exact Or.inl (Or.inr ⟨pending, hget, hclaimed⟩)
  | @claims reservation environment hclaim hclaimed hrun =>
      rcases hheld with hlive | ⟨pending, hget, heq⟩
      · exact Or.inl (Or.inl hlive)
      · rw [claimed, Dict.get?_insert] at hget
        split at hget
        · next hid =>
            cases hget
            cases heq
            exact Or.inr ⟨reservation, hid, hclaim, hclaimed⟩
        · exact Or.inl (Or.inr ⟨pending, hget, heq⟩)
  | releases =>
      rcases hheld with hlive | ⟨pending, hget, heq⟩
      · exact Or.inl (Or.inl hlive)
      · rw [released, Dict.get?_erase] at hget
        split at hget
        · cases hget
        · exact Or.inl (Or.inr ⟨pending, hget, heq⟩)
  | @publishes reservation node hclaim hend hcan hpinned =>
      rcases hheld with hlive | ⟨pending, hget, heq⟩
      · obtain ⟨n, hn, hlive⟩ := lives_iff.mp hlive
        rw [bareNode_published] at hn
        split at hn
        · next hid =>
            cases hn
            exact Or.inl (Or.inr
              ⟨_, hid ▸ hcan.reserved, (liveEnvironment_eq_some.mp hlive).2⟩)
        · exact Or.inl (Or.inl (lives_iff.mpr ⟨n, hn, hlive⟩))
      · rw [published, Dict.get?_erase] at hget
        split at hget
        · cases hget
        · exact Or.inl (Or.inr ⟨pending, hget, heq⟩)
  | commits hgate hend hcan =>
      rcases hheld with hlive | hpending
      · obtain ⟨n, hn, hlive⟩ := lives_iff.mp hlive
        rw [bareNode_replaced] at hn
        split at hn
        · next hid =>
            cases hn
            exact Or.inl (Or.inl ⟨_, hid ▸ hcan.exists_get?, hcan.liveEnvironment hlive⟩)
        · exact Or.inl (Or.inl (lives_iff.mpr ⟨n, hn, hlive⟩))
      · exact Or.inl (Or.inr hpending)

/-- A stretch that claims an environment got it from the adapter as its answer. -/
theorem Stretch.of_claim (h : Stretch own s cue outcome s') {reservation : WorldReservation}
    {reservation' : WorldReservation} {e : EnvironmentHandle}
    (hcue : cue.claim? = some (reservation, none))
    (hout : outcome.claim? = some (reservation', some e)) :
    ∃ frame next, cue = .answered frame (.returned (.handle e)) ∧
      frame.claiming? = some (reservation, next) ∧
      claimEnvironment reservation e s = .ok () s' ∧
      (outcome = .suspended (.atAdapter (next e)) ∨
        ∃ primary, outcome = .suspended (.atAdapter (.cleanupReserved reservation e primary))) := by
  cases h
  case claimed frame r next environment hframe hpin hrun hnamespace =>
      obtain ⟨hclaim, hnext⟩ := claiming?_claim? hframe
      rw [show Cue.claim? (.answered frame _) = some (r, none) from hclaim] at hcue
      rw [show Outcome.claim? (.suspended (.atAdapter (next environment))) =
        some (r, some environment) from (hnext environment).1] at hout
      cases hcue
      cases hout
      exact ⟨frame, next, rfl, hframe, hrun, Or.inl rfl⟩
  case overlapping frame r next environment primary hframe hpin hrun =>
      have hclaim := (claiming?_claim? hframe).1
      rw [show Cue.claim? (.answered frame _) = some (r, none) from hclaim] at hcue
      cases hcue
      cases hout
      exact ⟨frame, next, rfl, hframe, hrun, Or.inr ⟨primary, rfl⟩⟩
  case unpublished frame answer r environment primary hframe =>
      rw [show Cue.claim? (.answered frame answer) = some (r, some environment) from
        publishing?_claim? hframe] at hcue
      cases hcue
  case reserved => cases hcue
  case queued => cases hcue
  all_goals cases hout

/-- A claim is accepted only for an environment identified apart from all that are owned. -/
theorem identityDisjoint_of_claim {reservation : WorldReservation} {e : EnvironmentHandle}
    (h : claimEnvironment reservation e s = .ok () s') (worldId : NonEmpty) (e' : EnvironmentHandle)
    (hheld : s.Holds worldId e') : IdentityDisjoint e e' := by
  obtain ⟨hpending, hlive, hother, -⟩ := claimEnvironment_eq_ok.mp h
  rcases hheld with ⟨node, hget, hlives⟩ | ⟨pending, hget, hclaimed⟩
  · exact hlive e' (heldByLive_of_get? hget hlives nofun)
  · refine hother e' ⟨worldId, pending, hget, ?_, hclaimed⟩
    intro heq
    rw [Option.some.inj heq, hpending] at hget
    cases hget
    cases hclaimed

/-- An operation that comes to await its first snapshot has just passed the namespace check. -/
theorem Stretch.namespaceDisjoint (h : Stretch own s cue outcome s') {frame : AdapterFrame}
    {reservation : WorldReservation} {e : EnvironmentHandle}
    (htask : outcome.task? = some (.atAdapter frame))
    (hframe : frame.publishing? = some (reservation, e)) {worldId : NonEmpty}
    {e' : EnvironmentHandle} (hne : worldId ≠ reservation.worldId) (hheld : s'.Holds worldId e') :
    NamespaceDisjoint e e' := by
  have hclaim := publishing?_claim? hframe
  cases h <;> cases htask
  case reserved hclaimed hnode hworking hfamily =>
      rw [hclaimed] at hclaim
      cases hclaim
  case claimed frame' reservation' next environment hframe' hpin hrun hnamespace =>
      have hnext := ((claiming?_claim? hframe').2 environment).1
      rw [hnext] at hclaim
      cases hclaim
      obtain ⟨candidate, hget, hlive, hother⟩ := validateReservedNamespace_eq_ok.mp hnamespace
      rw [WorldStore.claimed, Dict.get?_insert_self] at hget
      cases hget
      rcases hheld with ⟨node, hget, hlives⟩ | ⟨pending, hget, hclaimed⟩
      · exact hlive e' (heldByLive_of_get? hget hlives fun h => by cases h)
      · exact hother e' ⟨worldId, pending, hget, by simpa using hne, hclaimed⟩
  all_goals cases hframe

/-- The claim of an operation that has passed the namespace check and awaits the first snapshot. -/
def Task.publishing? : Task → Option (WorldReservation × EnvironmentHandle)
  | .atGate _ => none
  | .atAdapter frame => frame.publishing?

/-- Whether the manager's own checks let an operation publish its world with a snapshot. -/
def AdapterFrame.Accepts (own : CapabilityManifest) (snapshot : SnapshotManifest)
    (capabilities : Nat → Answer) : AdapterFrame → Prop
  | .prepareSnapshot _ target environment =>
      validateSnapshot own snapshot target environment none (capabilities 0) = .ok ()
  | .forkSnapshot _ parent lineageTransition environment =>
      validateSnapshot own snapshot parent.target environment (some parent.rootSnapshotId)
          (capabilities 0) = .ok () ∧
        ∃ lineage, childLineage parent lineageTransition = .ok lineage ∧ lineage.Nodup
  | _ => False

/-- A world whose environment overlaps no other owner's can be published. -/
theorem canPublish_of_disjoint (hstore : StoreInvariant own s) {frame : AdapterFrame}
    (htask : TaskInvariant own s (.atAdapter frame)) {reservation : WorldReservation}
    {e : EnvironmentHandle} (hframe : frame.publishing? = some (reservation, e))
    (hdisjoint : ∀ worldId e', worldId ≠ reservation.worldId → s.Holds worldId e' →
      NamespaceDisjoint e e') {node : WorldNode} (hcoherent : node.Coherent)
    (hid : node.worldId = reservation.worldId) (henvironment : node.environment = some e)
    (hlive : node.destroyed = false) (hrevision : node.revision = 0)
    (hparent : s.ValidParent node true) : s.CanPublish node reservation := by
  have hpending := htask.claim _ _ (publishing?_claim? hframe)
  have hfree : ∀ {worldId e'}, some worldId ≠ some node.worldId → s.Holds worldId e' →
      EnvironmentDisjoint e e' := by
    intro worldId e' hne hheld
    have hother : worldId ≠ reservation.worldId := by
      rintro rfl
      exact hne (congrArg some hid.symm)
    exact ⟨hstore.wellFormed.identityDisjoint (Or.inr ⟨_, hpending, rfl⟩) hheld hother.symm,
      hdisjoint worldId e' hother hheld⟩
  refine ⟨hcoherent, ?_, hid.symm, ?_, hrevision, hparent, ?_⟩
  · rw [hid]
    exact (hstore.wellFormed.pending_fresh _ _ hpending).2
  · rw [hid, henvironment]
    exact hpending
  · rw [assertUniqueLiveEnvironment, liveEnvironment_eq_some.mpr ⟨hlive, henvironment⟩]
    refine assertEnvironmentUnassigned_eq_ok.mpr ⟨?_, ?_⟩
    · rintro e' ⟨worldId, n, hget, hne, hheld⟩
      exact hfree hne (Or.inl ⟨n, hget, hheld⟩)
    · rintro e' ⟨worldId, pending, hget, hne, hheld⟩
      exact hfree hne (Or.inr ⟨pending, hget, hheld⟩)

/-- A node that can be published is published by the stretch that receives its snapshot. -/
theorem publishAnswered_of_canPublish (hstore : s.WellFormed) {reservation : WorldReservation}
    {environment : EnvironmentHandle} {target : TargetSpec} {rootSnapshotId : Option NonEmpty}
    (worldNode : SnapshotManifest → Except Exc WorldNode) {snapshot : SnapshotManifest}
    {capabilities : Nat → Answer} {node : WorldNode}
    (hvalid : validateSnapshot own snapshot target environment rootSnapshotId (capabilities 0) =
      .ok ())
    (hnode : worldNode snapshot = .ok node) (hcan : s.CanPublish node reservation) :
    ∃ node', publishAnswered own reservation environment target rootSnapshotId worldNode
      (.returned (.snapshot snapshot)) capabilities s =
        .ok (.returned (.node node')) (s.published node) := by
  obtain ⟨node', hadd, -⟩ := add_of_canPublish hstore.coherent hcan
  refine ⟨node', Imp.onError_eq_ok.mpr (Or.inl ?_)⟩
  refine Imp.lift_bind_eq_ok.mpr ⟨.snapshot snapshot, rfl, ?_⟩
  refine Imp.lift_bind_eq_ok.mpr ⟨snapshot, rfl, ?_⟩
  refine Imp.lift_check_bind_eq_ok.mpr ⟨hvalid, ?_⟩
  refine Imp.lift_bind_eq_ok.mpr ⟨node, hnode, ?_⟩
  exact Imp.bind_eq_ok.mpr ⟨node', _, hadd, Imp.pure_eq_ok.mpr ⟨rfl, rfl⟩⟩

/-- An operation whose environment overlaps no other owner's publishes its world with every snapshot
that passes the checks. -/
theorem answered_of_disjoint (hstore : StoreInvariant own s) {frame : AdapterFrame}
    (htask : TaskInvariant own s (.atAdapter frame)) {reservation : WorldReservation}
    {e : EnvironmentHandle} (hframe : frame.publishing? = some (reservation, e))
    (hdisjoint : ∀ worldId e', worldId ≠ reservation.worldId → s.Holds worldId e' →
      NamespaceDisjoint e e') {snapshot : SnapshotManifest} {capabilities : Nat → Answer}
    (haccepts : frame.Accepts own snapshot capabilities) :
    ∃ node s', frame.answered own (.returned (.snapshot snapshot)) capabilities s =
      .ok (.returned (.node node)) s' := by
  have hpinned := htask.pinned _ _ (publishing?_claim? hframe)
  have hpending := htask.claim _ _ (publishing?_claim? hframe)
  cases frame <;> cases hframe
  case prepareSnapshot target =>
      have hfits := (validateSnapshot_eq_ok.mp haccepts).2
      have hcoherent : (rootNode own reservation target e snapshot).Coherent := by
        refine ⟨List.nodup_nil, nofun, nofun, nofun, fun _ _ => ⟨rfl, rfl⟩, ?_, ?_, ?_⟩
        · rintro _ ⟨⟩
          exact hpinned
        · rintro _ ⟨⟩ _ ⟨⟩
          exact hfits.source
        · rintro _ ⟨⟩
          exact ⟨hfits.adapter, hfits.target, rfl, rfl⟩
      have hcan := canPublish_of_disjoint hstore htask rfl hdisjoint hcoherent rfl rfl rfl rfl rfl
      obtain ⟨node, hrun⟩ := publishAnswered_of_canPublish hstore.wellFormed
        (fun snapshot => (rootNode own reservation target e snapshot).modelValidate) haccepts
        (WorldNode.modelValidate_eq_ok.mpr ⟨rfl, hcoherent⟩) hcan
      exact ⟨node, _, hrun⟩
  case forkSnapshot parent lineageTransition =>
      obtain ⟨hvalid, lineage, hlineage, hnodup⟩ := haccepts
      have hfits := (validateSnapshot_eq_ok.mp hvalid).2
      obtain ⟨hread, -, hlive⟩ := htask.read parent rfl
      have hadapter : parent.adapter = own.pin := (hstore.pinned _ _ hread).1
      have hparent : some parent.worldId ≠ some reservation.worldId := by
        rintro heq
        rw [Option.some.inj heq, bareNode_eq_none.mpr
          (hstore.wellFormed.pending_fresh _ _ hpending).2] at hread
        cases hread
      have hcoherent : (forkedNode reservation parent lineage e snapshot).Coherent := by
        refine ⟨hnodup, nofun, hparent, nofun, fun _ _ => ⟨rfl, rfl⟩, ?_, ?_, ?_⟩
        · rintro _ ⟨⟩
          exact hpinned.trans hadapter.symm
        · rintro _ ⟨⟩ _ ⟨⟩
          exact hfits.source
        · rintro _ ⟨⟩
          exact ⟨hfits.adapter.trans hadapter.symm, hfits.target, hfits.root _ rfl, rfl⟩
      have hvalidParent : s.ValidParent (forkedNode reservation parent lineage e snapshot) true := by
        rw [validParent_iff]
        refine ⟨parent.bare, hread, fun _ => hlive, rfl, rfl, rfl, rfl, ?_⟩
        unfold childLineage at hlineage
        split at hlineage
        · next transition _ =>
            cases hlineage
            exact ⟨transition, rfl⟩
        · cases hlineage
      have hcan := canPublish_of_disjoint hstore htask rfl hdisjoint hcoherent rfl rfl rfl rfl
        hvalidParent
      obtain ⟨node, hrun⟩ := publishAnswered_of_canPublish hstore.wellFormed
        (fun snapshot => childLineage parent lineageTransition >>= fun lineage =>
          (forkedNode reservation parent lineage e snapshot).modelValidate) hvalid
        (Imp.except_bind_eq_ok.mpr
          ⟨lineage, hlineage, WorldNode.modelValidate_eq_ok.mpr ⟨rfl, hcoherent⟩⟩) hcan
      exact ⟨node, _, hrun⟩

namespace Manager

variable {m m' : Manager}

/-- An operation that has claimed its environment and passed the namespace check wins: it publishes
its world with every snapshot that passes the manager's checks, and nobody else destroys its
environment. -/
structure FirstClaimantWins (m : Manager) : Prop where
  publishes : ∀ id frame reservation e snapshot capabilities,
    m.tasks.get? id = some (.atAdapter frame) → frame.publishing? = some (reservation, e) →
    frame.Accepts m.capabilities snapshot capabilities →
    ∃ node m', m.step (.answer id (.returned (.snapshot snapshot)) capabilities) =
      some (.returned (.node node), m')
  kept : ∀ id frame reservation e id' frame' e',
    m.tasks.get? id = some (.atAdapter frame) → frame.publishing? = some (reservation, e) →
    m.tasks.get? id' = some (.atAdapter frame') → frame'.call = .destroy e' → IdentityDisjoint e e'

/-- The input does not let an operation claim an environment whose namespace overlaps that of one
that has passed the namespace check. -/
def ClaimsDisjoint (m : Manager) (i : Input) : Prop :=
  ∀ id e capabilities frame reservation next, i = .answer id (.returned (.handle e)) capabilities →
    m.tasks.get? id = some (.atAdapter frame) → frame.claiming? = some (reservation, next) →
    (∀ worldId e', m.store.Holds worldId e' → IdentityDisjoint e e') →
    ∀ id' frame' reservation' e', m.tasks.get? id' = some (.atAdapter frame') →
      frame'.publishing? = some (reservation', e') → NamespaceDisjoint e e'

/-- A call claims nothing. -/
theorem claimsDisjoint_call {id loop : Nat} {uuid : String} {call : Call} :
    m.ClaimsDisjoint (.call id loop uuid call) := by
  rintro _ _ _ _ _ _ ⟨⟩

/-- The condition on an answer, read off the suspended operations. -/
theorem claimsDisjoint_answer {id : Nat} {e : EnvironmentHandle} {capabilities : Nat → Answer}
    (h : ∀ task ∈ m.tasks.values, ∀ p ∈ task.publishing?, NamespaceDisjoint e p.2) :
    m.ClaimsDisjoint (.answer id (.returned (.handle e)) capabilities) := by
  rintro _ _ _ frame reservation next ⟨⟩ - - - id' frame' reservation' e' hget hframe
  exact h (.atAdapter frame') (Dict.mem_values.mpr ⟨id', Dict.mem_entries.mpr hget⟩)
    (reservation', e') hframe

/-- What an operation that has passed the namespace check has claimed overlaps no other owner's
environment. -/
def Guarded (m : Manager) : Prop :=
  ∀ id frame reservation e, m.tasks.get? id = some (.atAdapter frame) →
    frame.publishing? = some (reservation, e) →
    ∀ worldId e', worldId ≠ reservation.worldId → m.store.Holds worldId e' → NamespaceDisjoint e e'

/-- Where the first claimants are guarded, they win. -/
theorem Guarded.firstClaimantWins (hinv : m.Invariant) (h : m.Guarded) : m.FirstClaimantWins := by
  constructor
  · intro id frame reservation e snapshot capabilities hget hframe haccepts
    obtain ⟨node, s', hrun⟩ := answered_of_disjoint hinv.store (hinv.task id _ hget) hframe
      (h id frame reservation e hget hframe) haccepts
    refine ⟨node, m.after id s' (.returned (.node node)), ?_⟩
    simp only [Manager.step, hget, advance, hrun, ending]
  · intro id frame reservation e id' frame' e' hget hframe hget' hcall
    have hclaim := publishing?_claim? hframe
    have hpending := (hinv.task id _ hget).claim _ _ hclaim
    obtain ⟨worldId, hheld, howner⟩ := hinv.exists_owner hget' hcall
    refine hinv.store.wellFormed.identityDisjoint (Or.inr ⟨_, hpending, rfl⟩) hheld ?_
    rcases howner with ⟨reservation', primary, rfl, rfl⟩ | ⟨node, hnode, rfl⟩
    · have hne : id ≠ id' := by
        rintro rfl
        rw [hget] at hget'
        cases hget'
        cases hframe
      exact hinv.claims id id' _ _ _ _ _ _ hget hget' hne hclaim rfl
    · intro heq
      obtain ⟨hread, -, -⟩ := (hinv.task id' _ hget').read node hnode
      rw [← heq, bareNode_eq_none.mpr
        (hinv.store.wellFormed.pending_fresh _ _ hpending).2] at hread
      cases hread

/-- A step under the condition keeps the first claimants guarded. -/
theorem Guarded.step (hinv : m.Invariant) (h : m.Guarded) {i : Input} {outcome : Outcome}
    (hok : m.ClaimsDisjoint i) (hstep : m.step i = some (outcome, m')) : m'.Guarded := by
  obtain ⟨cue, hcues, loop, s', rfl, hstretch⟩ := step_eq_some hinv hstep
  intro id frame reservation e hget hframe worldId e' hne hheld
  rw [store_after] at hheld
  rcases get?_after.mp hget with ⟨-, htask⟩ | ⟨-, hbefore⟩
  · exact hstretch.namespaceDisjoint htask hframe hne hheld
  · have heffect := hstretch.effect hinv.store (hinv.cueInvariant hcues)
    rcases heffect.holds hheld with hold | ⟨reservation', rfl, hcue, hout⟩
    · exact h id frame reservation e hbefore hframe worldId e' hne hold
    · -- The operation that ran has just claimed `e'`, so the condition speaks about it.
      obtain ⟨frame', next, rfl, hclaiming, hrun, -⟩ := hstretch.of_claim hcue hout
      have hidentity := identityDisjoint_of_claim hrun
      cases i with
      | answer id' answer capabilities =>
          obtain ⟨_, hget', heq⟩ := hcues
          cases heq
          exact (hok id' e' capabilities frame' reservation' next rfl hget' hclaiming hidentity
            id frame reservation e hbefore hframe).symm
      | call => exact absurd hcues.2 nofun
      | enter =>
          obtain ⟨_, -, -, heq⟩ := hcues
          cases heq
      | cancel =>
          obtain ⟨_, -, heq⟩ := hcues
          cases heq

/-- The first claimant wins in every state of a run in which no operation claims an environment that
overlaps the namespace of a first claimant. -/
theorem firstClaimantWins_of_claimsDisjoint {capabilities : Answer}
    (hcreate : create capabilities = .ok m) (hrun : machine.Reaches ClaimsDisjoint m m') :
    m'.FirstClaimantWins := by
  have hboth : m'.Invariant ∧ m'.Guarded := by
    refine hrun.invariant (P := fun m => m.Invariant ∧ m.Guarded)
      ⟨invariant_create hcreate, ?_⟩ ?_
    · obtain ⟨own, -, hret⟩ := Imp.except_bind_eq_ok.mp hcreate
      cases hret
      intro _ _ _ _ hget
      cases hget
    · rintro m i outcome m' ⟨hinv, hguarded⟩ hok hstep
      exact ⟨hinv.step hstep, hguarded.step hinv hok hstep⟩
  exact hboth.2.firstClaimantWins hboth.1

end Manager

end StateWeaver.Worlds

namespace StateWeaver.Worlds.Demo

attribute [local instance] sha256

/-- Two operations have claimed environments that share nothing. -/
def twoClaimants : List Input :=
  [.call 0 0 "" (.prepare target (some "A")), .call 1 0 "" (.prepare target (some "B")),
    .answer 0 (.returned (.handle environmentA)) capabilitiesAnswer,
    .answer 1 (.returned (.handle environmentB)) capabilitiesAnswer]

theorem firstClaimantWins_twoClaimants :
    (after twoClaimants).tasks.values.map Task.publishing? =
        [some (⟨⟨"A", by decide⟩, 0⟩, environmentA), some (⟨⟨"B", by decide⟩, 1⟩, environmentB)] ∧
      (after twoClaimants).FirstClaimantWins := by
  refine ⟨by decide +kernel, Manager.firstClaimantWins_of_claimsDisjoint create_manager ?_⟩
  have h₀ : Manager.machine.Reaches Manager.ClaimsDisjoint manager (after []) :=
    Machine.Reaches.refl manager
  have h₁ := reaches_snoc h₀ (i := .call 0 0 "" (.prepare target (some "A")))
    Manager.claimsDisjoint_call (by decide +kernel)
  have h₂ := reaches_snoc h₁ (i := .call 1 0 "" (.prepare target (some "B")))
    Manager.claimsDisjoint_call (by decide +kernel)
  have h₃ := reaches_snoc h₂ (i := .answer 0 (.returned (.handle environmentA)) capabilitiesAnswer)
    (Manager.claimsDisjoint_answer (by decide +kernel)) (by decide +kernel)
  exact reaches_snoc h₃ (i := .answer 1 (.returned (.handle environmentB)) capabilitiesAnswer)
    (Manager.claimsDisjoint_answer (by decide +kernel)) (by decide +kernel)

/-- One operation has claimed its environment and passed the namespace check; a later one has
claimed an environment in the same namespace, was rejected, and is waiting for its cleanup. -/
def overlappingClaimants : List Input :=
  [.call 0 0 "" (.prepare target (some "A")), .call 1 0 "" (.prepare target (some "C")),
    .answer 0 (.returned (.handle environmentA)) capabilitiesAnswer,
    .answer 1 (.returned (.handle squatter)) capabilitiesAnswer]

/-- The first claimant does not win: the publication of its world is refused because of the rejected
operation, and its environment is destroyed. -/
theorem not_firstClaimantWins :
    ¬ ∀ (_ : Sha256) (m : Manager), m.Reachable → m.FirstClaimantWins := by
  intro h
  have hwins := h sha256 (after overlappingClaimants) (reachable_after (by decide +kernel))
  obtain ⟨node, m', hstep⟩ := hwins.publishes 0
    (.prepareSnapshot ⟨⟨"A", by decide⟩, 0⟩ target environmentA) ⟨⟨"A", by decide⟩, 0⟩ environmentA
    (snapshotOf environmentA) capabilitiesAnswer (by decide +kernel) rfl
    (show validateSnapshot _ _ _ _ _ _ = .ok () by decide +kernel)
  have hlost : ((after overlappingClaimants).step
      (.answer 0 (.returned (.snapshot (snapshotOf environmentA))) capabilitiesAnswer)).map Prod.fst =
        some (.suspended (.atAdapter (.cleanupReserved ⟨⟨"A", by decide⟩, 0⟩ environmentA
          (.lifecycleError "world namespace component is already assigned to another world")))) := by
    decide +kernel
  rw [hstep] at hlost
  cases hlost

end StateWeaver.Worlds.Demo
