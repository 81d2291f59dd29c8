import StateWeaver.Worlds.ManagerInvariant

/-!
# Commits

A commit writes a changed copy of the node the operation has read. `Update` lists the changes, each
as a function of the node that is replaced: because an operation holds the gate of its world from
reading to writing, what it has read is still what is stored, so no commit overwrites one it has not
seen. For the same reason the store never answers a commit with a conflict: an operation fails with
`RevisionConflict` only when it passes on one that the adapter has raised.
-/

namespace StateWeaver.Worlds

open WorldStore

variable [Sha256] {own : CapabilityManifest} {s s' : WorldStore} {cue : Cue} {outcome : Outcome}

/-! ## What a stretch changes in a node -/

/-- The changes of a stored node, by what the operation ran on. -/
inductive Update (n : WorldNode) : Cue → WorldNode → Prop
  | transitioned {worldId destination} (hlegal : destination ∈ legalTransitions n.phase) :
      Update n (.entered (.transition worldId destination)) { n with phase := destination }
  | discarded {worldId} : Update n (.entered (.destroy worldId)) n.discarded
  | observed {frame snapshot} (hguarded : frame.guarded = true) :
      Update n (.answered frame (.returned (.snapshot snapshot))) (n.withSnapshot snapshot)
  | removed {node environment primary value} :
      Update n (.answered (.cleanupNode node environment primary) (.returned value)) n.gone
  | blocked {node environment primary answer} (hfailed : ∀ value, answer ≠ .returned value) :
      Update n (.answered (.cleanupNode node environment primary) answer) n.blocked
  | destroyed {node environment value} :
      Update n (.answered (.destroy node environment) (.returned value)) n.gone

/-- Replacing a node by a changed copy of what was read changes what is stored in the same way. -/
theorem bareNode_replaced_of_read (change : WorldNode → WorldNode)
    (hbare : ∀ n, (change n).bare = change n.bare)
    (hrevision : ∀ n, (change n).revision = n.revision)
    {node : WorldNode} (hid : (change node).worldId = node.worldId)
    (hread : s.bareNode node.worldId = some node.bare) {worldId : NonEmpty} {n n' : WorldNode}
    (hnode : s.bareNode worldId = some n)
    (hnode' : (s.replaced (change node)).bareNode worldId = some n') :
    n' = n ∨ worldId = node.worldId ∧ n' = { change n with revision := n.revision + 1 } := by
  rw [bareNode_replaced, hid] at hnode'
  split at hnode'
  · next heq =>
      subst heq
      rw [hread, Option.some.injEq] at hnode
      subst hnode
      rw [Option.some.injEq, hbare, hrevision] at hnode'
      exact Or.inr ⟨rfl, hnode'.symm⟩
  · rw [hnode, Option.some.injEq] at hnode'
    exact Or.inl hnode'.symm

/-- A stretch leaves a stored node as it is, or holds its gate and commits one of the changes. -/
theorem Stretch.update (hstore : StoreInvariant own s) (hcue : CueInvariant own s cue)
    (h : Stretch own s cue outcome s') {worldId : NonEmpty} {n n' : WorldNode}
    (hnode : s.bareNode worldId = some n) (hnode' : s'.bareNode worldId = some n') :
    n' = n ∨ cue.gate? = some worldId ∧
      ∃ changed, Update n cue changed ∧ n' = { changed with revision := n.revision + 1 } := by
  have hsame : s'.nodes = s.nodes → n' = n := by
    intro hnodes
    rw [bareNode, hnodes, ← bareNode, hnode, Option.some.injEq] at hnode'
    exact hnode'.symm
  have hpublished : ∀ {node reservation}, s.CanPublish node reservation →
      (s.published node).bareNode worldId = some n' → n' = n := by
    intro node reservation hcan hpub
    rw [bareNode_published, if_neg] at hpub
    · rw [hnode, Option.some.injEq] at hpub
      exact hpub.symm
    · rintro rfl
      rw [bareNode_eq_none.mpr hcan.fresh] at hnode
      cases hnode
  have hget' : ∀ {w node}, s.nodes.get? w = some node →
      node.worldId = w ∧ s.bareNode node.worldId = some node.bare := by
    intro w node hget
    have hid := (hstore.wellFormed.coherent.of_get? hget).1
    exact ⟨hid, bareNode_of_get? (hid ▸ hget)⟩
  cases h with
  | reserved hrun => exact Or.inl (hsame (by rw [(reserveWorld_eq_ok.mp hrun).2.2.2]))
  | ghostPublished hget hlineage hcan => exact Or.inl (hpublished hcan hnode')
  | rootPublished hfits hcan => exact Or.inl (hpublished hcan hnode')
  | forkPublished hfits hlineage hcan => exact Or.inl (hpublished hcan hnode')
  | unmaterializedDestroyed hget henvironment hcan =>
      obtain ⟨hid, hread⟩ := hget' hget
      rcases bareNode_replaced_of_read WorldNode.discarded (fun _ => rfl) (fun _ => rfl) rfl hread
        hnode hnode' with heq | ⟨rfl, heq⟩
      · exact Or.inl heq
      · exact Or.inr ⟨congrArg some hid.symm, _, .discarded, heq⟩
  | @transitioned w destination node _ _ hget hlive hlegal hcan =>
      obtain ⟨hid, hread⟩ := hget' hget
      rcases bareNode_replaced_of_read (fun n => { n with phase := destination }) (fun _ => rfl)
        (fun _ => rfl) rfl hread hnode hnode' with heq | ⟨rfl, heq⟩
      · exact Or.inl heq
      · refine Or.inr ⟨congrArg some hid.symm, _, .transitioned ?_, heq⟩
        rw [hread, Option.some.injEq] at hnode
        rw [← hnode]
        exact hlegal
  | snapshotTaken hfits hcan =>
      obtain ⟨hread, -, -⟩ := (hcue _ rfl).read _ rfl
      rcases bareNode_replaced_of_read (WorldNode.withSnapshot · _) (fun _ => rfl) (fun _ => rfl)
        rfl hread hnode hnode' with heq | ⟨rfl, heq⟩
      · exact Or.inl heq
      · exact Or.inr ⟨rfl, _, .observed rfl, heq⟩
  | restored hfits hsame hcan =>
      obtain ⟨hread, -, -⟩ := (hcue _ rfl).read _ rfl
      rcases bareNode_replaced_of_read (WorldNode.withSnapshot · _) (fun _ => rfl) (fun _ => rfl)
        rfl hread hnode hnode' with heq | ⟨rfl, heq⟩
      · exact Or.inl heq
      · exact Or.inr ⟨rfl, _, .observed rfl, heq⟩
  | removed hcan =>
      obtain ⟨hread, -, -⟩ := (hcue _ rfl).read _ rfl
      rcases bareNode_replaced_of_read WorldNode.gone (fun _ => rfl) (fun _ => rfl) rfl hread
        hnode hnode' with heq | ⟨rfl, heq⟩
      · exact Or.inl heq
      · exact Or.inr ⟨rfl, _, .removed, heq⟩
  | blocked hanswer hcan =>
      obtain ⟨hread, -, -⟩ := (hcue _ rfl).read _ rfl
      rcases bareNode_replaced_of_read WorldNode.blocked (fun _ => rfl) (fun _ => rfl) rfl hread
        hnode hnode' with heq | ⟨rfl, heq⟩
      · exact Or.inl heq
      · refine Or.inr ⟨rfl, _, .blocked ?_, heq⟩
        rintro value rfl
        cases hanswer
  | destroyed hcan =>
      obtain ⟨hread, -, -⟩ := (hcue _ rfl).read _ rfl
      rcases bareNode_replaced_of_read WorldNode.gone (fun _ => rfl) (fun _ => rfl) rfl hread
        hnode hnode' with heq | ⟨rfl, heq⟩
      · exact Or.inl heq
      · exact Or.inr ⟨rfl, _, .destroyed, heq⟩
  | _ => exact Or.inl (hsame rfl)

/-! ## Conflicts -/

/-- The exception is not a `RevisionConflict`. -/
def Exc.Calm (e : Exc) : Prop := ∀ message, e ≠ .revisionConflict message

/-- The adapter does not answer with a `RevisionConflict`. -/
def Answer.Calm (answer : Answer) : Prop := ∀ e, answer = .raised e → e.Calm

/-- The error a suspended cleanup is going to raise. -/
def Task.primary? : Task → Option Exc
  | .atAdapter (.cleanupReserved _ _ primary) | .atAdapter (.cleanupNode _ _ primary) => some primary
  | _ => none

/-- The operation is not about to raise a `RevisionConflict`. -/
def Task.Calm (task : Task) : Prop := ∀ primary, task.primary? = some primary → primary.Calm

theorem raises_modelValidate (node : WorldNode) : Imp.RaisesOnly Exc.Calm node.modelValidate := by
  refine Imp.raisesOnly_bind (Imp.raisesOnly_require nofun) fun _ _ => ?_
  refine Imp.raisesOnly_bind (Imp.raisesOnly_require nofun) fun _ _ => ?_
  refine Imp.raisesOnly_bind (Imp.raisesOnly_require nofun) fun _ _ => ?_
  refine Imp.raisesOnly_bind (Imp.raisesOnly_require nofun) fun _ _ => ?_
  refine Imp.raisesOnly_bind (Imp.raisesOnly_require nofun) fun _ _ => ?_
  refine Imp.raisesOnly_bind (Imp.raisesOnly_require nofun) fun _ _ => ?_
  refine Imp.raisesOnly_bind (Imp.raisesOnly_require nofun) fun _ _ => ?_
  exact Imp.raisesOnly_bind (Imp.raisesOnly_require nofun) fun _ _ => Imp.raisesOnly_ok

theorem raises_get (worldId : NonEmpty) : Imp.RaisesOnly Exc.Calm (s.get worldId) := by
  unfold WorldStore.get
  split
  · exact Imp.raisesOnly_ok
  · exact Imp.raisesOnly_error nofun

theorem raises_pendingFor (reservation : WorldReservation) :
    Imp.RaisesOnly Exc.Calm (s.pendingFor reservation) := by
  unfold pendingFor
  split
  · split
    · exact Imp.raisesOnly_ok
    · exact Imp.raisesOnly_error nofun
  · exact Imp.raisesOnly_error nofun

theorem raises_forLiveEnvironments {excluding : Option NonEmpty}
    {check : EnvironmentHandle → Except Exc Unit} (h : ∀ e, Imp.RaisesOnly Exc.Calm (check e)) :
    Imp.RaisesOnly Exc.Calm (s.forLiveEnvironments excluding check) := by
  refine Imp.raisesOnly_forEach fun e => ?_
  split
  · exact Imp.raisesOnly_ok
  · split
    · exact Imp.raisesOnly_ok
    · exact h _

theorem raises_forPendingEnvironments {excluding : Option NonEmpty}
    {check : EnvironmentHandle → Except Exc Unit} (h : ∀ e, Imp.RaisesOnly Exc.Calm (check e)) :
    Imp.RaisesOnly Exc.Calm (s.forPendingEnvironments excluding check) := by
  refine Imp.raisesOnly_forEach fun e => ?_
  split
  · exact Imp.raisesOnly_ok
  · split
    · exact Imp.raisesOnly_ok
    · exact h _

omit [Sha256] in
theorem raises_identityDisjoint (a b : EnvironmentHandle) :
    Imp.RaisesOnly Exc.Calm (assertEnvironmentIdentityDisjoint a b) :=
  Imp.raisesOnly_bind (Imp.raisesOnly_require nofun) fun _ _ => Imp.raisesOnly_require nofun

omit [Sha256] in
theorem raises_namespaceDisjoint (a b : EnvironmentHandle) :
    Imp.RaisesOnly Exc.Calm (assertEnvironmentNamespaceDisjoint a b) :=
  Imp.raisesOnly_require nofun

theorem raises_validateReservedNamespace (reservation : WorldReservation) :
    Imp.RaisesOnly Exc.Calm (s.validateReservedNamespace reservation) := by
  refine Imp.raisesOnly_bind (raises_pendingFor reservation) fun pending _ => ?_
  split
  · exact Imp.raisesOnly_error nofun
  · exact Imp.raisesOnly_bind (raises_forLiveEnvironments fun _ => raises_namespaceDisjoint _ _)
      fun _ _ => raises_forPendingEnvironments fun _ => raises_namespaceDisjoint _ _

theorem raises_assertUniqueLiveEnvironment (node : WorldNode) (excluding : Option NonEmpty) :
    Imp.RaisesOnly Exc.Calm (s.assertUniqueLiveEnvironment node excluding) := by
  have hdisjoint : ∀ a b, Imp.RaisesOnly Exc.Calm (assertEnvironmentDisjoint a b) := fun a b =>
    Imp.raisesOnly_bind (raises_identityDisjoint a b) fun _ _ => raises_namespaceDisjoint a b
  unfold assertUniqueLiveEnvironment
  split
  · exact Imp.raisesOnly_ok
  · exact Imp.raisesOnly_bind (raises_forLiveEnvironments fun _ => hdisjoint _ _)
      fun _ _ => raises_forPendingEnvironments fun _ => hdisjoint _ _

theorem raises_validateParent (node : WorldNode) (requireLive : Bool) :
    Imp.RaisesOnly Exc.Calm (s.validateParent node requireLive) := by
  unfold validateParent
  split
  · exact Imp.raisesOnly_require nofun
  · exact Imp.raisesOnly_bind (raises_get _) fun _ _ =>
      Imp.raisesOnly_bind (Imp.raisesOnly_require nofun) fun _ _ => Imp.raisesOnly_require nofun

theorem raises_reserveWorld (worldId : NonEmpty) :
    Imp.RaisesOnlyFrom Exc.Calm (reserveWorld worldId) s :=
  Imp.raisesOnlyFrom_lift_bind (Imp.raisesOnly_require nofun) fun _ _ =>
    Imp.raisesOnlyFrom_of_eq_ok rfl

theorem raises_claimEnvironment (reservation : WorldReservation) (environment : EnvironmentHandle) :
    Imp.RaisesOnlyFrom Exc.Calm (claimEnvironment reservation environment) s := by
  refine Imp.raisesOnlyFrom_lift_bind (raises_pendingFor reservation) fun _ _ => ?_
  refine Imp.raisesOnlyFrom_lift_bind (Imp.raisesOnly_require nofun) fun _ _ => ?_
  refine Imp.raisesOnlyFrom_lift_bind
    (raises_forLiveEnvironments fun _ => raises_identityDisjoint _ _) fun _ _ => ?_
  exact Imp.raisesOnlyFrom_lift_bind
    (raises_forPendingEnvironments fun _ => raises_identityDisjoint _ _) fun _ _ =>
      Imp.raisesOnlyFrom_of_eq_ok rfl

theorem raises_releaseWorld (reservation : WorldReservation) :
    Imp.RaisesOnlyFrom Exc.Calm (releaseWorld reservation) s :=
  Imp.raisesOnlyFrom_lift_bind (raises_pendingFor reservation) fun _ _ =>
    Imp.raisesOnlyFrom_of_eq_ok rfl

theorem raises_add (hstore : s.Coherent) (node : WorldNode) (reservation : WorldReservation) :
    Imp.RaisesOnlyFrom Exc.Calm (add node reservation) s := by
  refine Imp.raisesOnlyFrom_lift_bind (raises_modelValidate node) fun validated hvalid => ?_
  obtain ⟨hvalidated, hcoherent⟩ := WorldNode.modelValidate_eq_ok.mp hvalid
  subst hvalidated
  refine Imp.raisesOnlyFrom_lift_bind (Imp.raisesOnly_require nofun) fun _ _ => ?_
  refine Imp.raisesOnlyFrom_lift_bind (raises_pendingFor reservation) fun _ _ => ?_
  refine Imp.raisesOnlyFrom_lift_bind (Imp.raisesOnly_require nofun) fun _ hid => ?_
  refine Imp.raisesOnlyFrom_lift_bind (Imp.raisesOnly_require nofun) fun _ _ => ?_
  refine Imp.raisesOnlyFrom_lift_bind (Imp.raisesOnly_require nofun) fun _ _ => ?_
  refine Imp.raisesOnlyFrom_lift_bind (Imp.raisesOnly_require nofun) fun _ _ => ?_
  refine Imp.raisesOnlyFrom_lift_bind (raises_validateParent _ _) fun _ _ => ?_
  refine Imp.raisesOnlyFrom_lift_bind (raises_assertUniqueLiveEnvironment _ _) fun _ _ => ?_
  obtain ⟨node', htail⟩ := add_tail_eq_ok hstore hcoherent (Imp.require_eq_ok.mp hid)
  exact Imp.raisesOnlyFrom_of_eq_ok htail

section Answers

variable {answer : Answer} {capabilities : Nat → Answer}

theorem raises_validatedCapabilities (h : answer.Calm) :
    Imp.RaisesOnly Exc.Calm (validatedCapabilities answer) := by
  unfold validatedCapabilities
  split
  · next e => exact Imp.raisesOnly_error (h e rfl)
  · refine Imp.raisesOnly_bind (Imp.raisesOnly_require nofun) fun _ _ => ?_
    exact Imp.raisesOnly_bind (Imp.raisesOnly_require nofun) fun _ _ => Imp.raisesOnly_ok
  · exact Imp.raisesOnly_error nofun

theorem raises_checkPin {pin : AdapterPin} (h : answer.Calm) :
    Imp.RaisesOnly Exc.Calm (checkPin own pin answer) :=
  Imp.raisesOnly_bind (raises_validatedCapabilities h) fun _ _ => Imp.raisesOnly_require nofun

theorem raises_bounded (h : answer.Calm) : Imp.RaisesOnly Exc.Calm (bounded answer) := by
  unfold bounded
  split
  · exact Imp.raisesOnly_ok
  · exact Imp.raisesOnly_error nofun
  · exact Imp.raisesOnly_error nofun
  · exact Imp.raisesOnly_error nofun
  · next e _ _ _ =>
      refine Imp.raisesOnly_error ?_
      split
      · exact h e rfl
      · nofun

theorem raises_asHandle (value : AdapterValue) : Imp.RaisesOnly Exc.Calm (asHandle value) := by
  unfold asHandle
  split
  · exact Imp.raisesOnly_ok
  · exact Imp.raisesOnly_error nofun

theorem raises_asSnapshot (value : AdapterValue) : Imp.RaisesOnly Exc.Calm (asSnapshot value) := by
  unfold asSnapshot
  split
  · exact Imp.raisesOnly_ok
  · exact Imp.raisesOnly_error nofun

theorem raises_requireNone (value : AdapterValue) :
    Imp.RaisesOnly Exc.Calm (requireNone value) := by
  unfold requireNone
  split
  · exact Imp.raisesOnly_ok
  · exact Imp.raisesOnly_error nofun

theorem raises_validateSnapshot {snapshot : SnapshotManifest} {target : TargetSpec}
    {environment : EnvironmentHandle} {rootSnapshotId : Option NonEmpty} (h : answer.Calm) :
    Imp.RaisesOnly Exc.Calm
      (validateSnapshot own snapshot target environment rootSnapshotId answer) := by
  refine Imp.raisesOnly_bind (raises_checkPin h) fun _ _ => ?_
  refine Imp.raisesOnly_bind (Imp.raisesOnly_require nofun) fun _ _ => ?_
  exact Imp.raisesOnly_bind (Imp.raisesOnly_require nofun) fun _ _ => Imp.raisesOnly_require nofun

omit [Sha256] in
theorem raises_validatedWorldId (worldId : String) :
    Imp.RaisesOnly Exc.Calm (validatedWorldId worldId) := by
  unfold validatedWorldId
  split
  · exact Imp.raisesOnly_ok
  · exact Imp.raisesOnly_error nofun

theorem raises_childLineage (parent : WorldNode) (lineageTransition : String) :
    Imp.RaisesOnly Exc.Calm (childLineage parent lineageTransition) := by
  unfold childLineage
  split
  · exact Imp.raisesOnly_ok
  · exact Imp.raisesOnly_error nofun

theorem raises_snapshotChecked {node : WorldNode} {environment : EnvironmentHandle}
    (h : answer.Calm) (hcaps : ∀ n, (capabilities n).Calm) :
    Imp.RaisesOnly Exc.Calm (snapshotChecked own node environment answer capabilities) := by
  refine Imp.raisesOnly_bind (raises_bounded h) fun _ _ => ?_
  refine Imp.raisesOnly_bind (raises_asSnapshot _) fun _ _ => ?_
  exact Imp.raisesOnly_bind (raises_validateSnapshot (hcaps 0)) fun _ _ => Imp.raisesOnly_ok

end Answers

/-! ### Stretches -/

/-- A stretch neither raises a `RevisionConflict` nor goes on to raise one. -/
structure CalmFrom (stretch : StoreM Progress) (s : WorldStore) : Prop where
  raises : Imp.RaisesOnlyFrom Exc.Calm stretch s
  suspends : ∀ task s', stretch s = .ok (.suspended task) s' → task.Calm

theorem calmFrom_pure {p : Progress} (h : ∀ task, p = .suspended task → task.Calm) :
    CalmFrom (pure p) s := by
  refine ⟨Imp.raisesOnlyFrom_of_eq_ok rfl, fun task s' hrun => h task ?_⟩
  exact (Imp.pure_eq_ok.mp hrun).1.symm

theorem calmFrom_lift_bind {α : Type} {x : Except Exc α} {f : α → StoreM Progress}
    (hx : Imp.RaisesOnly Exc.Calm x) (hf : ∀ a, x = .ok a → CalmFrom (f a) s) :
    CalmFrom (Imp.lift x >>= f) s := by
  refine ⟨Imp.raisesOnlyFrom_lift_bind hx fun a ha => (hf a ha).raises, fun task s' hrun => ?_⟩
  obtain ⟨a, ha, hrun⟩ := Imp.lift_bind_eq_ok.mp hrun
  exact (hf a ha).suspends task s' hrun

theorem calmFrom_bind {α : Type} {x : StoreM α} {f : α → StoreM Progress}
    (hx : Imp.RaisesOnlyFrom Exc.Calm x s) (hf : ∀ a s', x s = .ok a s' → CalmFrom (f a) s') :
    CalmFrom (x >>= f) s := by
  refine ⟨Imp.raisesOnlyFrom_bind hx fun a s' ha => (hf a s' ha).raises, fun task s' hrun => ?_⟩
  obtain ⟨a, s₁, ha, hrun⟩ := Imp.bind_eq_ok.mp hrun
  exact (hf a s₁ ha).suspends task s' hrun

theorem calmFrom_throw {e : Exc} (h : e.Calm) : CalmFrom (throw e) s :=
  ⟨Imp.raisesOnlyFrom_throw h, fun _ _ hrun => absurd hrun Imp.throw_ne_ok⟩

theorem raises_releasing {α : Type} {reservation : WorldReservation} {body : StoreM α}
    (h : Imp.RaisesOnlyFrom Exc.Calm body s) :
    Imp.RaisesOnlyFrom Exc.Calm (releasing reservation body) s := by
  intro e s' hrun
  obtain ⟨primary, s₁, hbody, hhandler⟩ := Imp.onError_eq_error.mp hrun
  rcases Imp.bind_eq_error.mp hhandler with herr | ⟨_, _, -, hraise⟩
  · exact raises_releaseWorld reservation e s' herr
  · rw [(Imp.throw_eq_error.mp hraise).1]
    exact h primary s₁ hbody

theorem calmFrom_releasing {reservation : WorldReservation} {body : StoreM Progress}
    (h : CalmFrom body s) : CalmFrom (releasing reservation body) s := by
  refine ⟨raises_releasing h.raises, fun task s' hrun => ?_⟩
  rcases Imp.onError_eq_ok.mp hrun with hbody | ⟨_, _, -, hhandler⟩
  · exact h.suspends task s' hbody
  · obtain ⟨_, _, -, hraise⟩ := Imp.bind_eq_ok.mp hhandler
    exact absurd hraise Imp.throw_ne_ok

theorem calmFrom_cleaning {reservation : WorldReservation} {environment : EnvironmentHandle}
    {body : StoreM Progress} (h : CalmFrom body s) :
    CalmFrom (cleaning reservation environment body) s := by
  constructor
  · intro e s' hrun
    obtain ⟨_, _, -, hhandler⟩ := Imp.onError_eq_error.mp hrun
    exact absurd hhandler Imp.pure_ne_error
  · intro task s' hrun
    rcases Imp.onError_eq_ok.mp hrun with hbody | ⟨primary, s₁, hbody, hhandler⟩
    · exact h.suspends task s' hbody
    · have htask := (Imp.pure_eq_ok.mp hhandler).1
      cases htask
      rintro _ ⟨⟩
      exact h.raises primary s₁ hbody

theorem calmFrom_get_bind {f : WorldStore → StoreM Progress} (h : CalmFrom (f s) s) :
    CalmFrom (MonadState.get >>= f) s :=
  ⟨fun e s' hrun => h.raises e s' hrun, fun task s' hrun => h.suspends task s' hrun⟩

/-- Suspending anywhere but in a cleanup is calm. -/
theorem calmFrom_suspended {task : Task} (h : task.primary? = none) :
    CalmFrom (pure (.suspended task)) s := by
  refine calmFrom_pure ?_
  rintro _ ⟨⟩ primary hprimary
  rw [h] at hprimary
  cases hprimary

theorem calmFrom_returned {value : Returned} : CalmFrom (pure (.returned value)) s :=
  calmFrom_pure (by rintro _ ⟨⟩)

theorem calmFrom_admitting {admitted : WorldStore → Except Exc AdapterFrame}
    (h : Imp.RaisesOnly Exc.Calm (admitted s))
    (hframe : ∀ frame, admitted s = .ok frame → (Task.atAdapter frame).primary? = none) :
    CalmFrom (admitting admitted) s :=
  calmFrom_get_bind (calmFrom_lift_bind h fun frame hok => calmFrom_suspended (hframe frame hok))

/-- A commit of a node the operation has just read. -/
theorem raises_commit (hstore : s.WellFormed) {node copy : WorldNode}
    (hget : s.nodes.get? node.worldId = some node) (hlive : node.destroyed = false)
    (hid : copy.worldId = node.worldId) (hrevision : copy.revision = node.revision)
    (hidentity : sameIdentity node copy) (henvironment : copy.environment = node.environment) :
    Imp.RaisesOnlyFrom Exc.Calm (commit node copy) s := by
  rcases commit_cases hstore hget hlive hid hrevision hidentity henvironment with
    ⟨e, hvalid, hrun⟩ | ⟨existing, node', -, hrun⟩
  · intro e' s' hrun'
    rw [hrun] at hrun'
    cases hrun'
    exact raises_modelValidate copy e hvalid
  · exact Imp.raisesOnlyFrom_of_eq_ok hrun

section Stretches

variable {capabilities : Nat → Answer}

theorem calmFrom_start {call : Call} {uuid : String} {stretch : StoreM Progress}
    (h : call.start s uuid = .ok stretch) : CalmFrom stretch s := by
  have hreserving : ∀ (worldId : NonEmpty) (next : WorldReservation → Task),
      (∀ r, (next r).primary? = none) → CalmFrom (reserving worldId next) s := fun worldId next hnext =>
    calmFrom_bind (raises_reserveWorld worldId) fun r _ _ => calmFrom_suspended (hnext r)
  cases call with
  | prepare target worldId =>
      obtain ⟨w, -, hret⟩ := Imp.except_bind_eq_ok.mp h
      cases hret
      exact hreserving _ _ fun _ => rfl
  | createGhost parentWorldId lineageTransition worldId =>
      obtain ⟨p, -, h⟩ := Imp.except_bind_eq_ok.mp h
      obtain ⟨w, -, h⟩ := Imp.except_bind_eq_ok.mp h
      obtain ⟨_, -, hret⟩ := Imp.except_bind_eq_ok.mp h
      cases hret
      exact hreserving _ _ fun _ => rfl
  | fork parentWorldId lineageTransition worldId =>
      obtain ⟨p, -, h⟩ := Imp.except_bind_eq_ok.mp h
      obtain ⟨w, -, h⟩ := Imp.except_bind_eq_ok.mp h
      obtain ⟨_, -, hret⟩ := Imp.except_bind_eq_ok.mp h
      cases hret
      exact hreserving _ _ fun _ => rfl
  | snapshot worldId =>
      obtain ⟨w, -, h⟩ := Imp.except_bind_eq_ok.mp h
      obtain ⟨_, -, hret⟩ := Imp.except_bind_eq_ok.mp h
      cases hret
      exact calmFrom_suspended rfl
  | restore worldId manifest =>
      obtain ⟨w, -, h⟩ := Imp.except_bind_eq_ok.mp h
      obtain ⟨_, -, h⟩ := Imp.except_bind_eq_ok.mp h
      obtain ⟨_, -, hret⟩ := Imp.except_bind_eq_ok.mp h
      cases hret
      exact calmFrom_suspended rfl
  | destroy worldId =>
      obtain ⟨w, -, h⟩ := Imp.except_bind_eq_ok.mp h
      obtain ⟨_, -, hret⟩ := Imp.except_bind_eq_ok.mp h
      cases hret
      exact calmFrom_suspended rfl
  | transition worldId destination =>
      obtain ⟨w, -, h⟩ := Imp.except_bind_eq_ok.mp h
      obtain ⟨_, -, hret⟩ := Imp.except_bind_eq_ok.mp h
      cases hret
      exact calmFrom_suspended rfl

/-- What a call raises before it has bound the loop. -/
theorem raises_start (call : Call) (uuid : String) :
    Imp.RaisesOnly Exc.Calm (call.start s uuid) := by
  have hread : ∀ (worldId : String) (next : NonEmpty → Except Exc (StoreM Progress)),
      (∀ w, Imp.RaisesOnly Exc.Calm (next w)) → Imp.RaisesOnly Exc.Calm (do
        let w ← validatedWorldId worldId
        let _ ← s.get w
        next w) := fun worldId next hnext =>
    Imp.raisesOnly_bind (raises_validatedWorldId worldId) fun w _ =>
      Imp.raisesOnly_bind (raises_get w) fun _ _ => hnext w
  have hmake : ∀ (parentWorldId worldId : String)
      (next : NonEmpty → NonEmpty → Except Exc (StoreM Progress)),
      (∀ p w, Imp.RaisesOnly Exc.Calm (next p w)) → Imp.RaisesOnly Exc.Calm (do
        let p ← validatedWorldId parentWorldId
        let w ← validatedWorldId worldId
        let _ ← s.get p
        next p w) := fun parentWorldId worldId next hnext =>
    Imp.raisesOnly_bind (raises_validatedWorldId parentWorldId) fun p _ =>
      Imp.raisesOnly_bind (raises_validatedWorldId worldId) fun w _ =>
        Imp.raisesOnly_bind (raises_get p) fun _ _ => hnext p w
  cases call with
  | prepare target worldId =>
      exact Imp.raisesOnly_bind (raises_validatedWorldId _) fun _ _ => Imp.raisesOnly_ok
  | createGhost parentWorldId lineageTransition worldId =>
      exact hmake _ _ _ fun _ _ => Imp.raisesOnly_ok
  | fork parentWorldId lineageTransition worldId => exact hmake _ _ _ fun _ _ => Imp.raisesOnly_ok
  | snapshot worldId => exact hread _ _ fun _ => Imp.raisesOnly_ok
  | restore worldId manifest =>
      exact hread _ _ fun _ =>
        Imp.raisesOnly_bind (raises_asSnapshot manifest) fun _ _ => Imp.raisesOnly_ok
  | destroy worldId => exact hread _ _ fun _ => Imp.raisesOnly_ok
  | transition worldId destination => exact hread _ _ fun _ => Imp.raisesOnly_ok

theorem raises_forkAdmitted {reservation : WorldReservation} {parentWorldId : NonEmpty}
    {lineageTransition : String} (hcaps : ∀ n, (capabilities n).Calm) :
    Imp.RaisesOnly Exc.Calm
      (forkAdmitted own reservation s parentWorldId lineageTransition capabilities) := by
  refine Imp.raisesOnly_bind (raises_get _) fun parent _ => ?_
  split
  · exact Imp.raisesOnly_error nofun
  · refine Imp.raisesOnly_bind (Imp.raisesOnly_require nofun) fun _ _ => ?_
    exact Imp.raisesOnly_bind (raises_checkPin (hcaps 0)) fun _ _ => Imp.raisesOnly_ok

theorem raises_snapshotAdmitted {worldId : NonEmpty} (hcaps : ∀ n, (capabilities n).Calm) :
    Imp.RaisesOnly Exc.Calm (snapshotAdmitted own s worldId capabilities) := by
  refine Imp.raisesOnly_bind (raises_get _) fun node _ => ?_
  split
  · exact Imp.raisesOnly_error nofun
  · exact Imp.raisesOnly_bind (raises_checkPin (hcaps 0)) fun _ _ => Imp.raisesOnly_ok

theorem raises_restoreAdmitted {worldId : NonEmpty} {manifest : SnapshotManifest}
    (hcaps : ∀ n, (capabilities n).Calm) :
    Imp.RaisesOnly Exc.Calm (restoreAdmitted own s worldId manifest capabilities) := by
  refine Imp.raisesOnly_bind (raises_get _) fun node _ => ?_
  split
  · exact Imp.raisesOnly_error nofun
  · refine Imp.raisesOnly_bind (Imp.raisesOnly_require nofun) fun _ _ => ?_
    refine Imp.raisesOnly_bind (raises_checkPin (hcaps 0)) fun _ _ => ?_
    exact Imp.raisesOnly_bind (raises_validateSnapshot (hcaps 1)) fun _ _ => Imp.raisesOnly_ok

theorem calmFrom_createGhostEntered (hstore : s.WellFormed) {reservation : WorldReservation}
    {parentWorldId : NonEmpty} {lineageTransition : String} (hcaps : ∀ n, (capabilities n).Calm) :
    CalmFrom (createGhostEntered own reservation parentWorldId lineageTransition capabilities) s := by
  refine calmFrom_releasing (calmFrom_get_bind ?_)
  refine calmFrom_lift_bind (raises_get _) fun parent _ => ?_
  refine calmFrom_lift_bind (raises_checkPin (hcaps 0)) fun _ _ => ?_
  refine calmFrom_lift_bind (raises_childLineage _ _) fun lineage _ => ?_
  refine calmFrom_lift_bind (raises_modelValidate _) fun node _ => ?_
  exact calmFrom_bind (raises_add hstore.coherent node reservation) fun _ _ _ => calmFrom_returned

theorem calmFrom_destroyEntered (hstore : s.WellFormed) {worldId : NonEmpty}
    (hcaps : ∀ n, (capabilities n).Calm) :
    CalmFrom (destroyEntered own worldId capabilities) s := by
  refine calmFrom_get_bind (calmFrom_lift_bind (raises_get _) fun node hget => ?_)
  split
  · exact calmFrom_returned
  · next hdestroyed =>
      split
      · refine calmFrom_bind ?_ fun _ _ _ => calmFrom_returned
        exact raises_commit hstore (get_worldId hstore hget) (Bool.eq_false_iff.mpr hdestroyed) rfl rfl
          (sameIdentity.refl node) rfl
      · exact calmFrom_lift_bind (raises_checkPin (hcaps 0)) fun _ _ => calmFrom_suspended rfl

theorem calmFrom_transitionEntered (hstore : s.WellFormed) {worldId : NonEmpty}
    {destination : WorldPhase} : CalmFrom (transitionEntered worldId destination) s := by
  refine calmFrom_get_bind (calmFrom_lift_bind (raises_get _) fun node hget => ?_)
  refine calmFrom_lift_bind (Imp.raisesOnly_require nofun) fun _ hlive => ?_
  refine calmFrom_lift_bind (Imp.raisesOnly_require nofun) fun _ _ => ?_
  refine calmFrom_bind ?_ fun _ _ _ => calmFrom_returned
  exact raises_commit hstore (get_worldId hstore hget) (Imp.require_eq_ok.mp hlive) rfl rfl
    (sameIdentity.refl node) rfl

/-- Entering a gate. -/
theorem calmFrom_enter (hstore : s.WellFormed) (frame : GateFrame)
    (hcaps : ∀ n, (capabilities n).Calm) : CalmFrom (frame.enter own capabilities) s := by
  cases frame with
  | createGhost reservation parentWorldId lineageTransition =>
      exact calmFrom_createGhostEntered hstore hcaps
  | fork reservation parentWorldId lineageTransition =>
      refine calmFrom_releasing (calmFrom_admitting (raises_forkAdmitted hcaps) fun frame hok => ?_)
      obtain ⟨parent, -, hok⟩ := Imp.except_bind_eq_ok.mp hok
      split at hok
      · cases hok
      · obtain ⟨-, hok⟩ := Imp.check_bind_eq_ok.mp hok
        obtain ⟨-, hok⟩ := Imp.check_bind_eq_ok.mp hok
        cases hok
        rfl
  | snapshot worldId =>
      refine calmFrom_admitting (raises_snapshotAdmitted hcaps) fun frame hok => ?_
      obtain ⟨node, -, hok⟩ := Imp.except_bind_eq_ok.mp hok
      split at hok
      · cases hok
      · obtain ⟨-, hok⟩ := Imp.check_bind_eq_ok.mp hok
        cases hok
        rfl
  | restore worldId manifest =>
      refine calmFrom_admitting (raises_restoreAdmitted hcaps) fun frame hok => ?_
      obtain ⟨node, -, hok⟩ := Imp.except_bind_eq_ok.mp hok
      split at hok
      · cases hok
      · obtain ⟨-, hok⟩ := Imp.check_bind_eq_ok.mp hok
        obtain ⟨-, hok⟩ := Imp.check_bind_eq_ok.mp hok
        obtain ⟨-, hok⟩ := Imp.check_bind_eq_ok.mp hok
        cases hok
        rfl
  | destroy worldId => exact calmFrom_destroyEntered hstore hcaps
  | transition worldId destination => exact calmFrom_transitionEntered hstore

/-- Being cancelled at a gate. -/
theorem calmFrom_cancelled (frame : GateFrame) : CalmFrom frame.cancelled s := by
  have hraise : CalmFrom (throw .cancelledError) s := calmFrom_throw nofun
  cases frame with
  | createGhost reservation parentWorldId lineageTransition => exact calmFrom_releasing hraise
  | fork reservation parentWorldId lineageTransition => exact calmFrom_releasing hraise
  | snapshot worldId => exact hraise
  | restore worldId manifest => exact hraise
  | destroy worldId => exact hraise
  | transition worldId destination => exact hraise

variable {answer : Answer}

theorem calmFrom_claimAnswered {reservation : WorldReservation}
    {next : EnvironmentHandle → AdapterFrame} (hanswer : answer.Calm)
    (hcaps : ∀ n, (capabilities n).Calm)
    (hnext : ∀ environment, (Task.atAdapter (next environment)).primary? = none) :
    CalmFrom (claimAnswered own reservation answer capabilities next) s := by
  refine calmFrom_bind (raises_releasing ?_) fun environment s' _ => ?_
  · refine Imp.raisesOnlyFrom_lift_bind (raises_bounded hanswer) fun _ _ => ?_
    refine Imp.raisesOnlyFrom_lift_bind (raises_asHandle _) fun environment _ => ?_
    refine Imp.raisesOnlyFrom_lift_bind (raises_checkPin (hcaps 0)) fun _ _ => ?_
    exact Imp.raisesOnlyFrom_bind (raises_claimEnvironment reservation environment) fun _ _ _ =>
      Imp.raisesOnlyFrom_of_eq_ok rfl
  · refine calmFrom_cleaning (calmFrom_get_bind ?_)
    exact calmFrom_lift_bind (raises_validateReservedNamespace reservation) fun _ _ =>
      calmFrom_suspended (hnext environment)

theorem calmFrom_publishAnswered (hstore : s.WellFormed) {reservation : WorldReservation}
    {environment : EnvironmentHandle} {target : TargetSpec} {rootSnapshotId : Option NonEmpty}
    {worldNode : SnapshotManifest → Except Exc WorldNode} (hanswer : answer.Calm)
    (hcaps : ∀ n, (capabilities n).Calm)
    (hnode : ∀ snapshot, Imp.RaisesOnly Exc.Calm (worldNode snapshot)) :
    CalmFrom (publishAnswered own reservation environment target rootSnapshotId worldNode answer
      capabilities) s := by
  refine calmFrom_cleaning ?_
  refine calmFrom_lift_bind (raises_bounded hanswer) fun _ _ => ?_
  refine calmFrom_lift_bind (raises_asSnapshot _) fun snapshot _ => ?_
  refine calmFrom_lift_bind (raises_validateSnapshot (hcaps 0)) fun _ _ => ?_
  refine calmFrom_lift_bind (hnode snapshot) fun node _ => ?_
  exact calmFrom_bind (raises_add hstore.coherent node reservation) fun _ _ _ => calmFrom_returned

/-- Going on to clean up after an error that is not a `RevisionConflict`. -/
theorem calmFrom_cleanup {node : WorldNode} {environment : EnvironmentHandle} {primary : Exc}
    (h : primary.Calm) :
    CalmFrom (pure (.suspended (.atAdapter (.cleanupNode node environment primary)))) s :=
  calmFrom_pure (by rintro _ ⟨⟩ _ ⟨⟩; exact h)

theorem calmFrom_cleanupReservedAnswered {reservation : WorldReservation} {primary : Exc}
    (hprimary : primary.Calm) :
    CalmFrom (cleanupReservedAnswered reservation primary answer) s := by
  unfold cleanupReservedAnswered
  split
  · exact calmFrom_throw nofun
  · exact calmFrom_bind (raises_releaseWorld reservation) fun _ _ _ => calmFrom_throw hprimary

section Working

variable {node : WorldNode} {environment : EnvironmentHandle}

theorem calmFrom_snapshotAnswered (hstore : StoreInvariant own s)
    (htask : TaskInvariant own s (.atAdapter (.snapshot node environment)))
    (hanswer : answer.Calm) (hcaps : ∀ n, (capabilities n).Calm) :
    CalmFrom (snapshotAnswered own node environment answer capabilities) s := by
  unfold snapshotAnswered
  split
  · next primary hchecked =>
      exact calmFrom_cleanup (raises_snapshotChecked hanswer hcaps primary hchecked)
  · next snapshot hchecked =>
      obtain ⟨-, hfits⟩ := snapshotChecked_eq_ok hchecked
      obtain ⟨-, node', -, hrun⟩ := commit_withSnapshot hstore htask rfl rfl hfits
      exact calmFrom_bind (Imp.raisesOnlyFrom_of_eq_ok hrun) fun _ _ _ => calmFrom_returned

theorem calmFrom_restoreAnswered {manifest : SnapshotManifest} (hanswer : answer.Calm) :
    CalmFrom (restoreAnswered node environment manifest answer) s := by
  unfold restoreAnswered
  split
  · next primary hchecked =>
      refine calmFrom_cleanup (Imp.raisesOnly_bind (raises_bounded hanswer) ?_ primary hchecked)
      exact fun _ _ => raises_requireNone _
  · exact calmFrom_suspended rfl

theorem calmFrom_restoredSnapshotAnswered (hstore : StoreInvariant own s)
    {manifest : SnapshotManifest}
    (htask : TaskInvariant own s (.atAdapter (.restoredSnapshot node environment manifest)))
    (hanswer : answer.Calm) (hcaps : ∀ n, (capabilities n).Calm) :
    CalmFrom (restoredSnapshotAnswered own node environment manifest answer capabilities) s := by
  unfold restoredSnapshotAnswered
  split
  · next primary hchecked =>
      refine calmFrom_cleanup
        (Imp.raisesOnly_bind (raises_snapshotChecked hanswer hcaps) ?_ primary hchecked)
      exact fun _ _ => Imp.raisesOnly_bind (Imp.raisesOnly_require nofun) fun _ _ =>
        Imp.raisesOnly_ok
  · next restored hchecked =>
      obtain ⟨_, hsnapshot, hrest⟩ := Imp.except_bind_eq_ok.mp hchecked
      obtain ⟨-, hret⟩ := Imp.check_bind_eq_ok.mp hrest
      cases hret
      obtain ⟨-, hfits⟩ := snapshotChecked_eq_ok hsnapshot
      obtain ⟨-, node', -, hrun⟩ := commit_withSnapshot hstore htask rfl rfl hfits
      exact calmFrom_bind (Imp.raisesOnlyFrom_of_eq_ok hrun) fun _ _ _ => calmFrom_returned

theorem calmFrom_cleanupNodeAnswered (hstore : s.WellFormed) {primary : Exc}
    (htask : TaskInvariant own s (.atAdapter (.cleanupNode node environment primary)))
    (hprimary : primary.Calm) : CalmFrom (cleanupNodeAnswered node primary answer) s := by
  obtain ⟨-, hcoherent, -⟩ := htask.read node rfl
  unfold cleanupNodeAnswered
  split
  · obtain ⟨-, node', -, hrun⟩ := commit_working hstore htask rfl node.blocked
      rfl rfl (sameIdentity.refl node) (Or.inl rfl) (coherent_blocked hcoherent)
    exact calmFrom_bind (Imp.raisesOnlyFrom_of_eq_ok hrun) fun _ _ _ => calmFrom_throw nofun
  · obtain ⟨-, node', -, hrun⟩ := commit_working hstore htask rfl node.gone
      rfl rfl (sameIdentity.refl node) (Or.inr ⟨rfl, rfl⟩) (coherent_gone hcoherent)
    exact calmFrom_bind (Imp.raisesOnlyFrom_of_eq_ok hrun) fun _ _ _ => calmFrom_throw hprimary

theorem calmFrom_destroyAnswered (hstore : s.WellFormed)
    (htask : TaskInvariant own s (.atAdapter (.destroy node environment)))
    (hanswer : answer.Calm) : CalmFrom (destroyAnswered node answer) s := by
  obtain ⟨-, hcoherent, -⟩ := htask.read node rfl
  refine calmFrom_lift_bind (raises_bounded hanswer) fun _ _ => ?_
  obtain ⟨-, node', -, hrun⟩ := commit_working hstore htask rfl node.gone
    rfl rfl (sameIdentity.refl node) (Or.inr ⟨rfl, rfl⟩) (coherent_gone hcoherent)
  exact calmFrom_bind (Imp.raisesOnlyFrom_of_eq_ok hrun) fun _ _ _ => calmFrom_returned

end Working

/-- Getting an answer of the adapter. -/
theorem calmFrom_answered (hstore : StoreInvariant own s) {frame : AdapterFrame}
    (htask : TaskInvariant own s (.atAdapter frame)) (hcalm : (Task.atAdapter frame).Calm)
    (hanswer : answer.Calm) (hcaps : ∀ n, (capabilities n).Calm) :
    CalmFrom (frame.answered own answer capabilities) s := by
  cases frame with
  | prepareEnvironment reservation target =>
      exact calmFrom_claimAnswered hanswer hcaps fun _ => rfl
  | prepareSnapshot reservation target environment =>
      exact calmFrom_publishAnswered hstore.wellFormed hanswer hcaps fun _ => raises_modelValidate _
  | forkEnvironment reservation parent manifest lineageTransition =>
      exact calmFrom_claimAnswered hanswer hcaps fun _ => rfl
  | forkSnapshot reservation parent lineageTransition environment =>
      refine calmFrom_publishAnswered hstore.wellFormed hanswer hcaps fun _ => ?_
      exact Imp.raisesOnly_bind (raises_childLineage _ _) fun _ _ => raises_modelValidate _
  | cleanupReserved reservation environment primary =>
      exact calmFrom_cleanupReservedAnswered (hcalm primary rfl)
  | snapshot node environment => exact calmFrom_snapshotAnswered hstore htask hanswer hcaps
  | restore node environment manifest => exact calmFrom_restoreAnswered hanswer
  | restoredSnapshot node environment manifest =>
      exact calmFrom_restoredSnapshotAnswered hstore htask hanswer hcaps
  | cleanupNode node environment primary =>
      exact calmFrom_cleanupNodeAnswered hstore.wellFormed htask (hcalm primary rfl)
  | destroy node environment => exact calmFrom_destroyAnswered hstore.wellFormed htask hanswer

end Stretches

/-! ## Runs -/

/-- An operation neither raises a `RevisionConflict` nor is about to. -/
def Outcome.Calm (outcome : Outcome) : Prop :=
  (∀ e, outcome = .raised e → e.Calm) ∧ ∀ task, outcome = .suspended task → task.Calm

theorem CalmFrom.ending {stretch : StoreM Progress} (h : CalmFrom stretch s) :
    (ending (stretch s)).1.Calm := by
  cases hrun : stretch s with
  | ok p s' =>
      cases p with
      | suspended task =>
          refine ⟨by rintro _ ⟨⟩, ?_⟩
          rintro _ ⟨⟩
          exact h.suspends task s' hrun
      | returned value => exact ⟨by rintro _ ⟨⟩, by rintro _ ⟨⟩⟩
  | error e s' =>
      refine ⟨?_, by rintro _ ⟨⟩⟩
      rintro _ ⟨⟩
      exact h.raises e s' hrun

/-- The adapter does not raise a `RevisionConflict` at the operation the input is for. -/
def Input.Calm : Input → Prop
  | .call _ _ _ _ | .cancel _ => True
  | .enter _ capabilities => ∀ n, (capabilities n).Calm
  | .answer _ reply capabilities => reply.Calm ∧ ∀ n, (capabilities n).Calm

namespace Manager

variable {m m' : Manager}

/-- A step of a calm operation leaves it calm. -/
theorem calm_step (hinv : m.Invariant) {i : Input}
    (hcalm : ∀ task, m.tasks.get? i.id = some task → task.Calm) (hi : i.Calm)
    (h : m.step i = some (outcome, m')) : outcome.Calm := by
  have hraised : ∀ e : Exc, e.Calm → (Outcome.raised e).Calm := fun e he =>
    ⟨by rintro _ ⟨⟩; exact he, by rintro _ ⟨⟩⟩
  cases i with
  | call id loop uuid call =>
      rw [step] at h
      split at h
      · cases h
      · rw [Option.some.injEq, start] at h
        cases hstart : call.start m.store uuid with
        | error e =>
            rw [hstart] at h
            cases h
            exact hraised e (raises_start call uuid e hstart)
        | ok stretch =>
            have hends := (calmFrom_start hstart).ending
            rw [hstart, bindRunningLoop] at h
            cases hloop : m.eventLoop with
            | none =>
                rw [hloop] at h
                cases h
                exact hends
            | some bound =>
                rw [hloop] at h
                by_cases heq : bound = loop
                · simp only [heq, if_true] at h
                  cases h
                  exact hends
                · simp only [heq, if_false] at h
                  cases h
                  exact hraised _ fun _ h => by cases h
  | enter id capabilities =>
      simp only [step] at h
      split at h
      · next frame hget =>
          split at h
          · cases h
            exact (calmFrom_enter hinv.store.wellFormed frame hi).ending
          · cases h
      · cases h
  | cancel id =>
      simp only [step] at h
      split at h
      · next frame hget =>
          cases h
          exact (calmFrom_cancelled frame).ending
      · cases h
  | answer id answer capabilities =>
      simp only [step] at h
      split at h
      · next frame hget =>
          cases h
          exact (calmFrom_answered hinv.store (hinv.task id _ hget) (hcalm _ hget) hi.1 hi.2).ending
      · cases h

/-- The adapter does not raise a `RevisionConflict` at the operation. -/
def ConflictFree (id : Nat) (_ : Manager) (i : Input) : Prop := i.id = id → i.Calm

/-- An operation at which the adapter has raised no `RevisionConflict` is calm. -/
theorem calm_of_conflictFree {id : Nat} {capabilities : Answer}
    (hcreate : create capabilities = .ok m) (hrun : machine.Reaches (ConflictFree id) m m') :
    m'.Invariant ∧ ∀ task, m'.tasks.get? id = some task → task.Calm := by
  refine hrun.invariant (P := fun m => m.Invariant ∧
    ∀ task, m.tasks.get? id = some task → task.Calm) ⟨invariant_create hcreate, ?_⟩ ?_
  · obtain ⟨own, -, hret⟩ := Imp.except_bind_eq_ok.mp hcreate
    cases hret
    intro _ hget
    cases hget
  · rintro m i outcome m' ⟨hinv, hcalm⟩ hok hstep
    refine ⟨hinv.step hstep, fun task hget => ?_⟩
    obtain ⟨cue, -, loop, s', rfl, -⟩ := step_eq_some hinv hstep
    rcases get?_after.mp hget with ⟨rfl, htask⟩ | ⟨-, hbefore⟩
    · refine (calm_step hinv hcalm (hok rfl) hstep).2 task ?_
      cases outcome <;> cases htask
      rfl
    · exact hcalm task hbefore

/-- Every commit is a change of the latest stored node, made by the operation that holds the gate of
its world. -/
structure CommitsLatest (m : Manager) : Prop where
  /-- What an operation has read is what is stored. -/
  read : ∀ id frame node, m.tasks.get? id = some (.atAdapter frame) → frame.node? = some node →
    m.store.bareNode node.worldId = some node.bare
  /-- No other operation changes it in the meantime. -/
  undisturbed : ∀ id frame node i outcome m', m.tasks.get? id = some (.atAdapter frame) →
    frame.node? = some node → m.step i = some (outcome, m') → i.id ≠ id →
    m'.store.bareNode node.worldId = some node.bare
  commits : ∀ i outcome m' worldId n n', m.step i = some (outcome, m') →
    m.store.bareNode worldId = some n → m'.store.bareNode worldId = some n' → n' = n ∨
      ∃ cue changed, m.Cues i cue ∧ cue.gate? = some worldId ∧ Update n cue changed ∧
        n' = { changed with revision := n.revision + 1 }

theorem Invariant.commitsLatest (hinv : m.Invariant) : m.CommitsLatest := by
  have hread : ∀ {m : Manager}, m.Invariant → ∀ id frame node,
      m.tasks.get? id = some (.atAdapter frame) → frame.node? = some node →
      m.store.bareNode node.worldId = some node.bare := fun hinv id frame node hget hnode =>
    ((hinv.task id _ hget).read node hnode).1
  refine ⟨hread hinv, ?_, ?_⟩
  · intro id frame node i outcome m' hget hnode hstep hne
    refine hread (hinv.step hstep) id frame node ?_ hnode
    obtain ⟨cue, -, loop, s', rfl, -⟩ := step_eq_some hinv hstep
    exact get?_after.mpr (Or.inr ⟨hne.symm, hget⟩)
  · intro i outcome m' worldId n n' hstep hnode hnode'
    obtain ⟨cue, hcues, loop, s', rfl, hstretch⟩ := step_eq_some hinv hstep
    rw [store_after] at hnode'
    rcases hstretch.update hinv.store (hinv.cueInvariant hcues) hnode hnode' with
      heq | ⟨hgate, changed, hupdate, heq⟩
    · exact Or.inl heq
    · exact Or.inr ⟨cue, changed, hcues, hgate, hupdate, heq⟩

/-- In every run every commit is computed from the latest stored node, and an operation fails with a
`RevisionConflict` only if the adapter has raised one at it. -/
theorem commitsLatest_of_create {capabilities : Answer} (hcreate : create capabilities = .ok m) :
    (∀ m', machine.Reaches Machine.anyStep m m' → m'.CommitsLatest) ∧
      ∀ id m' i outcome m'', machine.Reaches (ConflictFree id) m m' → ConflictFree id m' i →
        i.id = id → m'.step i = some (outcome, m'') →
        ∀ message, outcome ≠ .raised (.revisionConflict message) := by
  refine ⟨fun m' hrun => ((invariant_create hcreate).reaches hrun).commitsLatest, ?_⟩
  rintro _ m' i outcome m'' hrun hok rfl hstep message rfl
  obtain ⟨hinv, hcalm⟩ := calm_of_conflictFree hcreate hrun
  exact (calm_step hinv hcalm (hok rfl) hstep).1 _ rfl message rfl

end Manager

end StateWeaver.Worlds

namespace StateWeaver.Worlds.Demo

attribute [local instance] sha256

/-- A root world whose `destroy` waits for the adapter. -/
def destroying : List Input :=
  [.call 0 0 "" (.prepare target (some "A")),
    .answer 0 (.returned (.handle environmentA)) capabilitiesAnswer,
    .answer 0 (.returned (.snapshot (snapshotOf environmentA))) capabilitiesAnswer,
    .call 1 0 "" (.destroy "A"), .enter 1 capabilitiesAnswer]

theorem commitsLatest_destroying :
    (after destroying).tasks.values.length = 1 ∧ (after destroying).CommitsLatest :=
  ⟨by decide +kernel, (Manager.commitsLatest_of_create create_manager).1 _
    (reaches_after (by decide +kernel))⟩

/-- An adapter that raises a `RevisionConflict` makes the operation fail with it. -/
theorem not_conflictFree :
    ¬ ∀ (_ : Sha256) (m : Manager) (i : Input) (outcome : Outcome) (m' : Manager), m.Reachable →
      m.step i = some (outcome, m') → ∀ message, outcome ≠ .raised (.revisionConflict message) := by
  intro h
  have hraised : ((after destroying).step
      (.answer 1 (.raised (.revisionConflict "stale")) capabilitiesAnswer)).map Prod.fst =
        some (.raised (.revisionConflict "stale")) := by
    decide +kernel
  obtain ⟨⟨outcome, m'⟩, hstep, rfl⟩ := Option.map_eq_some_iff.mp hraised
  exact h sha256 _ _ _ _ (reachable_after (by decide +kernel)) hstep "stale" rfl

end StateWeaver.Worlds.Demo
