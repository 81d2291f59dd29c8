import StateWeaver.Worlds.Index

/-!
# What one store method can do

`_add` and `_replace` are the two methods that write nodes. Both end by rebuilding the index, which
rewrites every node, so what they do to a world is said up to its deduplication pointer: `bareNode`
is the stored node without it. `add_eq_ok` and `replace_eq_ok` give what each method needs and the
store it leaves, and `StoreStep` lists the five methods that write.
-/

namespace StateWeaver.Worlds

variable [Sha256]

/-- A node without its deduplication pointer, which every rebuild of the index may move. -/
def WorldNode.bare (n : WorldNode) : WorldNode := { n with deduplicatedTo := none }

@[simp]
theorem WorldNode.bare_bare (n : WorldNode) : n.bare.bare = n.bare := rfl

@[simp]
theorem WorldNode.liveEnvironment_bare (n : WorldNode) :
    n.bare.liveEnvironment = n.liveEnvironment := rfl

namespace WorldStore

variable {s s' : WorldStore}

/-- The node stored for a world, without its deduplication pointer. -/
def bareNode (s : WorldStore) (worldId : NonEmpty) : Option WorldNode :=
  (s.nodes.get? worldId).map WorldNode.bare

theorem bareNode_eq_some {worldId : NonEmpty} {n : WorldNode} :
    s.bareNode worldId = some n ↔ ∃ node, s.nodes.get? worldId = some node ∧ node.bare = n := by
  rw [bareNode, Option.map_eq_some_iff]

theorem bareNode_eq_none {worldId : NonEmpty} :
    s.bareNode worldId = none ↔ s.nodes.get? worldId = none := by
  rw [bareNode, Option.map_eq_none_iff]

theorem bareNode_of_get? {worldId : NonEmpty} {node : WorldNode}
    (h : s.nodes.get? worldId = some node) : s.bareNode worldId = some node.bare := by
  rw [bareNode, h, Option.map_some]

@[simp]
theorem bareNode_reindexed (worldId : NonEmpty) :
    s.reindexed.bareNode worldId = s.bareNode worldId := by
  rw [bareNode, get?_reindexed, Option.map_map]
  rfl

/-- Whether a live world holds an environment does not depend on the pointers. -/
theorem heldByLive_iff {excluding : Option NonEmpty} {e : EnvironmentHandle} :
    s.HeldByLive excluding e ↔ ∃ worldId node, s.bareNode worldId = some node ∧
      some worldId ≠ excluding ∧ node.liveEnvironment = some e := by
  constructor
  · rintro ⟨worldId, node, hget, hne, hlive⟩
    exact ⟨worldId, node.bare, bareNode_of_get? hget, hne, hlive⟩
  · rintro ⟨worldId, node, hbare, hne, hlive⟩
    obtain ⟨node', hget, rfl⟩ := bareNode_eq_some.mp hbare
    exact ⟨worldId, node', hget, hne, hlive⟩

/-- The parent check reads nothing that a rebuild of the index moves. -/
theorem validParent_iff {node : WorldNode} {requireLive : Bool} :
    s.ValidParent node requireLive ↔
      match node.parentWorldId with
      | none => node.lineage = []
      | some parentWorldId => ∃ parent, s.bareNode parentWorldId = some parent ∧
          (requireLive = true → parent.destroyed = false) ∧
          parent.rootSnapshotId = node.rootSnapshotId ∧ parent.target = node.target ∧
          parent.adapter = node.adapter ∧ parent.capabilityManifest = node.capabilityManifest ∧
          ∃ transition, node.lineage = parent.lineage ++ [transition] := by
  unfold ValidParent
  cases node.parentWorldId with
  | none => rfl
  | some parentWorldId =>
      constructor
      · rintro ⟨parent, hget, h⟩
        exact ⟨parent.bare, bareNode_of_get? hget, h⟩
      · rintro ⟨parent, hbare, h⟩
        obtain ⟨parent', hget, rfl⟩ := bareNode_eq_some.mp hbare
        exact ⟨parent', hget, h⟩

/-! ## Storing a node -/

/-- The store with a node stored under its identifier and the index rebuilt. -/
def stored (s : WorldStore) (node : WorldNode) : WorldStore :=
  { s with nodes := s.nodes.insert node.worldId node }.reindexed

@[simp]
theorem pendingWorlds_stored (node : WorldNode) :
    (s.stored node).pendingWorlds = s.pendingWorlds := rfl

@[simp]
theorem reservationsIssued_stored (node : WorldNode) :
    (s.stored node).reservationsIssued = s.reservationsIssued := rfl

theorem bareNode_stored (node : WorldNode) (worldId : NonEmpty) :
    (s.stored node).bareNode worldId =
      if worldId = node.worldId then some node.bare else s.bareNode worldId := by
  rw [stored, bareNode_reindexed, bareNode, Dict.get?_insert, bareNode]
  split <;> rfl

/-- Every stored node is listed under its own identifier and passed its validator. -/
def Coherent (s : WorldStore) : Prop := EntriesCoherent s.nodes.entries

theorem Coherent.of_get? (h : s.Coherent) {worldId : NonEmpty} {node : WorldNode}
    (hget : s.nodes.get? worldId = some node) : node.worldId = worldId ∧ node.Coherent :=
  h (worldId, node) (Dict.mem_entries.mpr hget)

/-- A bare node of a coherent store carries its identifier and is coherent itself. -/
theorem Coherent.of_bareNode (h : s.Coherent) {worldId : NonEmpty} {node : WorldNode}
    (hbare : s.bareNode worldId = some node) : node.worldId = worldId ∧ node.Coherent := by
  obtain ⟨node', hget, rfl⟩ := bareNode_eq_some.mp hbare
  obtain ⟨hid, hcoh⟩ := h.of_get? hget
  exact ⟨hid, hcoh.withDeduplicatedTo (by simp)⟩

theorem Coherent.insert (h : s.Coherent) {node : WorldNode} (hnode : node.Coherent) :
    EntriesCoherent (s.nodes.insert node.worldId node).entries := by
  rintro ⟨worldId, n⟩ hmem
  rcases Dict.mem_entries_insert.mp hmem with ⟨rfl, rfl⟩ | ⟨_, hold⟩
  · exact ⟨rfl, hnode⟩
  · exact h (worldId, n) hold

/-- A pointer never leads a world to itself. -/
theorem dedupPointer_ne_self {entries : List (NonEmpty × WorldNode)} (e : NonEmpty × WorldNode) :
    dedupPointer entries e ≠ some e.1 := by
  unfold dedupPointer
  split
  · simp
  · split
    · simp
    · assumption

theorem Coherent.stored (h : s.Coherent) {node : WorldNode} (hnode : node.Coherent) :
    (s.stored node).Coherent := by
  rintro ⟨worldId, n⟩ hmem
  obtain ⟨e, he, heq⟩ := List.mem_map.mp hmem
  obtain ⟨hid, hcoh⟩ := h.insert hnode e he
  rw [withPointer, Prod.mk.injEq] at heq
  obtain ⟨rfl, rfl⟩ := heq
  exact ⟨hid, hcoh.withDeduplicatedTo (hid ▸ dedupPointer_ne_self e)⟩

/-- The writing end that `_add` and `_replace` share: store the node and rebuild the index. -/
theorem modify_rebuildIndexes_bind (h : s.Coherent) {node : WorldNode} (hnode : node.Coherent)
    {α : Type} (f : Unit → StoreM α) :
    ((modify fun s => { s with nodes := s.nodes.insert node.worldId node }) >>= fun _ =>
      rebuildIndexes >>= f) s = f () (s.stored node) := by
  have hrun : rebuildIndexes { s with nodes := s.nodes.insert node.worldId node } =
      .ok () (s.stored node) := rebuildIndexes_eq_ok (h.insert hnode)
  rw [Imp.modify_bind]
  simp only [bind, EStateM.bind, hrun]

theorem exists_get?_stored (node : WorldNode) :
    ∃ node', (s.stored node).nodes.get? node.worldId = some node' ∧ node'.bare = node.bare := by
  rw [← bareNode_eq_some, bareNode_stored, if_pos rfl]

/-! ## `_add` -/

/-- What `_add` demands of the node and the store. -/
structure CanPublish (s : WorldStore) (node : WorldNode) (reservation : WorldReservation) :
    Prop where
  coherent : node.Coherent
  fresh : s.nodes.get? node.worldId = none
  worldId : reservation.worldId = node.worldId
  reserved : s.pendingWorlds.get? node.worldId = some ⟨reservation, node.environment⟩
  revision : node.revision = 0
  parent : s.ValidParent node true
  unassigned : s.assertUniqueLiveEnvironment node (some node.worldId) = .ok ()

/-- The store after a node has been published. -/
def published (s : WorldStore) (node : WorldNode) : WorldStore :=
  { s.stored node with pendingWorlds := s.pendingWorlds.erase node.worldId }

theorem bareNode_published (node : WorldNode) (worldId : NonEmpty) :
    (s.published node).bareNode worldId =
      if worldId = node.worldId then some node.bare else s.bareNode worldId :=
  bareNode_stored node worldId

omit [Sha256] in
/-- The two environment checks of `_add` together. -/
theorem environment_agrees_iff {a b : Option EnvironmentHandle} :
    ((a = none → b = none) ∧ (a ≠ none → b = a)) ↔ b = a := by
  cases a <;> simp

/-- `_add` returns exactly when the node can be published, and then publishes it. -/
theorem add_eq_ok (h : s.Coherent) {node node' : WorldNode} {reservation : WorldReservation} :
    add node reservation s = .ok node' s' ↔
      s.CanPublish node reservation ∧ s' = s.published node ∧
        (s.published node).nodes.get? node.worldId = some node' := by
  have htail : ∀ (hcoh : node.Coherent) (hid : reservation.worldId = node.worldId),
      (modify (fun s => { s with nodes := s.nodes.insert node.worldId node }) >>= fun _ =>
        rebuildIndexes >>= fun _ =>
        modify (fun s => { s with pendingWorlds := s.pendingWorlds.erase reservation.worldId })
          >>= fun _ => readBack node.worldId) s = .ok node' s' ↔
      s' = s.published node ∧ (s.published node).nodes.get? node.worldId = some node' := by
    intro hcoh hid
    rw [modify_rebuildIndexes_bind h hcoh, Imp.modify_bind, readBack, Imp.get_bind, Imp.lift_eq_ok,
      get_eq_ok, hid, and_comm]
    rfl
  rw [add, Imp.lift_bind_eq_ok]
  simp only [WorldNode.modelValidate_eq_ok, Imp.get_bind, Imp.lift_check_bind_eq_ok,
    Imp.require_eq_ok, Dict.contains_eq_false]
  constructor
  · rintro ⟨_, ⟨rfl, hcoh⟩, hfresh, hrun⟩
    obtain ⟨⟨r, environment⟩, hpending, hchecks⟩ := Imp.lift_bind_eq_ok.mp hrun
    obtain ⟨hreserved, rfl⟩ := pendingFor_eq_ok.mp hpending
    simp only [Imp.lift_check_bind_eq_ok, Imp.require_eq_ok, validateParent_eq_ok] at hchecks
    obtain ⟨hid, hghost, henv, hrev, hparent, hunique, hwrite⟩ := hchecks
    have heq := environment_agrees_iff.mp ⟨hghost, henv⟩
    subst heq
    rw [hid] at hreserved
    exact ⟨⟨hcoh, hfresh, hid, hreserved, hrev, hparent, hunique⟩, (htail hcoh hid).mp hwrite⟩
  · rintro ⟨hcan, hdone⟩
    refine ⟨node, ⟨rfl, hcan.coherent⟩, hcan.fresh, ?_⟩
    refine Imp.lift_bind_eq_ok.mpr ⟨⟨reservation, node.environment⟩,
      pendingFor_eq_ok.mpr ⟨hcan.worldId ▸ hcan.reserved, rfl⟩, ?_⟩
    simp only [Imp.lift_check_bind_eq_ok, Imp.require_eq_ok, validateParent_eq_ok]
    exact ⟨hcan.worldId, fun hnone => hnone, fun _ => trivial, hcan.revision, hcan.parent, hcan.unassigned,
      (htail hcan.coherent hcan.worldId).mpr hdone⟩

/-- A node that can be published is published, and reads back as itself up to its pointer. -/
theorem add_of_canPublish (h : s.Coherent) {node : WorldNode} {reservation : WorldReservation}
    (hcan : s.CanPublish node reservation) :
    ∃ node', add node reservation s = .ok node' (s.published node) ∧ node'.bare = node.bare := by
  obtain ⟨node', hget, hbare⟩ := exists_get?_stored (s := s) node
  exact ⟨node', (add_eq_ok h).mpr ⟨hcan, rfl, hget⟩, hbare⟩

/-- Once its checks have passed, `_add` returns. -/
theorem add_tail_eq_ok (h : s.Coherent) {node : WorldNode} {reservation : WorldReservation}
    (hcoherent : node.Coherent) (hid : reservation.worldId = node.worldId) :
    ∃ node', (modify (fun s => { s with nodes := s.nodes.insert node.worldId node }) >>= fun _ =>
      rebuildIndexes >>= fun _ =>
      modify (fun s => { s with pendingWorlds := s.pendingWorlds.erase reservation.worldId })
        >>= fun _ => readBack node.worldId) s = .ok node' (s.published node) := by
  obtain ⟨node', hget, -⟩ := exists_get?_stored (s := s) node
  refine ⟨node', ?_⟩
  rw [modify_rebuildIndexes_bind h hcoherent, Imp.modify_bind, readBack, Imp.get_bind,
    Imp.lift_eq_ok, get_eq_ok, hid]
  exact ⟨hget, rfl⟩

/-- A failing `_add` leaves the store as it was. -/
theorem atomic_add (h : s.Coherent) (node : WorldNode) (reservation : WorldReservation) :
    Imp.Atomic (add node reservation) s := by
  refine Imp.atomic_lift_bind fun validated hvalid => Imp.atomic_get_bind ?_
  obtain ⟨hvalidated, hcoherent⟩ := WorldNode.modelValidate_eq_ok.mp hvalid
  subst hvalidated
  refine Imp.atomic_lift_bind fun _ _ => Imp.atomic_lift_bind fun _ _ =>
    Imp.atomic_lift_bind fun _ hid => Imp.atomic_lift_bind fun _ _ =>
    Imp.atomic_lift_bind fun _ _ => Imp.atomic_lift_bind fun _ _ =>
    Imp.atomic_lift_bind fun _ _ => Imp.atomic_lift_bind fun _ _ => ?_
  obtain ⟨node', htail⟩ := add_tail_eq_ok h hcoherent (Imp.require_eq_ok.mp hid)
  exact Imp.atomic_of_eq_ok htail

/-! ## `_replace` -/

/-- What `_replace` demands of the new node and the stored one. -/
structure CanReplace (s : WorldStore) (node : WorldNode) (expectedRevision : Nat)
    (existing : WorldNode) : Prop where
  coherent : node.Coherent
  exists_get? : s.nodes.get? node.worldId = some existing
  revision : node.revision = expectedRevision ∧ existing.revision = expectedRevision
  identity : sameIdentity existing node
  destroyed : existing.destroyed = true → node.destroyed = true
  attach : existing.environment = none → node.environment = none
  detach : existing.environment ≠ none → node.environment = none → node.destroyed = true
  switch : existing.environment ≠ none → node.environment ≠ none →
    existing.environment = node.environment
  parent : s.ValidParent node false

/-- The store after a node has been replaced. -/
def replaced (s : WorldStore) (node : WorldNode) : WorldStore :=
  s.stored { node with revision := node.revision + 1 }

theorem bareNode_replaced (node : WorldNode) (worldId : NonEmpty) :
    (s.replaced node).bareNode worldId =
      if worldId = node.worldId then some { node.bare with revision := node.revision + 1 }
      else s.bareNode worldId :=
  bareNode_stored _ worldId

/-- Counting a commit keeps a node coherent. -/
theorem coherent_succ_revision {node : WorldNode} (h : node.Coherent) (revision : Nat) :
    { node with revision := revision }.Coherent :=
  ⟨h.lineage_nodup, h.environment_of_destroyed, h.parent_ne, h.deduplicatedTo_ne, h.active_live,
    h.environment_adapter, h.snapshot_source, h.snapshot_pins⟩

/-- `_replace` returns exactly when the stored node can be replaced, and then replaces it. -/
theorem replace_eq_ok (h : s.Coherent) {node node' : WorldNode} {expectedRevision : Nat} :
    replace node expectedRevision s = .ok node' s' ↔
      (∃ existing, s.CanReplace node expectedRevision existing) ∧ s' = s.replaced node ∧
        (s.replaced node).nodes.get? node.worldId = some node' := by
  have htail : ∀ (hcoh : node.Coherent) (hrev : node.revision = expectedRevision),
      (Imp.lift { node with revision := expectedRevision + 1 }.modelValidate >>= fun committed =>
        modify (fun s => { s with nodes := s.nodes.insert node.worldId committed }) >>= fun _ =>
        rebuildIndexes >>= fun _ => readBack node.worldId) s = .ok node' s' ↔
      s' = s.replaced node ∧ (s.replaced node).nodes.get? node.worldId = some node' := by
    intro hcoh hrev
    subst hrev
    have hcommitted := coherent_succ_revision hcoh (node.revision + 1)
    have hstore := modify_rebuildIndexes_bind h hcommitted fun _ => readBack node.worldId
    rw [(WorldNode.modelValidate_eq_ok).mpr ⟨rfl, hcommitted⟩]
    change _ = EStateM.Result.ok node' s' ↔ _
    rw [Imp.lift_bind_eq_ok]
    simp only [Except.ok.injEq, exists_eq_left']
    rw [hstore, readBack, Imp.get_bind, Imp.lift_eq_ok, get_eq_ok, and_comm]
    rfl
  rw [replace, Imp.lift_bind_eq_ok]
  simp only [WorldNode.modelValidate_eq_ok, Imp.get_bind]
  constructor
  · rintro ⟨_, ⟨rfl, hcoh⟩, hrun⟩
    obtain ⟨existing, hget, hchecks⟩ := Imp.lift_bind_eq_ok.mp hrun
    simp only [Imp.lift_check_bind_eq_ok, Imp.require_eq_ok, validateParent_eq_ok] at hchecks
    obtain ⟨hrev, hident, hdest, hattach, hdetach, hswitch, hparent, hwrite⟩ := hchecks
    exact ⟨⟨existing, hcoh, get_eq_ok.mp hget, hrev, hident, hdest, hattach, hdetach, hswitch,
      hparent⟩, (htail hcoh hrev.1).mp hwrite⟩
  · rintro ⟨⟨existing, hcan⟩, hdone⟩
    refine ⟨node, ⟨rfl, hcan.coherent⟩, Imp.lift_bind_eq_ok.mpr
      ⟨existing, get_eq_ok.mpr hcan.exists_get?, ?_⟩⟩
    simp only [Imp.lift_check_bind_eq_ok, Imp.require_eq_ok, validateParent_eq_ok]
    exact ⟨hcan.revision, hcan.identity, hcan.destroyed, hcan.attach, hcan.detach, hcan.switch,
      hcan.parent, (htail hcan.coherent hcan.revision.1).mpr hdone⟩

/-- A node that can replace the stored one does, and reads back as itself, one revision on. -/
theorem replace_of_canReplace (h : s.Coherent) {node existing : WorldNode} {expectedRevision : Nat}
    (hcan : s.CanReplace node expectedRevision existing) :
    ∃ node', replace node expectedRevision s = .ok node' (s.replaced node) ∧
      node'.bare = { node.bare with revision := node.revision + 1 } := by
  obtain ⟨node', hget, hbare⟩ :=
    exists_get?_stored (s := s) { node with revision := node.revision + 1 }
  exact ⟨node', (replace_eq_ok h).mpr ⟨⟨existing, hcan⟩, rfl, hget⟩, hbare⟩

end WorldStore

end StateWeaver.Worlds
