import StateWeaver.Worlds.ManagerInvariant

/-!
# The forest of worlds

In every state the worlds form a forest: a child has its parent in the store, shares the parent's
pins, and extends the parent's lineage by one transition, so following the parents of a world for
the length of its lineage arrives at a root. From one state to the next a world keeps its identity,
never comes back to life, never gains an environment, and counts each of its replacements.
-/

namespace StateWeaver.Worlds

open WorldStore

variable [Sha256]

namespace WorldStore

variable {s : WorldStore}

/-- The world that is reached by following the parents a number of times. -/
def ancestor (s : WorldStore) : Nat → NonEmpty → Option NonEmpty
  | 0, worldId => some worldId
  | n + 1, worldId =>
      match s.nodes.get? worldId with
      | none => none
      | some node => node.parentWorldId.bind (s.ancestor n)

/-- What a child has in common with its parent. -/
structure Extends (parent child : WorldNode) : Prop where
  rootSnapshotId : child.rootSnapshotId = parent.rootSnapshotId
  target : child.target = parent.target
  adapter : child.adapter = parent.adapter
  capabilityManifest : child.capabilityManifest = parent.capabilityManifest
  lineage : ∃ transition, child.lineage = parent.lineage ++ [transition]

/-- The worlds form a forest. -/
structure Forest (s : WorldStore) : Prop where
  parent : ∀ worldId node parentWorldId, s.nodes.get? worldId = some node →
    node.parentWorldId = some parentWorldId →
    ∃ parent, s.nodes.get? parentWorldId = some parent ∧ Extends parent node
  lineage_nodup : ∀ worldId node, s.nodes.get? worldId = some node → node.lineage.Nodup
  /-- Following the parents ends at a root of the same root snapshot. -/
  rooted : ∀ worldId node, s.nodes.get? worldId = some node →
    ∃ rootId root, s.ancestor node.lineage.length worldId = some rootId ∧
      s.nodes.get? rootId = some root ∧ root.parentWorldId = none ∧ root.lineage = [] ∧
      root.rootSnapshotId = node.rootSnapshotId

/-- A stored world is a root without lineage, or extends its stored parent. -/
theorem WellFormed.parent_cases (h : s.WellFormed) {worldId : NonEmpty} {node : WorldNode}
    (hget : s.nodes.get? worldId = some node) :
    (node.parentWorldId = none ∧ node.lineage = []) ∨
      ∃ parentWorldId parent, node.parentWorldId = some parentWorldId ∧
        s.nodes.get? parentWorldId = some parent ∧ Extends parent node := by
  have hparent : s.ValidParent node false := h.parent worldId node.bare (bareNode_of_get? hget)
  unfold ValidParent at hparent
  cases hp : node.parentWorldId with
  | none =>
      rw [hp] at hparent
      exact Or.inl ⟨rfl, hparent⟩
  | some parentWorldId =>
      rw [hp] at hparent
      obtain ⟨parent, hget', -, hroot, htarget, hadapter, hcaps, hlineage⟩ := hparent
      exact Or.inr ⟨parentWorldId, parent, rfl, hget', hroot.symm, htarget.symm, hadapter.symm,
        hcaps.symm, hlineage⟩

/-- The forest of a well-formed store. -/
theorem WellFormed.forest (h : s.WellFormed) : s.Forest := by
  constructor
  · intro worldId node parentWorldId hget hparent
    rcases h.parent_cases hget with ⟨hnone, -⟩ | ⟨parentWorldId', parent, hsome, hget', hextends⟩
    · rw [hnone] at hparent
      cases hparent
    · rw [hsome] at hparent
      cases hparent
      exact ⟨parent, hget', hextends⟩
  · intro worldId node hget
    exact (h.coherent.of_get? hget).2.lineage_nodup
  · -- By induction on the length of the lineage: the parent's is one shorter.
    intro worldId node hget
    induction hlength : node.lineage.length generalizing worldId node with
    | zero =>
        have hlineage := List.eq_nil_of_length_eq_zero hlength
        rcases h.parent_cases hget with ⟨hnone, -⟩ | ⟨_, parent, -, -, hextends⟩
        · exact ⟨worldId, node, rfl, hget, hnone, hlineage, rfl⟩
        · obtain ⟨transition, htransition⟩ := hextends.lineage
          rw [hlineage] at htransition
          simp at htransition
    | succ n ih =>
        rcases h.parent_cases hget with ⟨-, hnil⟩ | ⟨parentWorldId, parent, hsome, hget', hextends⟩
        · rw [hnil] at hlength
          cases hlength
        · obtain ⟨transition, htransition⟩ := hextends.lineage
          have hshorter : parent.lineage.length = n := by
            rw [htransition, List.length_append, List.length_singleton] at hlength
            omega
          obtain ⟨rootId, root, hancestor, hroot, hnone, hnil, hsame⟩ := ih _ _ hget' hshorter
          refine ⟨rootId, root, ?_, hroot, hnone, hnil, hsame.trans hextends.rootSnapshotId.symm⟩
          rw [ancestor, hget]
          simp only [hsome, Option.bind_some, hancestor]

end WorldStore

namespace Manager

variable {m m' : Manager}

/-- One step of a manager evolves its store. -/
theorem Invariant.evolves (hinv : m.Invariant) {i : Input} {outcome : Outcome}
    (h : m.step i = some (outcome, m')) : StoreEvolves m.store m'.store := by
  obtain ⟨cue, hcues, loop, s', rfl, hstretch⟩ := step_eq_some hinv h
  have hcue := hinv.cueInvariant hcues
  rw [store_after]
  rcases (hstretch.effect hinv.store hcue).storeStep hinv.store.wellFormed hcue with rfl | hstep
  · exact StoreEvolves.of_nodes_eq rfl
  · exact hstep.evolves hinv.store.wellFormed.coherent

/-- In every state a manager can get to, the worlds form a forest, and every step keeps each world
and evolves it. -/
theorem forest_of_reachable (h : m.Reachable) :
    m.store.Forest ∧ ∀ i outcome m', m.step i = some (outcome, m') →
      StoreEvolves m.store m'.store :=
  ⟨h.invariant.store.wellFormed.forest, fun _ _ _ hstep => h.invariant.evolves hstep⟩

end Manager

end StateWeaver.Worlds

namespace StateWeaver.Worlds.Demo

attribute [local instance] sha256

/-- A root, a ghost under it, and a world forked from it. -/
def family : List Input :=
  [.call 0 0 "" (.prepare target (some "A")),
    .answer 0 (.returned (.handle environmentA)) capabilitiesAnswer,
    .answer 0 (.returned (.snapshot (snapshotOf environmentA))) capabilitiesAnswer,
    .call 1 0 "" (.createGhost "A" "t1" (some "G")), .enter 1 capabilitiesAnswer,
    .call 2 0 "" (.fork "A" "t2" (some "B")), .enter 2 capabilitiesAnswer,
    .answer 2 (.returned (.handle environmentB)) capabilitiesAnswer,
    .answer 2 (.returned (.snapshot (snapshotOf environmentB))) capabilitiesAnswer]

theorem forest_family :
    (after family).store.nodes.values.map (fun node => node.lineage.length) = [0, 1, 1] ∧
      (after family).store.Forest :=
  ⟨by decide +kernel, (Manager.forest_of_reachable (reachable_after (by decide +kernel))).1⟩

end StateWeaver.Worlds.Demo
