import StateWeaver.Worlds.StoreSteps

/-!
# The store invariant

`StoreStep` is one successful call of a writing method of the store. `WellFormed` is what every
store reached by such calls satisfies: nodes passed their validator, the index is up to date, the
parents are in place, and no environment is assigned twice. `StoreEvolves` is what one call keeps of
every world that is already there.
-/

namespace StateWeaver.Worlds

variable [Sha256]

/-- One successful call of a method that writes. -/
inductive StoreStep : WorldStore → WorldStore → Prop
  | reserve {s s' : WorldStore} {worldId : NonEmpty} {reservation : WorldReservation}
      (h : WorldStore.reserveWorld worldId s = .ok reservation s') : StoreStep s s'
  | claim {s s' : WorldStore} {reservation : WorldReservation} {environment : EnvironmentHandle}
      (h : WorldStore.claimEnvironment reservation environment s = .ok () s') : StoreStep s s'
  | release {s s' : WorldStore} {reservation : WorldReservation}
      (h : WorldStore.releaseWorld reservation s = .ok () s') : StoreStep s s'
  | publish {s s' : WorldStore} {node node' : WorldNode} {reservation : WorldReservation}
      (h : WorldStore.add node reservation s = .ok node' s') : StoreStep s s'
  | commit {s s' : WorldStore} {node node' : WorldNode} {expectedRevision : Nat}
      (h : WorldStore.replace node expectedRevision s = .ok node' s') : StoreStep s s'

namespace WorldStore

variable {s s' : WorldStore}

/-- The invariant of the store. -/
structure WellFormed (s : WorldStore) : Prop where
  coherent : s.Coherent
  /-- Pointers and index are what a rebuild would make them. -/
  indexed : s.reindexed = s
  parent : ∀ worldId node, s.bareNode worldId = some node → s.ValidParent node false
  /-- The environments of two live worlds share nothing. -/
  live_disjoint : ∀ worldId node e, s.bareNode worldId = some node →
    node.liveEnvironment = some e → ∀ e', s.HeldByLive (some worldId) e' → EnvironmentDisjoint e e'
  /-- A reservation is listed under its world, which is not published. -/
  pending_fresh : ∀ worldId pending, s.pendingWorlds.get? worldId = some pending →
    pending.reservation.worldId = worldId ∧ s.nodes.get? worldId = none
  /-- A claimed environment is identified apart from those of the live worlds. -/
  pending_live : ∀ worldId pending e, s.pendingWorlds.get? worldId = some pending →
    pending.environment = some e → ∀ e', s.HeldByLive none e' → IdentityDisjoint e e'
  /-- Two claimed environments are identified apart. -/
  pending_disjoint : ∀ worldId pending e, s.pendingWorlds.get? worldId = some pending →
    pending.environment = some e → ∀ e', s.HeldByPending (some worldId) e' → IdentityDisjoint e e'

/-! ## Evolution of a world -/

/-- What one call keeps of a stored world. -/
structure NodeEvolves (n n' : WorldNode) : Prop where
  worldId : n'.worldId = n.worldId
  identity : sameIdentity n n'
  destroyed : n.destroyed = true → n'.destroyed = true
  environment : n'.environment = n.environment ∨ n'.environment = none ∧ n'.destroyed = true
  revision : n' = n ∨ n'.revision = n.revision + 1

/-- What one call keeps of the store: all its worlds, each evolved, and new ones at revision 0. -/
structure StoreEvolves (s s' : WorldStore) : Prop where
  kept : ∀ worldId n, s.bareNode worldId = some n →
    ∃ n', s'.bareNode worldId = some n' ∧ NodeEvolves n n'
  new : ∀ worldId n', s.bareNode worldId = none → s'.bareNode worldId = some n' → n'.revision = 0

theorem sameIdentity.refl (n : WorldNode) : sameIdentity n n := ⟨rfl, rfl, rfl, rfl, rfl, rfl⟩

theorem NodeEvolves.refl (n : WorldNode) : NodeEvolves n n :=
  ⟨rfl, sameIdentity.refl n, id, Or.inl rfl, Or.inl rfl⟩

/-- A call that does not write nodes keeps every world as it is. -/
theorem StoreEvolves.of_nodes_eq (h : s'.nodes = s.nodes) : StoreEvolves s s' := by
  have hbare : ∀ worldId, s'.bareNode worldId = s.bareNode worldId := by
    intro worldId
    rw [bareNode, h, bareNode]
  constructor
  · exact fun worldId n hn => ⟨n, (hbare worldId).trans hn, NodeEvolves.refl n⟩
  · intro worldId n' hnone hsome
    rw [hbare, hnone] at hsome
    cases hsome

/-- The parent check of a stored node survives every evolution of the store. -/
theorem ValidParent.mono (hevolves : StoreEvolves s s') {node : WorldNode}
    (h : s.ValidParent node false) : s'.ValidParent node false := by
  rw [validParent_iff] at h ⊢
  cases hp : node.parentWorldId with
  | none =>
      rw [hp] at h
      exact h
  | some parentWorldId =>
      rw [hp] at h
      obtain ⟨parent, hget, -, hroot, htarget, hadapter, hcaps, hlineage⟩ := h
      obtain ⟨parent', hget', hevolved⟩ := hevolves.kept _ _ hget
      obtain ⟨-, hroot', htarget', hadapter', hcaps', hlineage'⟩ := hevolved.identity
      exact ⟨parent', hget', nofun, hroot' ▸ hroot, htarget' ▸ htarget, hadapter' ▸ hadapter,
        hcaps' ▸ hcaps, hlineage' ▸ hlineage⟩

theorem evolves_published {node : WorldNode} {reservation : WorldReservation}
    (hcan : s.CanPublish node reservation) : StoreEvolves s (s.published node) := by
  have hnone : s.bareNode node.worldId = none := bareNode_eq_none.mpr hcan.fresh
  constructor
  · intro worldId n hn
    have hne : worldId ≠ node.worldId := by
      rintro rfl
      rw [hnone] at hn
      cases hn
    exact ⟨n, by rw [bareNode_published, if_neg hne, hn], NodeEvolves.refl n⟩
  · intro worldId n' hnew hsome
    rw [bareNode_published] at hsome
    split at hsome
    · cases hsome
      exact hcan.revision
    · rw [hnew] at hsome
      cases hsome

theorem evolves_replaced {node existing : WorldNode} {expectedRevision : Nat}
    (hcoh : s.Coherent) (hcan : s.CanReplace node expectedRevision existing) :
    StoreEvolves s (s.replaced node) := by
  have hstored : s.bareNode node.worldId = some existing.bare := bareNode_of_get? hcan.exists_get?
  constructor
  · intro worldId n hn
    by_cases hid : worldId = node.worldId
    · subst hid
      rw [hstored, Option.some.injEq] at hn
      subst hn
      refine ⟨{ node.bare with revision := node.revision + 1 },
        by rw [bareNode_replaced, if_pos rfl], ?_, hcan.identity, hcan.destroyed, ?_, ?_⟩
      · exact (hcoh.of_get? hcan.exists_get?).1.symm
      · by_cases hold : existing.environment = none
        · exact Or.inl ((hcan.attach hold).trans hold.symm)
        · by_cases hnew : node.environment = none
          · exact Or.inr ⟨hnew, hcan.detach hold hnew⟩
          · exact Or.inl (hcan.switch hold hnew).symm
      · obtain ⟨hrev, hrev'⟩ := hcan.revision
        refine Or.inr ?_
        change node.revision + 1 = existing.revision + 1
        rw [hrev, hrev']
    · exact ⟨n, by rw [bareNode_replaced, if_neg hid, hn], NodeEvolves.refl n⟩
  · intro worldId n' hnew hsome
    rw [bareNode_replaced] at hsome
    split at hsome
    · next hid =>
        subst hid
        rw [hstored] at hnew
        cases hnew
    · rw [hnew] at hsome
      cases hsome

end WorldStore

open WorldStore

/-- One call of a writing method evolves the store. -/
theorem StoreStep.evolves {s s' : WorldStore} (hcoh : s.Coherent) (h : StoreStep s s') :
    StoreEvolves s s' := by
  cases h with
  | reserve h =>
      obtain ⟨-, -, -, rfl⟩ := reserveWorld_eq_ok.mp h
      exact StoreEvolves.of_nodes_eq rfl
  | claim h =>
      obtain ⟨-, -, -, rfl⟩ := claimEnvironment_eq_ok.mp h
      exact StoreEvolves.of_nodes_eq rfl
  | release h =>
      obtain ⟨-, rfl⟩ := releaseWorld_eq_ok.mp h
      exact StoreEvolves.of_nodes_eq rfl
  | publish h =>
      obtain ⟨hcan, rfl, -⟩ := (add_eq_ok hcoh).mp h
      exact evolves_published hcan
  | commit h =>
      obtain ⟨⟨existing, hcan⟩, rfl, -⟩ := (replace_eq_ok hcoh).mp h
      exact evolves_replaced hcoh hcan


namespace WorldStore

variable {s s' : WorldStore}

/-! ## The index after a call -/

theorem reindexed_eq_self_iff :
    s.reindexed = s ↔ s.nodes.entries.map (withPointer s.nodes.entries) = s.nodes.entries ∧
      liveFingerprints s.nodes.entries = s.fingerprints := by
  constructor
  · intro h
    exact ⟨congrArg (fun s => s.nodes.entries) h, congrArg (fun s => s.fingerprints) h⟩
  · rintro ⟨hnodes, hindex⟩
    obtain ⟨nodes, fingerprints, pendingWorlds, reservationsIssued⟩ := s
    rw [reindexed, WorldStore.mk.injEq]
    exact ⟨Dict.ext hnodes, hindex, rfl, rfl⟩

/-- A call that writes neither nodes nor index keeps the index up to date. -/
theorem reindexed_eq_self_of_eq (h : s.reindexed = s) (hnodes : s'.nodes = s.nodes)
    (hindex : s'.fingerprints = s.fingerprints) : s'.reindexed = s' := by
  rw [reindexed_eq_self_iff] at h ⊢
  rwa [hnodes, hindex]

/-- Rebuilding the index twice is rebuilding it once. -/
theorem reindexed_reindexed (s : WorldStore) : s.reindexed.reindexed = s.reindexed := by
  have hearliest : ∀ key, earliestLive s.reindexed.nodes.entries key =
      earliestLive s.nodes.entries key :=
    earliestLive_map_withPointer s.nodes.entries s.nodes.entries
  rw [reindexed_eq_self_iff]
  constructor
  · change (s.nodes.entries.map (withPointer s.nodes.entries)).map _ = _
    rw [List.map_map]
    apply List.map_congr_left
    intro e _
    simp only [Function.comp_apply, withPointer, dedupPointer, hearliest]
    rfl
  · change liveFingerprints (s.nodes.entries.map (withPointer s.nodes.entries)) =
      liveFingerprints s.nodes.entries
    rw [liveFingerprints, List.foldl_map]
    rfl

theorem reindexed_published (node : WorldNode) :
    (s.published node).reindexed = s.published node :=
  reindexed_eq_self_of_eq (s := s.stored node) (reindexed_reindexed _) rfl rfl

theorem reindexed_replaced (node : WorldNode) : (s.replaced node).reindexed = s.replaced node :=
  reindexed_reindexed _

/-! ## Held environments after a call -/

theorem heldByLive_of_nodes_eq (h : s'.nodes = s.nodes) {excluding : Option NonEmpty}
    {e : EnvironmentHandle} : s'.HeldByLive excluding e ↔ s.HeldByLive excluding e := by
  rw [HeldByLive, h, HeldByLive]

/-- Publishing adds the environment of the published world. -/
theorem heldByLive_published {node : WorldNode} {excluding : Option NonEmpty}
    {e : EnvironmentHandle} (h : (s.published node).HeldByLive excluding e) :
    (some node.worldId ≠ excluding ∧ node.liveEnvironment = some e) ∨ s.HeldByLive excluding e := by
  obtain ⟨worldId, n, hn, hne, hlive⟩ := heldByLive_iff.mp h
  rw [bareNode_published] at hn
  split at hn
  · next hid =>
      cases hn
      exact Or.inl ⟨hid ▸ hne, hlive⟩
  · exact Or.inr (heldByLive_iff.mpr ⟨worldId, n, hn, hne, hlive⟩)

/-- A live environment after a commit was the same world's before. -/
theorem CanReplace.liveEnvironment {node existing : WorldNode} {expectedRevision : Nat}
    (hcan : s.CanReplace node expectedRevision existing) {e : EnvironmentHandle}
    (h : node.liveEnvironment = some e) : existing.liveEnvironment = some e := by
  rw [liveEnvironment_eq_some] at h ⊢
  obtain ⟨hlive, henv⟩ := h
  constructor
  · cases hd : existing.destroyed with
    | false => rfl
    | true =>
        rw [hcan.destroyed hd] at hlive
        cases hlive
  · by_cases hold : existing.environment = none
    · rw [hcan.attach hold] at henv
      cases henv
    · rw [hcan.switch hold (by rw [henv]; nofun), henv]

/-- A commit gives no world an environment. -/
theorem heldByLive_replaced {node existing : WorldNode} {expectedRevision : Nat}
    (hcan : s.CanReplace node expectedRevision existing) {excluding : Option NonEmpty}
    {e : EnvironmentHandle} (h : (s.replaced node).HeldByLive excluding e) :
    s.HeldByLive excluding e := by
  obtain ⟨worldId, n, hn, hne, hlive⟩ := heldByLive_iff.mp h
  rw [bareNode_replaced] at hn
  split at hn
  · next hid =>
      cases hn
      subst hid
      exact ⟨_, existing, hcan.exists_get?, hne, hcan.liveEnvironment hlive⟩
  · exact heldByLive_iff.mpr ⟨worldId, n, hn, hne, hlive⟩

/-- Writing a reservation adds at most the environment it holds. -/
theorem heldByPending_insert {worldId : NonEmpty} {pending : PendingWorld}
    (hpending : s'.pendingWorlds = s.pendingWorlds.insert worldId pending)
    {excluding : Option NonEmpty} {e : EnvironmentHandle} (h : s'.HeldByPending excluding e) :
    (some worldId ≠ excluding ∧ pending.environment = some e) ∨ s.HeldByPending excluding e := by
  obtain ⟨w, p, hget, hne, henv⟩ := h
  rw [hpending, Dict.get?_insert] at hget
  split at hget
  · next hid =>
      cases hget
      exact Or.inl ⟨hid ▸ hne, henv⟩
  · exact Or.inr ⟨w, p, hget, hne, henv⟩

/-- Dropping a reservation adds no environment. -/
theorem heldByPending_erase {worldId : NonEmpty}
    (hpending : s'.pendingWorlds = s.pendingWorlds.erase worldId)
    {excluding : Option NonEmpty} {e : EnvironmentHandle} (h : s'.HeldByPending excluding e) :
    s.HeldByPending excluding e := by
  obtain ⟨w, p, hget, hne, henv⟩ := h
  rw [hpending, Dict.get?_erase] at hget
  split at hget
  · cases hget
  · exact ⟨w, p, hget, hne, henv⟩

/-! ## The invariant -/

theorem wellFormed_empty : empty.WellFormed where
  coherent := by
    intro e he
    cases he
  indexed := rfl
  parent := by
    intro worldId node h
    cases h
  live_disjoint := by
    intro worldId node e h
    cases h
  pending_fresh := by
    intro worldId pending h
    cases h
  pending_live := by
    intro worldId pending e h
    cases h
  pending_disjoint := by
    intro worldId pending e h
    cases h

/-- A call that touches only reservations keeps what the invariant says about nodes. -/
theorem WellFormed.of_nodes_eq (h : s.WellFormed) (hnodes : s'.nodes = s.nodes)
    (hindex : s'.fingerprints = s.fingerprints)
    (hfresh : ∀ worldId pending, s'.pendingWorlds.get? worldId = some pending →
      pending.reservation.worldId = worldId ∧ s.nodes.get? worldId = none)
    (hlive : ∀ worldId pending e, s'.pendingWorlds.get? worldId = some pending →
      pending.environment = some e → ∀ e', s.HeldByLive none e' → IdentityDisjoint e e')
    (hdisjoint : ∀ worldId pending e, s'.pendingWorlds.get? worldId = some pending →
      pending.environment = some e → ∀ e', s'.HeldByPending (some worldId) e' →
        IdentityDisjoint e e') : s'.WellFormed where
  coherent := by
    rw [Coherent, hnodes]
    exact h.coherent
  indexed := reindexed_eq_self_of_eq h.indexed hnodes hindex
  parent := by
    intro worldId node hnode
    rw [bareNode, hnodes] at hnode
    exact (h.parent worldId node hnode).mono (StoreEvolves.of_nodes_eq hnodes)
  live_disjoint := by
    intro worldId node e hnode henv e' hheld
    rw [bareNode, hnodes] at hnode
    exact h.live_disjoint worldId node e hnode henv e' ((heldByLive_of_nodes_eq hnodes).mp hheld)
  pending_fresh := by
    intro worldId pending hget
    rw [hnodes]
    exact hfresh worldId pending hget
  pending_live := by
    intro worldId pending e hget henv e' hheld
    exact hlive worldId pending e hget henv e' ((heldByLive_of_nodes_eq hnodes).mp hheld)
  pending_disjoint := hdisjoint

theorem wellFormed_reserve (h : s.WellFormed) {worldId : NonEmpty}
    {reservation : WorldReservation} (hrun : reserveWorld worldId s = .ok reservation s') :
    s'.WellFormed := by
  obtain ⟨hnode, -, rfl, rfl⟩ := reserveWorld_eq_ok.mp hrun
  refine h.of_nodes_eq rfl rfl ?_ ?_ ?_
  · intro w p hget
    rw [Dict.get?_insert] at hget
    split at hget
    · next hid =>
        cases hget
        exact ⟨hid.symm, hid ▸ hnode⟩
    · exact h.pending_fresh w p hget
  · intro w p e hget henv
    rw [Dict.get?_insert] at hget
    split at hget
    · cases hget
      cases henv
    · exact h.pending_live w p e hget henv
  · intro w p e hget henv e' hheld
    rw [Dict.get?_insert] at hget
    split at hget
    · cases hget
      cases henv
    · rcases heldByPending_insert rfl hheld with ⟨-, hnew⟩ | hold
      · cases hnew
      · exact h.pending_disjoint w p e hget henv e' hold

theorem wellFormed_claim (h : s.WellFormed) {reservation : WorldReservation}
    {environment : EnvironmentHandle}
    (hrun : claimEnvironment reservation environment s = .ok () s') : s'.WellFormed := by
  obtain ⟨hget, hfreeLive, hfreePending, rfl⟩ := claimEnvironment_eq_ok.mp hrun
  refine h.of_nodes_eq rfl rfl ?_ ?_ ?_
  · intro w p hp
    rw [claimed, Dict.get?_insert] at hp
    split at hp
    · next hid =>
        cases hp
        exact ⟨hid.symm, hid ▸ (h.pending_fresh _ _ hget).2⟩
    · exact h.pending_fresh w p hp
  · intro w p e hp henv
    rw [claimed, Dict.get?_insert] at hp
    split at hp
    · cases hp
      cases henv
      exact hfreeLive
    · exact h.pending_live w p e hp henv
  · intro w p e hp henv e' hheld
    rw [claimed, Dict.get?_insert] at hp
    split at hp
    · next hid =>
        cases hp
        cases henv
        subst hid
        rcases heldByPending_insert rfl hheld with ⟨hne, -⟩ | hold
        · exact absurd rfl hne
        · exact hfreePending e' hold
    · next hid =>
        rcases heldByPending_insert rfl hheld with ⟨-, hnew⟩ | hold
        · cases hnew
          exact (hfreePending e ⟨w, p, hp, by simpa using hid, henv⟩).symm
        · exact h.pending_disjoint w p e hp henv e' hold

theorem wellFormed_release (h : s.WellFormed) {reservation : WorldReservation}
    (hrun : releaseWorld reservation s = .ok () s') : s'.WellFormed := by
  obtain ⟨-, rfl⟩ := releaseWorld_eq_ok.mp hrun
  have hold : ∀ {w p}, (s.released reservation).pendingWorlds.get? w = some p →
      s.pendingWorlds.get? w = some p := by
    intro w p hp
    rw [released, Dict.get?_erase] at hp
    split at hp
    · cases hp
    · exact hp
  refine h.of_nodes_eq rfl rfl ?_ ?_ ?_
  · exact fun w p hp => h.pending_fresh w p (hold hp)
  · exact fun w p e hp => h.pending_live w p e (hold hp)
  · intro w p e hp henv e' hheld
    exact h.pending_disjoint w p e (hold hp) henv e' (heldByPending_erase rfl hheld)

/-- Whether the parent has to be live is all that the strict check adds. -/
theorem ValidParent.lax {node : WorldNode} {requireLive : Bool}
    (h : s.ValidParent node requireLive) : s.ValidParent node false := by
  unfold ValidParent at h ⊢
  cases hp : node.parentWorldId with
  | none =>
      rw [hp] at h
      exact h
  | some parentWorldId =>
      rw [hp] at h
      obtain ⟨parent, hget, -, hrest⟩ := h
      exact ⟨parent, hget, nofun, hrest⟩

theorem wellFormed_publish (h : s.WellFormed) {node : WorldNode} {reservation : WorldReservation}
    (hcan : s.CanPublish node reservation) : (s.published node).WellFormed := by
  have hevolves := evolves_published hcan
  have hunassigned : ∀ {e}, node.liveEnvironment = some e →
      (∀ e', s.HeldByLive (some node.worldId) e' → EnvironmentDisjoint e e') ∧
        ∀ e', s.HeldByPending (some node.worldId) e' → EnvironmentDisjoint e e' := by
    intro e he
    have hcheck := hcan.unassigned
    rw [assertUniqueLiveEnvironment, he] at hcheck
    exact assertEnvironmentUnassigned_eq_ok.mp hcheck
  have hfree : ∀ {e'}, s.HeldByLive none e' → s.HeldByLive (some node.worldId) e' := by
    rintro e' ⟨w, n, hget, -, hlive⟩
    refine ⟨w, n, hget, ?_, hlive⟩
    rintro heq
    cases heq
    rw [hcan.fresh] at hget
    cases hget
  have hpending : ∀ {w p}, (s.published node).pendingWorlds.get? w = some p →
      w ≠ node.worldId ∧ s.pendingWorlds.get? w = some p := by
    intro w p hp
    rw [published, Dict.get?_erase] at hp
    split at hp
    · cases hp
    · next hne => exact ⟨hne, hp⟩
  constructor
  · exact h.coherent.stored hcan.coherent
  · exact reindexed_published node
  · intro w n hn
    rw [bareNode_published] at hn
    split at hn
    · cases hn
      exact ValidParent.mono hevolves hcan.parent.lax
    · exact (h.parent w n hn).mono hevolves
  · intro w n e hn he e' hheld
    rw [bareNode_published] at hn
    split at hn
    · next hid =>
        cases hn
        subst hid
        rcases heldByLive_published hheld with ⟨hne, -⟩ | hold
        · exact absurd rfl hne
        · exact (hunassigned he).1 e' hold
    · next hid =>
        rcases heldByLive_published hheld with ⟨-, hnew⟩ | hold
        · refine ((hunassigned hnew).1 e (heldByLive_iff.mpr ⟨w, n, hn, ?_, he⟩)).symm
          simpa using hid
        · exact h.live_disjoint w n e hn he e' hold
  · intro w p hp
    obtain ⟨hne, hold⟩ := hpending hp
    obtain ⟨hid, hfresh⟩ := h.pending_fresh w p hold
    refine ⟨hid, ?_⟩
    rw [← bareNode_eq_none, bareNode_published, if_neg hne, bareNode_eq_none]
    exact hfresh
  · intro w p e hp henv e' hheld
    obtain ⟨hne, hold⟩ := hpending hp
    rcases heldByLive_published hheld with ⟨-, hnew⟩ | hlive
    · refine ((hunassigned hnew).2 e ⟨w, p, hold, ?_, henv⟩).1.symm
      simpa using hne
    · exact h.pending_live w p e hold henv e' hlive
  · intro w p e hp henv e' hheld
    obtain ⟨-, hold⟩ := hpending hp
    exact h.pending_disjoint w p e hold henv e' (heldByPending_erase rfl hheld)

theorem wellFormed_replace (h : s.WellFormed) {node existing : WorldNode} {expectedRevision : Nat}
    (hcan : s.CanReplace node expectedRevision existing) : (s.replaced node).WellFormed := by
  have hevolves := evolves_replaced h.coherent hcan
  have hstored := bareNode_of_get? hcan.exists_get?
  constructor
  · exact h.coherent.stored (coherent_succ_revision hcan.coherent _)
  · exact reindexed_replaced node
  · intro w n hn
    rw [bareNode_replaced] at hn
    split at hn
    · cases hn
      exact ValidParent.mono hevolves hcan.parent
    · exact (h.parent w n hn).mono hevolves
  · intro w n e hn he e' hheld
    have hheld := heldByLive_replaced hcan hheld
    rw [bareNode_replaced] at hn
    split at hn
    · next hid =>
        cases hn
        subst hid
        exact h.live_disjoint _ _ e hstored (hcan.liveEnvironment he) e' hheld
    · exact h.live_disjoint w n e hn he e' hheld
  · intro w p hp
    obtain ⟨hid, hfresh⟩ := h.pending_fresh w p hp
    have hne : w ≠ node.worldId := by
      rintro rfl
      rw [hcan.exists_get?] at hfresh
      cases hfresh
    refine ⟨hid, ?_⟩
    rw [← bareNode_eq_none, bareNode_replaced, if_neg hne, bareNode_eq_none]
    exact hfresh
  · intro w p e hp henv e' hheld
    exact h.pending_live w p e hp henv e' (heldByLive_replaced hcan hheld)
  · exact h.pending_disjoint

/-- Every call of a writing method keeps the invariant. -/
theorem WellFormed.step (h : s.WellFormed) (hstep : StoreStep s s') : s'.WellFormed := by
  cases hstep with
  | reserve hrun => exact wellFormed_reserve h hrun
  | claim hrun => exact wellFormed_claim h hrun
  | release hrun => exact wellFormed_release h hrun
  | publish hrun =>
      obtain ⟨hcan, rfl, -⟩ := (add_eq_ok h.coherent).mp hrun
      exact wellFormed_publish h hcan
  | commit hrun =>
      obtain ⟨⟨existing, hcan⟩, rfl, -⟩ := (replace_eq_ok h.coherent).mp hrun
      exact wellFormed_replace h hcan

end WorldStore

end StateWeaver.Worlds
