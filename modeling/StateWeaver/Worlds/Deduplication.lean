import StateWeaver.Worlds.ManagerInvariant

/-!
# Deduplication

In every state the index is what a rebuild would make of the stored worlds, so the canonical world of
a fingerprint key is the earliest inserted live one: the other live worlds of the key point to it,
it points nowhere, and `canonical_world_id` answers with it unless the fingerprint is ambiguous.
-/

namespace StateWeaver.Worlds

open WorldStore

variable [Sha256]

namespace WorldStore

variable {s : WorldStore}

/-- The earliest inserted live world of a key. -/
def canonical (s : WorldStore) (key : FingerprintKey) : Option NonEmpty :=
  earliestLive s.nodes.entries key

/-- A key of a live world that ends in a fingerprint. -/
def LiveKey (s : WorldStore) (fingerprint : String) (key : FingerprintKey) : Prop :=
  key.stateFingerprint.val = fingerprint ∧
    ∃ worldId node, s.nodes.get? worldId = some node ∧ node.destroyed = false ∧
      fingerprintKey node = key

/-- The deduplication index is exact. -/
structure Deduplicated (s : WorldStore) : Prop where
  /-- A live world points nowhere exactly when it is canonical, and otherwise to the canonical
  world. -/
  live : ∀ worldId node, s.nodes.get? worldId = some node → node.destroyed = false →
    (node.deduplicatedTo = none ↔ s.canonical (fingerprintKey node) = some worldId) ∧
      (node.deduplicatedTo ≠ none → node.deduplicatedTo = s.canonical (fingerprintKey node))
  destroyed : ∀ worldId node, s.nodes.get? worldId = some node → node.destroyed = true →
    node.deduplicatedTo = none
  /-- A pointer leads to a live world that points nowhere. -/
  pointed : ∀ worldId node target, s.nodes.get? worldId = some node →
    node.deduplicatedTo = some target → ∃ canonical, s.nodes.get? target = some canonical ∧
      canonical.destroyed = false ∧ canonical.deduplicatedTo = none ∧
      fingerprintKey canonical = fingerprintKey node
  unambiguous : ∀ fingerprint key, s.LiveKey fingerprint key →
    (∀ key', s.LiveKey fingerprint key' → key' = key) →
    s.canonicalWorldId fingerprint = s.canonical key ∧ s.canonical key ≠ none
  ambiguous : ∀ fingerprint, (¬ ∃ key, s.LiveKey fingerprint key ∧
      ∀ key', s.LiveKey fingerprint key' → key' = key) →
    s.canonicalWorldId fingerprint = none

/-! ## Pointers -/

/-- A key has a canonical world exactly when a live world carries it, and the canonical world is
one. -/
theorem canonical_eq_some {key : FingerprintKey} {worldId : NonEmpty}
    (h : s.canonical key = some worldId) :
    ∃ node, s.nodes.get? worldId = some node ∧ node.destroyed = false ∧ fingerprintKey node = key := by
  obtain ⟨node, hmem, hlive, hkey⟩ := exists_of_earliestLive h
  exact ⟨node, Dict.mem_entries.mp hmem, hlive, hkey⟩

theorem exists_canonical {worldId : NonEmpty} {node : WorldNode}
    (hget : s.nodes.get? worldId = some node) (hlive : node.destroyed = false) :
    ∃ worldId', s.canonical (fingerprintKey node) = some worldId' :=
  earliestLive_isSome (Dict.mem_entries.mpr hget) hlive

/-- Every stored node has the pointer a rebuild would give it. -/
theorem WellFormed.deduplicatedTo (h : s.WellFormed) {worldId : NonEmpty} {node : WorldNode}
    (hget : s.nodes.get? worldId = some node) :
    node.deduplicatedTo = dedupPointer s.nodes.entries (worldId, node) := by
  have hnodes := (reindexed_eq_self_iff.mp h.indexed).1
  have hmem := Dict.mem_entries.mpr hget
  have hpointed := List.mem_map_of_mem (f := withPointer s.nodes.entries) hmem
  rw [hnodes, withPointer] at hpointed
  exact congrArg WorldNode.deduplicatedTo (Dict.eq_of_mem_entries hmem hpointed)

/-! ## The index -/

/-- The index lists the canonical worlds. -/
theorem WellFormed.mem_fingerprints (h : s.WellFormed) {key : FingerprintKey}
    {worldId : NonEmpty} :
    (key, worldId) ∈ s.fingerprints.entries ↔ s.canonical key = some worldId := by
  rw [Dict.mem_entries, ← (reindexed_eq_self_iff.mp h.indexed).2, get?_liveFingerprints]
  rfl

/-- The index entries whose key ends in a fingerprint. -/
def candidates (s : WorldStore) (fingerprint : String) : List (FingerprintKey × NonEmpty) :=
  s.fingerprints.entries.filter fun e => e.1.stateFingerprint.val = fingerprint

theorem WellFormed.mem_candidates (h : s.WellFormed) {fingerprint : String} {key : FingerprintKey}
    {worldId : NonEmpty} :
    (key, worldId) ∈ s.candidates fingerprint ↔
      s.LiveKey fingerprint key ∧ s.canonical key = some worldId := by
  rw [candidates, List.mem_filter, h.mem_fingerprints, decide_eq_true_eq]
  constructor
  · rintro ⟨hcanonical, hends⟩
    obtain ⟨node, hget, hlive, hkey⟩ := canonical_eq_some hcanonical
    exact ⟨⟨hends, worldId, node, hget, hlive, hkey⟩, hcanonical⟩
  · rintro ⟨⟨hends, -⟩, hcanonical⟩
    exact ⟨hcanonical, hends⟩

/-- Different keys have different canonical worlds, so no candidate is listed twice. -/
theorem WellFormed.candidates_dedup (h : s.WellFormed) (fingerprint : String) :
    ((s.candidates fingerprint).map Prod.snd).dedup = (s.candidates fingerprint).map Prod.snd := by
  rw [List.dedup_eq_self]
  refine List.Nodup.map_on ?_ (s.fingerprints.nodup.of_map _ |>.filter _)
  rintro ⟨key, worldId⟩ hmem ⟨key', worldId'⟩ hmem' heq
  cases heq
  obtain ⟨node, hget, -, hkey⟩ := canonical_eq_some (h.mem_candidates.mp hmem).2
  obtain ⟨node', hget', -, hkey'⟩ := canonical_eq_some (h.mem_candidates.mp hmem').2
  rw [hget] at hget'
  cases hget'
  rw [← hkey, ← hkey']

/-- `canonical_world_id` answers with the only candidate. -/
theorem WellFormed.canonicalWorldId_eq (h : s.WellFormed) (fingerprint : String) :
    s.canonicalWorldId fingerprint =
      match s.candidates fingerprint with
      | [e] => some e.2
      | _ => none := by
  have hdedup := h.candidates_dedup fingerprint
  unfold candidates at hdedup
  unfold canonicalWorldId
  simp only [hdedup]
  rw [← candidates]
  rcases hcandidates : s.candidates fingerprint with _ | ⟨⟨key, worldId⟩, _ | ⟨e, others⟩⟩
  · rfl
  · have hmem : (key, worldId) ∈ s.candidates fingerprint := by rw [hcandidates]; simp
    obtain ⟨⟨hends, -⟩, hcanonical⟩ := h.mem_candidates.mp hmem
    obtain ⟨node, hget, hlive, hkey⟩ := canonical_eq_some hcanonical
    have hfingerprint : node.stateFingerprint.val = fingerprint := by
      rw [← hends, ← hkey]
      rfl
    simp only [List.map_cons, List.map_nil, hget, hlive, hfingerprint, and_self, if_true]
  · rfl

/-- The deduplication index of a well-formed store is exact. -/
theorem WellFormed.deduplicated (h : s.WellFormed) : s.Deduplicated := by
  have hpointer : ∀ {worldId node}, s.nodes.get? worldId = some node → node.destroyed = false →
      node.deduplicatedTo = if s.canonical (fingerprintKey node) = some worldId then none
        else s.canonical (fingerprintKey node) := by
    intro worldId node hget hlive
    rw [h.deduplicatedTo hget, dedupPointer, hlive]
    rfl
  have hdestroyed : ∀ worldId node, s.nodes.get? worldId = some node → node.destroyed = true →
      node.deduplicatedTo = none := by
    intro worldId node hget hd
    rw [h.deduplicatedTo hget, dedupPointer, hd]
    rfl
  constructor
  · intro worldId node hget hlive
    rw [hpointer hget hlive]
    obtain ⟨worldId', hcanonical⟩ := exists_canonical hget hlive
    rw [hcanonical]
    by_cases heq : worldId' = worldId
    · simp [heq]
    · simp [heq]
  · exact hdestroyed
  · intro worldId node target hget htarget
    have hlive : node.destroyed = false := by
      cases hd : node.destroyed with
      | false => rfl
      | true =>
          rw [hdestroyed worldId node hget hd] at htarget
          cases htarget
    rw [hpointer hget hlive] at htarget
    split at htarget
    · cases htarget
    · obtain ⟨canonical, hget', hlive', hkey⟩ := canonical_eq_some htarget
      refine ⟨canonical, hget', hlive', ?_, hkey⟩
      rw [hpointer hget' hlive', hkey, if_pos htarget]
  · intro fingerprint key hlive hunique
    obtain ⟨hends, worldId, node, hget, hnode, rfl⟩ := hlive
    obtain ⟨worldId', hcanonical⟩ := exists_canonical hget hnode
    have hmem : (fingerprintKey node, worldId') ∈ s.candidates fingerprint :=
      h.mem_candidates.mpr ⟨⟨hends, worldId, node, hget, hnode, rfl⟩, hcanonical⟩
    have hsingle : s.candidates fingerprint = [(fingerprintKey node, worldId')] := by
      refine List.perm_singleton.mp ((List.perm_ext_iff_of_nodup
        (s.fingerprints.nodup.of_map _ |>.filter _) (List.nodup_singleton _)).mpr ?_)
      rintro ⟨key', worldId''⟩
      rw [List.mem_singleton, Prod.mk.injEq]
      constructor
      · intro hmem'
        obtain ⟨hlive', hcanonical'⟩ := h.mem_candidates.mp hmem'
        have hkey := hunique key' hlive'
        subst hkey
        rw [hcanonical] at hcanonical'
        exact ⟨rfl, (Option.some.inj hcanonical').symm⟩
      · rintro ⟨rfl, rfl⟩
        exact hmem
    rw [h.canonicalWorldId_eq, hsingle, hcanonical]
    exact ⟨rfl, fun h => by cases h⟩
  · intro fingerprint hnone
    rw [h.canonicalWorldId_eq]
    split
    · next e hsingle =>
        refine absurd ⟨e.1, ?_, ?_⟩ hnone
        · exact (h.mem_candidates.mp (show (e.1, e.2) ∈ _ by rw [hsingle]; simp)).1
        · intro key' hlive'
          obtain ⟨-, worldId, node, hget, hnode, rfl⟩ := id hlive'
          obtain ⟨worldId', hcanonical⟩ := exists_canonical hget hnode
          have hmem := h.mem_candidates.mpr ⟨hlive', hcanonical⟩
          rw [hsingle, List.mem_singleton] at hmem
          rw [← hmem]
    · rfl

end WorldStore

/-- In every state a manager can get to, the deduplication index is exact. -/
theorem Manager.deduplicated_of_reachable {m : Manager} (h : m.Reachable) :
    m.store.Deduplicated :=
  h.invariant.store.wellFormed.deduplicated

end StateWeaver.Worlds

namespace StateWeaver.Worlds.Demo

attribute [local instance] sha256

/-- Two worlds with one fingerprint; the first of three with it has been destroyed. -/
def duplicates : List Input :=
  [.call 0 0 "" (.prepare target (some "A")),
    .answer 0 (.returned (.handle environmentA)) capabilitiesAnswer,
    .answer 0 (.returned (.snapshot (snapshotOf environmentA))) capabilitiesAnswer,
    .call 1 0 "" (.createGhost "A" "t1" (some "G")), .enter 1 capabilitiesAnswer,
    .call 2 0 "" (.createGhost "A" "t2" (some "H")), .enter 2 capabilitiesAnswer,
    .call 3 0 "" (.destroy "A"), .enter 3 capabilitiesAnswer,
    .answer 3 (.returned .none_) capabilitiesAnswer]

theorem deduplicated_duplicates :
    (after duplicates).store.nodes.values.map (fun node => node.deduplicatedTo) =
        [none, none, some ⟨"G", by decide⟩] ∧
      (after duplicates).store.Deduplicated :=
  ⟨by decide +kernel, Manager.deduplicated_of_reachable (reachable_after (by decide +kernel))⟩

end StateWeaver.Worlds.Demo
