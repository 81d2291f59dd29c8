import Mathlib
import StateWeaver.Worlds.Store

/-!
# The deduplication index

What `_rebuild_indexes` computes, said without its loop: `earliestLive` is the earliest inserted live
world that carries a key, `dedupPointer` is where a world points when its key has an earlier live
world, and `WorldStore.reindexed` is the store with every pointer and the index set accordingly.
`rebuildIndexes_eq_ok` shows that the loop computes exactly this, and in particular that copying the
nodes never fails their validation.
-/

namespace StateWeaver.Worlds

variable [Sha256]

/-! ## The earliest live world of a key -/

/-- The earliest inserted live world that carries a key. -/
def earliestLive (entries : List (NonEmpty × WorldNode)) (key : FingerprintKey) :
    Option NonEmpty :=
  (entries.find? fun e => e.2.destroyed = false ∧ fingerprintKey e.2 = key).map Prod.fst

/-- Where a world points: nowhere when it is destroyed or the earliest live world of its key, and
otherwise to that earliest world. -/
def dedupPointer (entries : List (NonEmpty × WorldNode)) (e : NonEmpty × WorldNode) :
    Option NonEmpty :=
  if e.2.destroyed then none
  else if earliestLive entries (fingerprintKey e.2) = some e.1 then none
  else earliestLive entries (fingerprintKey e.2)

/-- An entry with its pointer set. -/
def withPointer (entries : List (NonEmpty × WorldNode)) (e : NonEmpty × WorldNode) :
    NonEmpty × WorldNode :=
  (e.1, { e.2 with deduplicatedTo := dedupPointer entries e })

/-- The index from keys to their earliest live world. -/
def liveFingerprints (entries : List (NonEmpty × WorldNode)) : Dict FingerprintKey NonEmpty :=
  entries.foldl (fun index e =>
    if e.2.destroyed then index else index.setdefault (fingerprintKey e.2) e.1) .empty

@[simp]
theorem earliestLive_nil (key : FingerprintKey) : earliestLive [] key = none := rfl

theorem earliestLive_append (l₁ l₂ : List (NonEmpty × WorldNode)) (key : FingerprintKey) :
    earliestLive (l₁ ++ l₂) key = (earliestLive l₁ key).or (earliestLive l₂ key) := by
  simp only [earliestLive, List.find?_append]
  cases l₁.find? _ <;> rfl

theorem earliestLive_append_of_some {l₁ : List (NonEmpty × WorldNode)} {key : FingerprintKey}
    {worldId : NonEmpty} (h : earliestLive l₁ key = some worldId)
    (l₂ : List (NonEmpty × WorldNode)) : earliestLive (l₁ ++ l₂) key = some worldId := by
  rw [earliestLive_append, h, Option.some_or]

theorem earliestLive_singleton (e : NonEmpty × WorldNode) (key : FingerprintKey) :
    earliestLive [e] key =
      if e.2.destroyed = false ∧ fingerprintKey e.2 = key then some e.1 else none := by
  unfold earliestLive
  by_cases h : e.2.destroyed = false ∧ fingerprintKey e.2 = key <;> simp [h]

/-- The earliest live world of a key is a listed live world that carries the key. -/
theorem exists_of_earliestLive {entries : List (NonEmpty × WorldNode)} {key : FingerprintKey}
    {worldId : NonEmpty} (h : earliestLive entries key = some worldId) :
    ∃ node, (worldId, node) ∈ entries ∧ node.destroyed = false ∧ fingerprintKey node = key := by
  rw [earliestLive, Option.map_eq_some_iff] at h
  obtain ⟨⟨w, node⟩, hfind, rfl⟩ := h
  have hlive := List.find?_some hfind
  simp only [decide_eq_true_eq] at hlive
  exact ⟨node, List.mem_of_find?_eq_some hfind, hlive⟩

/-- The key of a listed live world has an earliest live world. -/
theorem earliestLive_isSome {entries : List (NonEmpty × WorldNode)} {e : NonEmpty × WorldNode}
    (hmem : e ∈ entries) (hlive : e.2.destroyed = false) :
    ∃ worldId, earliestLive entries (fingerprintKey e.2) = some worldId := by
  have hfind : ∃ a, entries.find? (fun e' =>
      e'.2.destroyed = false ∧ fingerprintKey e'.2 = fingerprintKey e.2) = some a := by
    rw [← Option.isSome_iff_exists, List.find?_isSome]
    exact ⟨e, hmem, by simp [hlive]⟩
  obtain ⟨a, ha⟩ := hfind
  exact ⟨a.1, by rw [earliestLive, ha, Option.map_some]⟩

/-- The pointers themselves do not matter for who is earliest. -/
theorem earliestLive_map_withPointer (entries l : List (NonEmpty × WorldNode))
    (key : FingerprintKey) :
    earliestLive (l.map (withPointer entries)) key = earliestLive l key := by
  simp only [earliestLive, List.find?_map, Option.map_map]
  rfl

/-- Later worlds do not change the pointer of a listed world. -/
theorem dedupPointer_append {l₁ : List (NonEmpty × WorldNode)} {e : NonEmpty × WorldNode}
    (hmem : e ∈ l₁) (l₂ : List (NonEmpty × WorldNode)) :
    dedupPointer (l₁ ++ l₂) e = dedupPointer l₁ e := by
  unfold dedupPointer
  cases hd : e.2.destroyed with
  | true => rfl
  | false =>
      obtain ⟨worldId, hw⟩ := earliestLive_isSome hmem hd
      rw [earliestLive_append_of_some hw, hw]

/-- A world that is not listed yet points to the earliest live world of its key, if any. -/
theorem dedupPointer_append_self {l : List (NonEmpty × WorldNode)} {e : NonEmpty × WorldNode}
    (hfresh : e.1 ∉ l.map Prod.fst) :
    dedupPointer (l ++ [e]) e =
      if e.2.destroyed then none else earliestLive l (fingerprintKey e.2) := by
  unfold dedupPointer
  cases hd : e.2.destroyed with
  | true => rfl
  | false =>
      simp only [earliestLive_append, earliestLive_singleton, hd, Bool.false_eq_true, if_false,
        and_self, if_true]
      cases hw : earliestLive l (fingerprintKey e.2) with
      | none => simp
      | some worldId =>
          obtain ⟨node, hnode, -, -⟩ := exists_of_earliestLive hw
          have hne : worldId ≠ e.1 := by
            rintro rfl
            exact hfresh (List.mem_map.mpr ⟨_, hnode, rfl⟩)
          simp [hne]

theorem liveFingerprints_append (l : List (NonEmpty × WorldNode)) (e : NonEmpty × WorldNode) :
    liveFingerprints (l ++ [e]) =
      if e.2.destroyed then liveFingerprints l
      else (liveFingerprints l).setdefault (fingerprintKey e.2) e.1 := by
  rw [liveFingerprints, List.foldl_append]
  rfl

/-- The index maps a key to its earliest live world. -/
theorem get?_liveFingerprints (entries : List (NonEmpty × WorldNode)) (key : FingerprintKey) :
    (liveFingerprints entries).get? key = earliestLive entries key := by
  induction entries using List.reverseRecOn with
  | nil => rfl
  | append_singleton l e ih =>
      rw [liveFingerprints_append, earliestLive_append, earliestLive_singleton, ← ih]
      cases hd : e.2.destroyed with
      | true => simp
      | false =>
          simp only [Bool.false_eq_true, if_false, true_and, Dict.get?_setdefault]
          by_cases hk : key = fingerprintKey e.2
          · subst hk
            cases (liveFingerprints l).get? (fingerprintKey e.2) <;> simp
          · rw [if_neg hk, if_neg (Ne.symm hk), Option.or_none]

/-! ## The rebuilding loop -/

/-- Every entry is listed under its own world identifier and passed its validator. -/
def EntriesCoherent (entries : List (NonEmpty × WorldNode)) : Prop :=
  ∀ e ∈ entries, e.2.worldId = e.1 ∧ e.2.Coherent

/-- Changing the pointer keeps a node coherent unless the node comes to point to itself. -/
theorem WorldNode.Coherent.withDeduplicatedTo {node : WorldNode} (h : node.Coherent)
    {pointer : Option NonEmpty} (hne : pointer ≠ some node.worldId) :
    { node with deduplicatedTo := pointer }.Coherent :=
  { h with deduplicatedTo_ne := hne }

/-- One turn of the loop, after the entries `l` have been processed. -/
theorem rebuildStep_eq_ok {l : List (NonEmpty × WorldNode)} {e : NonEmpty × WorldNode}
    (nodes : Dict NonEmpty WorldNode) (hfresh : e.1 ∉ l.map Prod.fst) (hid : e.2.worldId = e.1)
    (hcoh : e.2.Coherent) :
    WorldStore.rebuildStep (nodes, liveFingerprints l) e =
      .ok (nodes.insert e.1 (withPointer (l ++ [e]) e).2, liveFingerprints (l ++ [e])) := by
  have hpointer : (if e.2.destroyed then none else (liveFingerprints l).get? (fingerprintKey e.2)) =
      dedupPointer (l ++ [e]) e := by
    rw [dedupPointer_append_self hfresh, get?_liveFingerprints]
  have hne : dedupPointer (l ++ [e]) e ≠ some e.2.worldId := by
    rw [hid, dedupPointer]
    split
    · simp
    · split
      · simp
      · assumption
  have hvalid := (WorldNode.modelValidate_eq_ok (m := (withPointer (l ++ [e]) e).2)).mpr
    ⟨rfl, hcoh.withDeduplicatedTo hne⟩
  rw [WorldStore.rebuildStep, hpointer, liveFingerprints_append]
  change (WorldNode.modelValidate (withPointer (l ++ [e]) e).2 >>= _) = _
  rw [hvalid]
  rfl

/-- The loop, run on the entries `post` after it has processed the entries `pre`. -/
theorem foldlM_rebuildStep (pre post : List (NonEmpty × WorldNode))
    (hnodup : ((pre ++ post).map Prod.fst).Nodup) (hpost : EntriesCoherent post)
    (nodes : Dict NonEmpty WorldNode) (hnodes : nodes.entries = pre.map (withPointer pre)) :
    ∃ nodes', post.foldlM WorldStore.rebuildStep (nodes, liveFingerprints pre) =
        .ok (nodes', liveFingerprints (pre ++ post)) ∧
      nodes'.entries = (pre ++ post).map (withPointer (pre ++ post)) := by
  induction post generalizing pre nodes with
  | nil => exact ⟨nodes, by simp [pure, Except.pure], by simpa using hnodes⟩
  | cons e post ih =>
      have happend : pre ++ e :: post = pre ++ [e] ++ post := by simp
      have hfresh : e.1 ∉ pre.map Prod.fst := by
        intro hmem
        rw [List.map_append, List.nodup_append] at hnodup
        exact hnodup.2.2 _ hmem _ (by simp) rfl
      obtain ⟨hid, hcoh⟩ := hpost e List.mem_cons_self
      have habsent : nodes.get? e.1 = none := by
        rw [← Dict.not_mem_keys, Dict.keys, hnodes, List.map_map]
        exact hfresh
      have hentries : (nodes.insert e.1 (withPointer (pre ++ [e]) e).2).entries =
          (pre ++ [e]).map (withPointer (pre ++ [e])) := by
        rw [Dict.entries_insert_of_get?_none habsent, hnodes, List.map_append]
        congr 1
        apply List.map_congr_left
        intro e' he'
        rw [withPointer, withPointer, dedupPointer_append he']
      rw [List.foldlM_cons, rebuildStep_eq_ok nodes hfresh hid hcoh]
      rw [happend] at hnodup ⊢
      exact ih (pre ++ [e]) hnodup (fun e' he' => hpost e' (List.mem_cons_of_mem e he')) _ hentries

namespace WorldStore

/-- The store with the pointers of its nodes and its index recomputed. -/
def reindexed (s : WorldStore) : WorldStore :=
  { s with
    nodes := ⟨s.nodes.entries.map (withPointer s.nodes.entries), by
      rw [List.map_map]
      exact s.nodes.nodup⟩
    fingerprints := liveFingerprints s.nodes.entries }

/-- `_rebuild_indexes` succeeds and recomputes the pointers and the index. -/
theorem rebuildIndexes_eq_ok {s : WorldStore} (h : EntriesCoherent s.nodes.entries) :
    rebuildIndexes s = .ok () s.reindexed := by
  obtain ⟨nodes, hloop, hentries⟩ := foldlM_rebuildStep [] s.nodes.entries s.nodes.nodup h .empty rfl
  have hrun : s.nodes.entries.foldlM rebuildStep (.empty, .empty) =
      .ok (nodes, liveFingerprints s.nodes.entries) := hloop
  have hnodes : nodes = s.reindexed.nodes := Dict.ext hentries
  rw [rebuildIndexes, Imp.get_bind, Imp.lift_bind_eq_ok]
  exact ⟨_, hrun, by rw [Imp.modify_eq_ok, hnodes]; rfl⟩

theorem get?_reindexed {s : WorldStore} {worldId : NonEmpty} :
    s.reindexed.nodes.get? worldId = (s.nodes.get? worldId).map fun node =>
      (withPointer s.nodes.entries (worldId, node)).2 := by
  apply Option.ext
  intro node
  rw [← Dict.mem_entries, Option.map_eq_some_iff, reindexed, List.mem_map]
  constructor
  · rintro ⟨⟨w, n⟩, hmem, heq⟩
    rw [withPointer, Prod.mk.injEq] at heq
    obtain ⟨rfl, rfl⟩ := heq
    exact ⟨n, Dict.mem_entries.mp hmem, rfl⟩
  · rintro ⟨n, hget, rfl⟩
    exact ⟨(worldId, n), Dict.mem_entries.mpr hget, rfl⟩

end WorldStore

end StateWeaver.Worlds
