import Mathlib
import StateWeaver.Candidate.Common
import StateWeaver.Lib.Dict
import StateWeaver.Lib.Git
import StateWeaver.Lib.Imperative
import StateWeaver.Lib.PathTree
import StateWeaver.Lib.Segments
import StateWeaver.Lib.Utf8

/-!
# The Git tree of an archive

The files of a source archive are put into nested mappings by the parts of their paths, and these are hashed as Git
hashes a tree. The digest is that of the one Git tree with these files at these paths.
-/

namespace StateWeaver.Candidate

open Py (CodePoint Text slash isSurrogate utf8 utf8?)
open Git (Sha1 Entry)

/-- The nested mappings of `_git_tree_digest`: a file with its mode and its content, or a mapping. -/
abbrev Node := PathTree Text (ℕ × List UInt8)

/-- What the mappings hold is no tree. -/
def treeInvalid : Failure := .candidate "source-archive-tree-invalid"

/-- A name cannot be encoded. -/
def pathInvalid : Failure := .candidate "source-archive-path-invalid"

/-- The loop of `_git_tree_digest` over the entries. -/
def treeOf (entries : List (Text × ℕ × List UInt8)) : Except Failure (List (Text × Node)) :=
  entries.foldlM (fun tree e => orRaise (PathTree.insert e.2 (e.1.splitOn slash) tree) treeInvalid) []

section Digests

variable [Sha1]

/-- `_git_object_digest`. -/
def gitObjectDigest (kind : String) (content : List UInt8) : List UInt8 :=
  Sha1.digest (Git.ascii kind.toList ++ 32 :: Git.decimal content.length ++ 0 :: content)

/-- The tuples are compared by their first components and then by the second ones, as numbers in lists. -/
def tupleKey (record : List UInt8 × List UInt8) : List ℕ ×ₗ List ℕ :=
  toLex (record.1.map UInt8.toNat, record.2.map UInt8.toNat)

/-- The digest of a mapping with such records. -/
def digestOfRecords (records : List (List UInt8 × List UInt8)) : List UInt8 :=
  gitObjectDigest "tree" ((records.insertionSort fun a b => tupleKey a ≤ tupleKey b).flatMap Prod.snd)

mutual

/-- The record of `name`, with the key it is sorted by. -/
def recordOf (name : Text) : Node → Except Failure (List UInt8 × List UInt8)
  | .node children => do
      let encodedName ← orRaise (utf8? name) pathInvalid
      let records ← recordsOf children
      return (encodedName ++ [47],
        Git.ascii ['4', '0', '0', '0', '0'] ++ 32 :: encodedName ++ 0 :: digestOfRecords records)
  | .leaf (mode, payload) => do
      let encodedName ← orRaise (utf8? name) pathInvalid
      return (encodedName, Git.decimal mode ++ 32 :: encodedName ++ 0 :: gitObjectDigest "blob" payload)

/-- The loop of `digest` over a mapping. -/
def recordsOf : List (Text × Node) → Except Failure (List (List UInt8 × List UInt8))
  | [] => return []
  | (name, value) :: rest => do
      let record ← recordOf name value
      let records ← recordsOf rest
      return record :: records

end

/-- `_git_tree_digest`. -/
def gitTreeDigest (entries : Dict Text (ℕ × List UInt8)) : Except Failure (List Char) := do
  let tree ← treeOf entries.entries
  let records ← recordsOf tree
  return Git.hex (digestOfRecords records)

end Digests

/-! ## Paths on the way -/

theorem splitOn_slash_ne_nil (path : Text) : path.splitOn slash ≠ [] := List.splitOn_ne_nil slash path

theorem splitOn_slash_injective : Function.Injective fun path : Text => path.splitOn slash := by
  intro path path' h
  have hjoin := Segments.join_splitOn (x := slash) path
  rw [show path.splitOn slash = path'.splitOn slash from h, Segments.join_splitOn] at hjoin
  exact (List.cons.inj hjoin).2.symm

/-- A path is in a folder if its parts go on after those of the folder. -/
theorem prefix_splitOn_iff {path q : Text} (hne : path ≠ q) :
    path.splitOn slash <+: q.splitOn slash ↔ path ++ [slash] <+: q := by
  constructor
  · rintro ⟨rest, hrest⟩
    have hjoin := Segments.join_splitOn (x := slash) q
    rw [← hrest, Segments.join, List.flatMap_append, ← Segments.join, ← Segments.join, Segments.join_splitOn] at hjoin
    cases rest with
    | nil =>
        rw [List.append_nil] at hrest
        exact absurd (splitOn_slash_injective hrest) hne
    | cons part rest =>
        refine ⟨part ++ Segments.join slash rest, ?_⟩
        rw [List.append_assoc]
        exact (List.cons.inj hjoin).2
  · rintro ⟨rest, rfl⟩
    refine ⟨rest.splitOn slash, ?_⟩
    have hparts : ∀ s ∈ path.splitOn slash ++ rest.splitOn slash, slash ∉ s := by
      intro s hs
      rcases List.mem_append.mp hs with hs | hs <;> exact Segments.not_mem_of_mem_splitOn hs
    have hsplit := Segments.splitOn_join hparts
    rw [Segments.join, List.flatMap_append, ← Segments.join, ← Segments.join, Segments.join_splitOn,
      Segments.join_splitOn, List.cons_append, List.splitOn_cons_eq_if_modifyHead,
      if_pos (beq_self_eq_true slash)] at hsplit
    rw [List.append_assoc]
    exact (List.cons.inj hsplit).2.symm

/-! ## Building the mappings -/

/-- No part of the entries' paths is on the way to another entry. -/
def Separate (entries : List (Text × ℕ × List UInt8)) : Prop :=
  entries.Pairwise fun a b => ¬PathTree.OnTheWay (b.1.splitOn slash) (a.1.splitOn slash)

/-- The mappings hold the entries at their paths. -/
structure Placed (entries : List (Text × ℕ × List UInt8)) (tree : List (Text × Node)) : Prop where
  compact : (PathTree.node tree).Compact
  find : ∀ q x, PathTree.find q (.node tree) = some x ↔ ∃ path, (path, x) ∈ entries ∧ path.splitOn slash = q
  separate : Separate entries

theorem placed_nil : Placed [] [] where
  compact := PathTree.compact_nil
  find q x := by
    rw [PathTree.find_nil]
    exact iff_of_false nofun (by rintro ⟨_, hmem, -⟩; cases hmem)
  separate := List.Pairwise.nil

/-- An entry is put into the mappings unless one of the earlier entries is on its way. -/
theorem Placed.insert_eq_none_iff {entries : List (Text × ℕ × List UInt8)} {tree : List (Text × Node)}
    (h : Placed entries tree) (e : Text × ℕ × List UInt8) :
    PathTree.insert e.2 (e.1.splitOn slash) tree = none ↔
      ∃ a ∈ entries, PathTree.OnTheWay (e.1.splitOn slash) (a.1.splitOn slash) := by
  rw [PathTree.insert_eq_none_iff h.compact (splitOn_slash_ne_nil _)]
  constructor
  · rintro ⟨q, x, hfind, hway⟩
    obtain ⟨path, hmem, rfl⟩ := (h.find q x).mp hfind
    exact ⟨(path, x), hmem, hway⟩
  · rintro ⟨⟨path, x⟩, hmem, hway⟩
    exact ⟨path.splitOn slash, x, (h.find _ x).mpr ⟨path, hmem, rfl⟩, hway⟩

theorem Placed.insert {entries : List (Text × ℕ × List UInt8)} {tree tree' : List (Text × Node)}
    (h : Placed entries tree) {e : Text × ℕ × List UInt8}
    (hinsert : PathTree.insert e.2 (e.1.splitOn slash) tree = some tree') : Placed (entries ++ [e]) tree' := by
  obtain ⟨hcompact, -, hfind⟩ := PathTree.find_of_insert h.compact hinsert
  have hfree : ∀ a ∈ entries, ¬PathTree.OnTheWay (e.1.splitOn slash) (a.1.splitOn slash) := by
    intro a ha hway
    rw [(h.insert_eq_none_iff e).mpr ⟨a, ha, hway⟩] at hinsert
    cases hinsert
  refine ⟨hcompact, fun q x => ?_, List.pairwise_append.mpr ⟨h.separate, List.pairwise_singleton _ _, ?_⟩⟩
  · rw [hfind]
    by_cases hq : q = e.1.splitOn slash
    · rw [if_pos hq, Option.some.injEq]
      constructor
      · rintro rfl
        exact ⟨e.1, List.mem_append_right _ List.mem_cons_self, hq.symm⟩
      · rintro ⟨path, hmem, hpath⟩
        rcases List.mem_append.mp hmem with hmem | hmem
        · refine absurd (Or.inl ?_) (hfree _ hmem)
          rw [hpath, hq]
        · rw [← List.mem_singleton.mp hmem]
    · rw [if_neg hq, h.find]
      constructor
      · rintro ⟨path, hmem, hpath⟩
        exact ⟨path, List.mem_append_left _ hmem, hpath⟩
      · rintro ⟨path, hmem, hpath⟩
        rcases List.mem_append.mp hmem with hmem | hmem
        · exact ⟨path, hmem, hpath⟩
        · rw [← List.mem_singleton.mp hmem] at hq
          exact absurd hpath.symm hq
  · intro a ha b hb
    rw [List.mem_singleton.mp hb]
    exact hfree a ha

theorem placed_treeOf {entries : List (Text × ℕ × List UInt8)} {tree : List (Text × Node)}
    (h : treeOf entries = .ok tree) : Placed entries tree :=
  Imp.foldlM_invariant (I := Placed) (d := [])
    (fun _ _ _ _ hplaced hstep => hplaced.insert (orRaise_eq_ok.mp hstep)) placed_nil h

/-- The mappings are built if no path is on the way. -/
theorem exists_treeOf {entries : List (Text × ℕ × List UInt8)} (h : Separate entries) :
    ∃ tree, treeOf entries = .ok tree := by
  have hstep : ∀ before tree e after, before ++ e :: after = [] ++ entries → Placed before tree →
      ∃ tree', orRaise (PathTree.insert e.2 (e.1.splitOn slash) tree) treeInvalid = .ok tree' ∧
        Placed (before ++ [e]) tree' := by
    intro before tree e after hsplit hplaced
    rw [List.nil_append] at hsplit
    rw [← hsplit, Separate, List.pairwise_append] at h
    cases hinsert : PathTree.insert e.2 (e.1.splitOn slash) tree with
    | none =>
        obtain ⟨a, ha, hway⟩ := (hplaced.insert_eq_none_iff e).mp hinsert
        exact absurd hway (h.2.2 a ha e List.mem_cons_self)
    | some tree' => exact ⟨tree', rfl, hplaced.insert hinsert⟩
  obtain ⟨tree, htree, -⟩ := Imp.foldlM_succeeds hstep placed_nil
  exact ⟨tree, htree⟩

theorem treeOf_eq_error {entries : List (Text × ℕ × List UInt8)} {failure : Failure}
    (h : treeOf entries = .error failure) : failure = treeInvalid := by
  have hloop : ∀ tree, entries.foldlM (fun tree e => orRaise (PathTree.insert e.2 (e.1.splitOn slash) tree)
      treeInvalid) tree = .error failure → failure = treeInvalid := by
    clear h
    intro tree h
    induction entries generalizing tree with
    | nil => cases h
    | cons e entries ih =>
        rw [List.foldlM_cons] at h
        rcases Imp.except_bind_eq_error.mp h with h | ⟨tree', -, h⟩
        · cases hinsert : PathTree.insert e.2 (e.1.splitOn slash) tree with
          | none =>
              rw [hinsert] at h
              exact (Except.error.inj h).symm
          | some tree' =>
              rw [hinsert] at h
              cases h
        · exact ih tree' h
  exact hloop [] h

/-- The paths of a mapping are in nobody's way if none of them is a folder of another one. -/
theorem separate_iff (entries : Dict Text (ℕ × List UInt8)) :
    Separate entries.entries ↔ ∀ p ∈ entries.keys, ∀ q ∈ entries.keys, ¬p ++ [slash] <+: q := by
  have hpairwise : ∀ l : List (Text × ℕ × List UInt8), (l.map Prod.fst).Nodup → (Separate l ↔
      ∀ p ∈ l.map Prod.fst, ∀ q ∈ l.map Prod.fst, ¬p ++ [slash] <+: q) := by
    intro l hnodup
    have hself : ∀ p : Text, ¬p ++ [slash] <+: p := fun p hp => by
      have hlength := hp.length_le
      rw [List.length_append, List.length_singleton] at hlength
      omega
    induction l with
    | nil => exact iff_of_true List.Pairwise.nil (List.forall_mem_nil _)
    | cons e l ih =>
        rw [List.map_cons, List.nodup_cons] at hnodup
        have hlater : Separate l ↔ ∀ p ∈ l.map Prod.fst, ∀ q ∈ l.map Prod.fst, ¬p ++ [slash] <+: q := ih hnodup.2
        rw [Separate, List.pairwise_cons, ← Separate, hlater, List.map_cons, List.forall_mem_cons,
          List.forall_mem_cons, and_iff_right (hself e.1)]
        have hway : ∀ a ∈ l, ¬PathTree.OnTheWay (a.1.splitOn slash) (e.1.splitOn slash) ↔
            ¬e.1 ++ [slash] <+: a.1 ∧ ¬a.1 ++ [slash] <+: e.1 := by
          intro a ha
          have hne : e.1 ≠ a.1 := fun heq => hnodup.1 (heq ▸ List.mem_map_of_mem ha)
          rw [PathTree.OnTheWay, prefix_splitOn_iff hne, prefix_splitOn_iff hne.symm, not_or]
        constructor
        · rintro ⟨hfirst, hrest⟩
          refine ⟨fun q hq => ?_, fun p hp => List.forall_mem_cons.mpr ⟨?_, hrest p hp⟩⟩
          · obtain ⟨a, ha, rfl⟩ := List.mem_map.mp hq
            exact ((hway a ha).mp (hfirst a ha)).1
          · obtain ⟨a, ha, rfl⟩ := List.mem_map.mp hp
            exact ((hway a ha).mp (hfirst a ha)).2
        · rintro ⟨hfirst, hrest⟩
          exact ⟨fun a ha => (hway a ha).mpr ⟨hfirst _ (List.mem_map_of_mem ha),
            (List.forall_mem_cons.mp (hrest _ (List.mem_map_of_mem ha))).1⟩,
            fun p hp => (List.forall_mem_cons.mp (hrest p hp)).2⟩
  exact hpairwise entries.entries entries.nodup

end StateWeaver.Candidate
