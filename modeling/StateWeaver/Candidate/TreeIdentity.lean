import StateWeaver.Candidate.GitTree
import StateWeaver.Lib.ShaOne

/-!
# What the Git tree of an archive names

The nested mappings are a Git tree (`gitEntry`), which the digest is computed from. It is the only Git tree with the
files of the entries, so the digest does not depend on their order, and it names them unless SHA-1 collides on the
objects of two such trees.
-/

namespace StateWeaver.Candidate

open Py (CodePoint Text slash isSurrogate utf8 utf8?)
open Git (Sha1 Entry)

/-! ## The mappings as a Git tree -/

mutual

/-- The Git tree of a mapping. -/
def gitEntry : Node → Entry
  | .leaf (mode, payload) => .blob mode payload
  | .node children => .tree ((gitChildren children).insertionSort fun a b => Entry.key a ≤ Entry.key b)

def gitChildren : List (Text × Node) → List (List UInt8 × Entry)
  | [] => []
  | (name, child) :: rest => (utf8 name, gitEntry child) :: gitChildren rest

end

theorem gitChildren_eq (children : List (Text × Node)) :
    gitChildren children = children.map fun p => (utf8 p.1, gitEntry p.2) := by
  induction children with
  | nil => rfl
  | cons p children ih => rw [gitChildren, ih, List.map_cons]

/-- A name that can be in a tree: it has bytes, without a NUL and without a slash. -/
structure IsPart (name : Text) : Prop where
  encodable : ∀ c ∈ name, isSurrogate c = false
  isName : Entry.IsName (utf8 name)

theorem IsPart.utf8?_eq {name : Text} (h : IsPart name) : utf8? name = some (utf8 name) :=
  Py.utf8?_eq_some.mpr ⟨h.encodable, rfl⟩

theorem nodup_gitChildren {children : List (Text × Node)} (h : (children.map Prod.fst).Nodup)
    (hparts : ∀ p ∈ children, IsPart p.1) : ((gitChildren children).map Prod.fst).Nodup := by
  rw [gitChildren_eq, List.map_map]
  have hmap : (children.map Prod.fst).map utf8 = children.map (Prod.fst ∘ fun p => (utf8 p.1, gitEntry p.2)) := by
    rw [List.map_map]
    rfl
  rw [← hmap]
  refine List.Nodup.map_on (fun a ha b hb heq => ?_) h
  obtain ⟨p, hp, rfl⟩ := List.mem_map.mp ha
  obtain ⟨q, hq, rfl⟩ := List.mem_map.mp hb
  exact Py.utf8_inj (hparts p hp).encodable (hparts q hq).encodable heq

theorem isName_of_mem_gitChildren {children : List (Text × Node)} (hparts : ∀ p ∈ children, IsPart p.1) :
    ∀ e ∈ gitChildren children, Entry.IsName e.1 := by
  intro e he
  rw [gitChildren_eq] at he
  obtain ⟨p, hp, rfl⟩ := List.mem_map.mp he
  exact (hparts p hp).isName

/-- Entries of different names have different keys. -/
theorem nodup_keys {l : List (List UInt8 × Entry)} (h : (l.map Prod.fst).Nodup)
    (hnames : ∀ e ∈ l, Entry.IsName e.1) : (l.map Entry.key).Nodup := by
  refine List.Nodup.map_on (fun a ha b hb heq => ?_) (List.Nodup.of_map _ h)
  exact List.inj_on_of_nodup_map h ha hb (Git.nameKey_inj (hnames a ha).2.2 (hnames b hb).2.2 heq)

theorem tupleKey_injective : Function.Injective tupleKey := by
  have hbytes : Function.Injective (List.map UInt8.toNat) := List.map_injective_iff.mpr fun _ _ => UInt8.toNat_inj.mp
  intro a b h
  obtain ⟨hfirst, hsecond⟩ := Prod.mk.inj (toLex_inj.mp h)
  exact Prod.ext (hbytes hfirst) (hbytes hsecond)

theorem forall_names_node {children : List (Text × Node)} {p : Text → Prop} :
    (∀ name ∈ (PathTree.node children).names, p name) ↔
      (∀ e ∈ children, p e.1) ∧ ∀ e ∈ children, ∀ name ∈ e.2.names, p name := by
  rw [PathTree.names]
  induction children with
  | nil => simp [PathTree.childrenNames]
  | cons e children ih =>
      rw [PathTree.childrenNames, List.cons_append, List.forall_mem_cons, List.forall_mem_append, ih,
        List.forall_mem_cons, List.forall_mem_cons]
      constructor
      · rintro ⟨h, h', h'', h'''⟩
        exact ⟨⟨h, h''⟩, h', h'''⟩
      · rintro ⟨⟨h, h''⟩, h', h'''⟩
        exact ⟨h, h', h'', h'''⟩

section Digests

variable [Sha1]

/-- What `digest` keeps of an entry: the key to sort by and the record. -/
def recordPair (e : List UInt8 × Entry) : List UInt8 × List UInt8 :=
  (e.1 ++ if e.2.isTree then [47] else [], Git.record e.1 e.2.modeText (Sha1.digest e.2.object))

/-- Sorting the records is sorting the entries. -/
theorem sort_recordPair {l : List (List UInt8 × Entry)} (h : (l.map Entry.key).Nodup) :
    (l.map recordPair).insertionSort (fun a b => tupleKey a ≤ tupleKey b) =
      (l.insertionSort fun a b => Entry.key a ≤ Entry.key b).map recordPair := by
  have htotal : Std.Total fun a b : List UInt8 × List UInt8 => tupleKey a ≤ tupleKey b :=
    ⟨fun _ _ => le_total _ _⟩
  have htrans : IsTrans (List UInt8 × List UInt8) fun a b => tupleKey a ≤ tupleKey b := ⟨fun _ _ _ => le_trans⟩
  have hlt : ∀ a b : List UInt8 × Entry, Entry.key a < Entry.key b →
      tupleKey (recordPair a) < tupleKey (recordPair b) := fun a b hlt => Prod.Lex.toLex_lt_toLex.mpr (Or.inl hlt)
  have hsorted : ((l.insertionSort fun a b => Entry.key a ≤ Entry.key b).map recordPair).Pairwise
      fun a b => tupleKey a < tupleKey b :=
    List.pairwise_map.mpr ((Arranged.pairwise_insertionSort h).imp fun hab => hlt _ _ hab)
  exact List.Perm.eq_of_pairwise (fun _ _ _ _ hab hba => tupleKey_injective (le_antisymm hab hba))
    (List.pairwise_insertionSort _ _) (hsorted.imp le_of_lt)
    ((List.perm_insertionSort _ _).trans ((List.perm_insertionSort _ _).symm.map recordPair))

theorem digestOfRecords_map {l : List (List UInt8 × Entry)} (h : (l.map Entry.key).Nodup) :
    digestOfRecords (l.map recordPair) =
      Sha1.digest (Entry.tree (l.insertionSort fun a b => Entry.key a ≤ Entry.key b)).object := by
  rw [digestOfRecords, sort_recordPair h, Entry.object, Entry.records_eq, List.flatMap_map, List.flatMap_map]
  rfl

theorem recordsOf_eq_ok {children : List (Text × Node)}
    (h : ∀ p ∈ children, recordOf p.1 p.2 = .ok (recordPair (utf8 p.1, gitEntry p.2))) :
    recordsOf children = .ok ((gitChildren children).map recordPair) := by
  induction children with
  | nil => rfl
  | cons p children ih =>
      obtain ⟨hfirst, hrest⟩ := List.forall_mem_cons.mp h
      rw [recordsOf, hfirst, ih hrest]
      rfl

/-- The record of an entry is that of its Git tree. -/
theorem recordOf_eq {t : Node} (ht : t.Compact) (hparts : ∀ name ∈ t.names, IsPart name) {name : Text}
    (hname : IsPart name) : recordOf name t = .ok (recordPair (utf8 name, gitEntry t)) := by
  induction ht generalizing name with
  | @leaf a =>
      rw [recordOf, hname.utf8?_eq, recordPair, gitEntry]
      change Except.ok (utf8 name, _) = Except.ok (utf8 name ++ [], _)
      rw [List.append_nil]
      rfl
  | @node children hnodup hne hchildren ih =>
      obtain ⟨hchild, hbelow⟩ := forall_names_node.mp hparts
      have hrecords := recordsOf_eq_ok fun p hp => ih p hp (hbelow p hp) (hchild p hp)
      have hkeys := nodup_keys (nodup_gitChildren hnodup hchild) (isName_of_mem_gitChildren hchild)
      rw [recordOf, hname.utf8?_eq, hrecords]
      change Except.ok (_, _) = _
      rw [digestOfRecords_map hkeys]
      rfl

/-- The digest of mappings is the name of their Git tree. -/
theorem digestOfRecords_eq {children : List (Text × Node)} (ht : (PathTree.node children).Compact)
    (hparts : ∀ name ∈ (PathTree.node children).names, IsPart name) : ∃ records,
      recordsOf children = .ok records ∧
        digestOfRecords records = Sha1.digest (gitEntry (.node children)).object := by
  obtain ⟨hchild, hbelow⟩ := forall_names_node.mp hparts
  cases ht with
  | node hnodup hne hchildren =>
      have hkeys := nodup_keys (nodup_gitChildren hnodup hchild) (isName_of_mem_gitChildren hchild)
      refine ⟨_, recordsOf_eq_ok fun p hp => recordOf_eq (hchildren p hp) (hbelow p hp) (hchild p hp), ?_⟩
      rw [digestOfRecords_map hkeys]
      rfl

/-! ## Names without bytes -/

mutual

/-- A name without bytes is the only obstacle. -/
theorem recordOf_cases (name : Text) : ∀ t : Node,
    ((∃ record, recordOf name t = .ok record) ∧ ∀ n ∈ name :: t.names, utf8? n ≠ none) ∨
      recordOf name t = .error pathInvalid ∧ ∃ n ∈ name :: t.names, utf8? n = none
  | .leaf a => by
      rw [recordOf]
      cases hname : utf8? name with
      | none => exact Or.inr ⟨rfl, name, List.mem_cons_self, hname⟩
      | some bytes =>
          refine Or.inl ⟨⟨_, rfl⟩, fun n hn => ?_⟩
          rw [List.mem_singleton.mp hn, hname]
          exact Option.some_ne_none bytes
  | .node children => by
      rw [recordOf]
      cases hname : utf8? name with
      | none => exact Or.inr ⟨rfl, name, List.mem_cons_self, hname⟩
      | some bytes =>
          rcases recordsOf_cases children with ⟨⟨records, hrecords⟩, hnames⟩ | ⟨hrecords, n, hn, hnone⟩
          · rw [hrecords]
            refine Or.inl ⟨⟨_, rfl⟩, List.forall_mem_cons.mpr ⟨?_, hnames⟩⟩
            rw [hname]
            exact Option.some_ne_none bytes
          · rw [hrecords]
            exact Or.inr ⟨rfl, n, List.mem_cons_of_mem name hn, hnone⟩

theorem recordsOf_cases : ∀ children : List (Text × Node),
    ((∃ records, recordsOf children = .ok records) ∧ ∀ n ∈ PathTree.childrenNames children, utf8? n ≠ none) ∨
      recordsOf children = .error pathInvalid ∧ ∃ n ∈ PathTree.childrenNames children, utf8? n = none
  | [] => Or.inl ⟨⟨[], rfl⟩, List.forall_mem_nil _⟩
  | (name, child) :: rest => by
      rw [recordsOf, PathTree.childrenNames]
      rcases recordOf_cases name child with ⟨⟨record, hrecord⟩, hnames⟩ | ⟨hrecord, n, hn, hnone⟩
      · rcases recordsOf_cases rest with ⟨⟨records, hrecords⟩, hrest⟩ | ⟨hrecords, n, hn, hnone⟩
        · rw [hrecord, hrecords]
          exact Or.inl ⟨⟨_, rfl⟩, List.forall_mem_append.mpr ⟨hnames, hrest⟩⟩
        · rw [hrecord, hrecords]
          exact Or.inr ⟨rfl, n, List.mem_append_right _ hn, hnone⟩
      · rw [hrecord]
        exact Or.inr ⟨rfl, n, List.mem_append_left _ hn, hnone⟩

end

end Digests

/-! ## The files of the Git tree -/

/-- The Git tree has the files of the mappings. -/
theorem find_gitEntry {t : Node} (ht : t.Compact) (hparts : ∀ name ∈ t.names, IsPart name) (names : List (List UInt8))
    (x : ℕ × List UInt8) :
    (gitEntry t).find names = some x ↔ ∃ q, t.find q = some x ∧ q.map utf8 = names := by
  induction ht generalizing names with
  | @leaf a =>
      cases names with
      | nil =>
          constructor
          · exact fun h => ⟨[], h, rfl⟩
          · rintro ⟨q, hq, hnames⟩
            rw [List.map_eq_nil_iff.mp hnames] at hq
            exact hq
      | cons name names =>
          refine iff_of_false nofun ?_
          rintro ⟨q, hq, hnames⟩
          cases q with
          | nil => cases hnames
          | cons => cases hq
  | @node children hnodup hne hchildren ih =>
      obtain ⟨hchild, hbelow⟩ := forall_names_node.mp hparts
      have hmem : ∀ name child, (name, child) ∈ children → (utf8 name, gitEntry child) ∈
          (gitChildren children).insertionSort fun a b => Entry.key a ≤ Entry.key b := by
        intro name child h
        rw [List.mem_insertionSort, gitChildren_eq]
        exact List.mem_map_of_mem h
      have hsorted : (((gitChildren children).insertionSort fun a b => Entry.key a ≤ Entry.key b).map
          Prod.fst).Nodup :=
        ((List.perm_insertionSort _ _).map _).nodup_iff.mpr (nodup_gitChildren hnodup hchild)
      cases names with
      | nil =>
          refine iff_of_false nofun ?_
          rintro ⟨q, hq, hnames⟩
          rw [List.map_eq_nil_iff.mp hnames] at hq
          cases hq
      | cons name names =>
          rw [gitEntry]
          constructor
          · intro h
            obtain ⟨e, he, hfind⟩ := Entry.mem_of_find h
            rw [List.mem_insertionSort, gitChildren_eq] at he
            obtain ⟨p, hp, heq⟩ := List.mem_map.mp he
            cases heq
            obtain ⟨q, hq, rfl⟩ := (ih p hp (hbelow p hp) names).mp hfind
            exact ⟨p.1 :: q, (PathTree.find_of_lookup (PathTree.lookup_of_mem hnodup hp) q).trans hq, rfl⟩
          · rintro ⟨q, hq, hnames⟩
            cases q with
            | nil => cases hnames
            | cons n q =>
                cases hnames
                obtain ⟨child, hlookup, hfind⟩ := PathTree.lookup_of_find hq
                have hin := PathTree.mem_of_lookup hlookup
                rw [Entry.find_of_mem hsorted (hmem n child hin)]
                exact (ih _ hin (hbelow _ hin) _).mpr ⟨q, hfind, rfl⟩

theorem gitEntry_ne_nil {t : Node} (h : t ≠ .node []) : gitEntry t ≠ .tree [] := by
  cases t with
  | leaf a => exact nofun
  | node children =>
      intro heq
      have hlength := congrArg List.length (Entry.tree.inj heq)
      rw [List.length_insertionSort, gitChildren_eq, List.length_map, List.length_nil] at hlength
      exact h (congrArg PathTree.node (List.eq_nil_of_length_eq_zero hlength))

theorem wellFormed_gitEntry {t : Node} (ht : t.Compact) (hparts : ∀ name ∈ t.names, IsPart name)
    (hmodes : ∀ q x, t.find q = some x → x.1 ∈ Git.fileModes) : (gitEntry t).WellFormed := by
  induction ht with
  | @leaf a => exact .blob (hmodes [] a rfl)
  | @node children hnodup hne hchildren ih =>
      obtain ⟨hchild, hbelow⟩ := forall_names_node.mp hparts
      have hkeys := nodup_keys (nodup_gitChildren hnodup hchild) (isName_of_mem_gitChildren hchild)
      have hmem : ∀ e ∈ (gitChildren children).insertionSort fun a b => Entry.key a ≤ Entry.key b,
          ∃ p ∈ children, (utf8 p.1, gitEntry p.2) = e := by
        intro e he
        rw [List.mem_insertionSort, gitChildren_eq] at he
        exact List.mem_map.mp he
      refine .tree (Arranged.pairwise_insertionSort hkeys) ?_ ?_ ?_ ?_
      · exact ((List.perm_insertionSort _ _).map _).nodup_iff.mpr (nodup_gitChildren hnodup hchild)
      · intro e he
        exact isName_of_mem_gitChildren hchild e ((List.mem_insertionSort _).mp he)
      · intro e he
        obtain ⟨p, hp, rfl⟩ := hmem e he
        exact gitEntry_ne_nil (hne p hp)
      · intro e he
        obtain ⟨p, hp, rfl⟩ := hmem e he
        refine ih p hp (hbelow p hp) fun q x hq => hmodes (p.1 :: q) x ?_
        exact (PathTree.find_of_lookup (PathTree.lookup_of_mem hnodup hp) q).trans hq

/-! ## Safe paths -/

/-- The parts of a safe path are not empty. -/
theorem ne_nil_of_mem_splitOn {path : Text} (h : isSafeRelativePath path = true) :
    ∀ part ∈ path.splitOn slash, part ≠ [] := by
  simp only [isSafeRelativePath, Bool.and_eq_true, decide_eq_true_eq, Bool.not_eq_true'] at h
  obtain ⟨⟨⟨-, habsolute⟩, hstr⟩, hparts⟩ := h
  have hroot : (Py.PurePosixPath.parse path).root = [] := by
    rw [Py.PurePosixPath.isAbsolute, decide_eq_false_iff_not, Classical.not_not] at habsolute
    exact habsolute
  intro part hpart
  by_cases htail : (Py.PurePosixPath.parse path).tail = []
  · rw [Py.PurePosixPath.str, if_pos ⟨hroot, htail⟩] at hstr
    rw [← hstr] at hpart
    rintro rfl
    revert hpart
    decide
  · have hvalue : [slash].intercalate (Py.PurePosixPath.parse path).tail = path := by
      rw [Py.PurePosixPath.str, if_neg fun hboth => htail hboth.2, hroot, List.nil_append] at hstr
      exact hstr
    have hslash : ∀ s ∈ (Py.PurePosixPath.parse path).tail, slash ∉ s := fun s hs =>
      Segments.not_mem_of_mem_splitOn (List.mem_of_mem_filter hs)
    have hsplit := List.splitOn_intercalate slash hslash htail
    rw [hvalue] at hsplit
    rw [hsplit] at hpart
    rw [Py.PurePosixPath.parts, if_pos hroot, List.all_eq_true] at hparts
    exact (decide_eq_true_eq.mp (hparts part hpart)).1

theorem isPart_of_mem_splitOn {path : Text} (h : isSafeRelativePath path = true)
    (hencodable : ∀ c ∈ path, isSurrogate c = false) : ∀ part ∈ path.splitOn slash, IsPart part := by
  intro part hpart
  have hin : ∀ c ∈ part, c ∈ path := fun c hc => Segments.mem_of_mem_splitOn hpart hc
  have hchars : ∀ c ∈ part, isSurrogate c = false := fun c hc => hencodable c (hin c hc)
  refine ⟨hchars, ?_, ?_, ?_⟩
  · obtain ⟨c, rest, rfl⟩ := List.exists_cons_of_ne_nil (ne_nil_of_mem_splitOn h part hpart)
    rw [utf8, List.flatMap_cons]
    refine List.append_ne_nil_of_left_ne_nil (fun hnil => ?_) _
    have hsize := String.length_utf8EncodeChar c.toChar
    rw [hnil] at hsize
    exact absurd hsize (Nat.ne_of_lt c.toChar.utf8Size_pos)
  · intro hzero
    obtain ⟨c, hc, hval⟩ := Py.mem_of_mem_utf8 hchars (by decide) hzero
    simp only [isSafeRelativePath, Bool.and_eq_true, List.all_eq_true, decide_eq_true_eq] at h
    exact (h.1.1.1.2 c (hin c hc)).1.2 hval
  · intro hslash
    obtain ⟨c, hc, hval⟩ := Py.mem_of_mem_utf8 hchars (by decide) hslash
    have heq : c = slash := Fin.ext hval
    exact Segments.not_mem_of_mem_splitOn hpart (heq ▸ hc)

/-! ## The digest -/

/-- The Git tree with the entries of a mapping as its files. -/
structure IsGitTreeOf (entries : Dict Text (ℕ × List UInt8)) (t : Entry) : Prop where
  wellFormed : t.WellFormed
  isTree : t.isTree = true
  find : ∀ names x, t.find names = some x ↔
    ∃ path, entries.get? path = some x ∧ (path.splitOn slash).map utf8 = names

/-- There is no more than one. -/
theorem IsGitTreeOf.unique {entries : Dict Text (ℕ × List UInt8)} {t t' : Entry} (h : IsGitTreeOf entries t)
    (h' : IsGitTreeOf entries t') : t = t' := by
  have hfind : ∀ names, t.find names = t'.find names := fun names =>
    Option.ext fun x => (h.find names x).trans (h'.find names x).symm
  by_cases ht : t = .tree []
  · by_cases ht' : t' = .tree []
    · rw [ht, ht']
    · exact (h'.wellFormed.ext_find h.wellFormed ht' fun names => (hfind names).symm).symm
  · exact h.wellFormed.ext_find h'.wellFormed ht hfind

theorem IsGitTreeOf.congr {entries entries' : Dict Text (ℕ × List UInt8)} {t : Entry} (h : IsGitTreeOf entries t)
    (hget : ∀ path, entries'.get? path = entries.get? path) : IsGitTreeOf entries' t where
  wellFormed := h.wellFormed
  isTree := h.isTree
  find names x := by
    rw [h.find]
    exact exists_congr fun path => by rw [hget]

/-- The names in the mappings are the parts of the paths. -/
theorem Placed.mem_names {entries : Dict Text (ℕ × List UInt8)} {tree : List (Text × Node)} (h : Placed entries.entries tree) {name : Text} :
    name ∈ (PathTree.node tree).names ↔ ∃ path ∈ entries.keys, name ∈ path.splitOn slash := by
  rw [h.compact.mem_names]
  constructor
  · rintro ⟨q, x, hfind, hname⟩
    obtain ⟨path, hpath, rfl⟩ := (h.find q x).mp hfind
    exact ⟨path, List.mem_map_of_mem hpath, hname⟩
  · rintro ⟨path, hpath, hname⟩
    obtain ⟨⟨_, x⟩, hmem, rfl⟩ := List.mem_map.mp hpath
    exact ⟨_, x, (h.find _ x).mpr ⟨_, hmem, rfl⟩, hname⟩

/-- Some path of the mapping is a folder of another one. -/
def HasFolder (entries : Dict Text (ℕ × List UInt8)) : Prop :=
  ∃ p ∈ entries.keys, ∃ q ∈ entries.keys, p ++ [slash] <+: q

/-- Some path of the mapping has a surrogate in it. -/
def HasSurrogate (entries : Dict Text (ℕ × List UInt8)) : Prop :=
  ∃ p ∈ entries.keys, ∃ c ∈ p, isSurrogate c = true

theorem hasFolder_congr {entries entries' : Dict Text (ℕ × List UInt8)}
    (hget : ∀ path, entries'.get? path = entries.get? path) :
    (HasFolder entries' ↔ HasFolder entries) ∧ (HasSurrogate entries' ↔ HasSurrogate entries) ∧
      (∀ path, path ∈ entries'.keys ↔ path ∈ entries.keys) ∧ ∀ file, file ∈ entries'.values ↔ file ∈ entries.values := by
  have hkeys : ∀ path, path ∈ entries'.keys ↔ path ∈ entries.keys := fun path => by
    rw [Dict.mem_keys, Dict.mem_keys, hget]
  refine ⟨?_, ?_, hkeys, fun file => ?_⟩
  · exact exists_congr fun p => and_congr (hkeys p) (exists_congr fun q => and_congr_left' (hkeys q))
  · exact exists_congr fun p => and_congr_left' (hkeys p)
  · rw [Dict.mem_values, Dict.mem_values]
    exact exists_congr fun path => by rw [Dict.mem_entries, Dict.mem_entries, hget]

section Digest

variable [Sha1] {entries : Dict Text (ℕ × List UInt8)}

theorem gitTreeDigest_of_hasFolder (h : HasFolder entries) : gitTreeDigest entries = .error treeInvalid := by
  rw [gitTreeDigest]
  cases htree : treeOf entries.entries with
  | error failure => rw [treeOf_eq_error htree]; rfl
  | ok tree =>
      obtain ⟨p, hp, q, hq, hprefix⟩ := h
      exact absurd hprefix ((separate_iff entries).mp (placed_treeOf htree).separate p hp q hq)

theorem gitTreeDigest_of_hasSurrogate (hfolder : ¬HasFolder entries) (h : HasSurrogate entries) :
    gitTreeDigest entries = .error pathInvalid := by
  have hseparate : Separate entries.entries := (separate_iff entries).mpr fun p hp q hq hprefix =>
    hfolder ⟨p, hp, q, hq, hprefix⟩
  obtain ⟨tree, htree⟩ := exists_treeOf hseparate
  obtain ⟨path, hpath, c, hc, hsurrogate⟩ := h
  have hjoin : c ∈ Segments.join slash (path.splitOn slash) := by
    rw [Segments.join_splitOn]
    exact List.mem_cons_of_mem slash hc
  obtain ⟨part, hpart, hin⟩ := List.mem_flatMap.mp hjoin
  have hne : c ≠ slash := by
    rintro rfl
    cases hsurrogate
  rcases recordsOf_cases tree with ⟨-, hnames⟩ | ⟨herror, -⟩
  · refine absurd (Py.utf8?_eq_none.mpr ⟨c, (List.mem_cons.mp hin).resolve_left hne, hsurrogate⟩) (hnames part ?_)
    exact (placed_treeOf htree).mem_names.mpr ⟨path, hpath, hpart⟩
  · rw [gitTreeDigest, htree]
    change (recordsOf tree >>= _) = _
    rw [herror]
    rfl

/-- The digest of files with safe paths is the name of their Git tree. -/
theorem gitTreeDigest_of_treeOf (hsafe : ∀ path ∈ entries.keys, isSafeRelativePath path = true)
    (hmodes : ∀ file ∈ entries.values, file.1 ∈ Git.fileModes) (hsurrogate : ¬HasSurrogate entries)
    {tree : List (Text × Node)} (htree : treeOf entries.entries = .ok tree) :
    IsGitTreeOf entries (gitEntry (.node tree)) ∧
      gitTreeDigest entries = .ok (Git.hex (Sha1.digest (gitEntry (.node tree)).object)) := by
  have hplaced := placed_treeOf htree
  have hparts : ∀ name ∈ (PathTree.node tree).names, IsPart name := by
    intro name hname
    obtain ⟨path, hpath, hpart⟩ := hplaced.mem_names.mp hname
    refine isPart_of_mem_splitOn (hsafe path hpath) (fun c hc => ?_) name hpart
    exact Bool.not_eq_true _ ▸ fun htrue => hsurrogate ⟨path, hpath, c, hc, htrue⟩
  have hmodes' : ∀ q x, PathTree.find q (.node tree) = some x → x.1 ∈ Git.fileModes := by
    intro q x hfind
    obtain ⟨path, hmem, -⟩ := (hplaced.find q x).mp hfind
    exact hmodes x (Dict.mem_values.mpr ⟨path, hmem⟩)
  obtain ⟨records, hrecords, hdigest⟩ := digestOfRecords_eq hplaced.compact hparts
  refine ⟨⟨wellFormed_gitEntry hplaced.compact hparts hmodes', rfl, fun names x => ?_⟩, ?_⟩
  · rw [find_gitEntry hplaced.compact hparts]
    constructor
    · rintro ⟨q, hfind, hnames⟩
      obtain ⟨path, hmem, rfl⟩ := (hplaced.find q x).mp hfind
      exact ⟨path, Dict.mem_entries.mp hmem, hnames⟩
    · rintro ⟨path, hget, hnames⟩
      exact ⟨_, (hplaced.find _ x).mpr ⟨path, Dict.mem_entries.mpr hget, rfl⟩, hnames⟩
  · rw [gitTreeDigest, htree]
    change (recordsOf tree >>= _) = _
    rw [hrecords, ← hdigest]
    rfl

theorem gitTreeDigest_eq_ok (hsafe : ∀ path ∈ entries.keys, isSafeRelativePath path = true)
    (hmodes : ∀ file ∈ entries.values, file.1 ∈ Git.fileModes) (hfolder : ¬HasFolder entries)
    (hsurrogate : ¬HasSurrogate entries) : ∃ t, IsGitTreeOf entries t ∧
      gitTreeDigest entries = .ok (Git.hex (Sha1.digest t.object)) := by
  have hseparate : Separate entries.entries := (separate_iff entries).mpr fun p hp q hq hprefix =>
    hfolder ⟨p, hp, q, hq, hprefix⟩
  obtain ⟨tree, htree⟩ := exists_treeOf hseparate
  exact ⟨_, gitTreeDigest_of_treeOf hsafe hmodes hsurrogate htree⟩

theorem gitTreeDigest_cases (hsafe : ∀ path ∈ entries.keys, isSafeRelativePath path = true)
    (hmodes : ∀ file ∈ entries.values, file.1 ∈ Git.fileModes) :
    (HasFolder entries ∧ gitTreeDigest entries = .error treeInvalid) ∨
      (¬HasFolder entries ∧ HasSurrogate entries ∧ gitTreeDigest entries = .error pathInvalid) ∨
        ¬HasFolder entries ∧ ¬HasSurrogate entries ∧ ∃ t, IsGitTreeOf entries t ∧
          gitTreeDigest entries = .ok (Git.hex (Sha1.digest t.object)) := by
  by_cases hfolder : HasFolder entries
  · exact Or.inl ⟨hfolder, gitTreeDigest_of_hasFolder hfolder⟩
  by_cases hsurrogate : HasSurrogate entries
  · exact Or.inr (Or.inl ⟨hfolder, hsurrogate, gitTreeDigest_of_hasSurrogate hfolder hsurrogate⟩)
  · exact Or.inr (Or.inr ⟨hfolder, hsurrogate, gitTreeDigest_eq_ok hsafe hmodes hfolder hsurrogate⟩)

/-- The order of the entries does not matter. -/
theorem gitTreeDigest_congr {entries' : Dict Text (ℕ × List UInt8)}
    (hsafe : ∀ path ∈ entries.keys, isSafeRelativePath path = true)
    (hmodes : ∀ file ∈ entries.values, file.1 ∈ Git.fileModes)
    (hget : ∀ path, entries'.get? path = entries.get? path) : gitTreeDigest entries' = gitTreeDigest entries := by
  obtain ⟨hfolder, hsurrogate, hkeys, hvalues⟩ := hasFolder_congr hget
  have hcases := gitTreeDigest_cases (fun path hpath => hsafe path ((hkeys path).mp hpath))
    fun file hfile => hmodes file ((hvalues file).mp hfile)
  rw [hfolder, hsurrogate] at hcases
  rcases gitTreeDigest_cases hsafe hmodes with ⟨h, herror⟩ | ⟨h, h', herror⟩ | ⟨h, h', t, ht, hdigest⟩
  · rw [herror, (hcases.resolve_right (by tauto)).2]
  · rw [herror, ((hcases.resolve_left (by tauto)).resolve_right (by tauto)).2.2]
  · obtain ⟨-, -, t', ht', hdigest'⟩ := (hcases.resolve_left (by tauto)).resolve_left (by tauto)
    rw [hdigest, hdigest', (ht'.congr fun path => (hget path).symm).unique ht]

/-- The objects that Git stores for the trees of two mappings. -/
def storedObjects (entries entries' : Dict Text (ℕ × List UInt8)) : Set (List UInt8) :=
  {o | ∃ t, (IsGitTreeOf entries t ∨ IsGitTreeOf entries' t) ∧ o ∈ t.objects}

/-- Mappings with one digest are equal, unless the hash function collides. -/
theorem get?_eq_of_gitTreeDigest_eq {entries' : Dict Text (ℕ × List UInt8)}
    (hsafe : ∀ path ∈ entries.keys, isSafeRelativePath path = true)
    (hmodes : ∀ file ∈ entries.values, file.1 ∈ Git.fileModes)
    (hsafe' : ∀ path ∈ entries'.keys, isSafeRelativePath path = true)
    (hmodes' : ∀ file ∈ entries'.values, file.1 ∈ Git.fileModes)
    (hfree : Set.InjOn Sha1.digest (storedObjects entries entries')) {id : List Char}
    (h : gitTreeDigest entries = .ok id) (h' : gitTreeDigest entries' = .ok id) (path : Text) :
    entries'.get? path = entries.get? path := by
  rcases gitTreeDigest_cases hsafe hmodes with ⟨-, herror⟩ | ⟨-, -, herror⟩ | ⟨-, hsurrogate, t, ht, hdigest⟩
  · rw [h] at herror
    cases herror
  · rw [h] at herror
    cases herror
  rcases gitTreeDigest_cases hsafe' hmodes' with ⟨-, herror⟩ | ⟨-, -, herror⟩ | ⟨-, hsurrogate', t', ht', hdigest'⟩
  · rw [h'] at herror
    cases herror
  · rw [h'] at herror
    cases herror
  rw [h, Except.ok.injEq] at hdigest
  rw [h', hdigest, Except.ok.injEq] at hdigest'
  have hobject : t.object = t'.object := hfree ⟨t, Or.inl ht, Entry.object_mem_objects t⟩
    ⟨t', Or.inr ht', Entry.object_mem_objects t'⟩ (Entry.hex_injective hdigest')
  have hmode : t.modeText = t'.modeText := by
    have hleft := ht.isTree
    have hright := ht'.isTree
    cases t with
    | blob => cases hleft
    | tree =>
        cases t' with
        | blob => cases hright
        | tree => rfl
  have hstored : {o | o ∈ t.objects ∨ o ∈ t'.objects} ⊆ storedObjects entries entries' := by
    rintro o (ho | ho)
    · exact ⟨t, Or.inl ht, ho⟩
    · exact ⟨t', Or.inr ht', ho⟩
  have heq : t = t' := ht.wellFormed.eq_of_object_eq ht'.wellFormed (hfree.mono hstored) hmode hobject
  -- a path without surrogates is told by the bytes of its parts
  have hback : ∀ d d' : Dict Text (ℕ × List UInt8), ¬HasSurrogate d → ¬HasSurrogate d' → IsGitTreeOf d t →
      IsGitTreeOf d' t → ∀ x, d.get? path = some x → d'.get? path = some x := by
    intro d d' hd hd' hdt hdt' x hx
    obtain ⟨path', hx', hnames⟩ := (hdt'.find _ x).mp ((hdt.find _ x).mpr ⟨path, hx, rfl⟩)
    have hparts : ∀ (d : Dict Text (ℕ × List UInt8)) (p : Text), ¬HasSurrogate d → d.get? p = some x →
        ∀ part ∈ p.splitOn slash, ∀ c ∈ part, isSurrogate c = false := by
      intro d p hd hp part hpart c hc
      refine Bool.not_eq_true _ ▸ fun htrue => hd ⟨p, Dict.mem_keys.mpr ⟨x, hp⟩, c, ?_, htrue⟩
      exact Segments.mem_of_mem_splitOn hpart hc
    have hsplit : path'.splitOn slash = path.splitOn slash :=
      Entry.eq_of_map_eq (fun a ha b hb => Py.utf8_inj (hparts d' path' hd' hx' a ha) (hparts d path hd hx b hb)) hnames
    rw [← splitOn_slash_injective hsplit]
    exact hx'
  subst heq
  exact Option.ext fun x => ⟨hback entries' entries hsurrogate' hsurrogate ht' ht x,
    hback entries entries' hsurrogate hsurrogate' ht ht' x⟩

/-- Of files at safe paths, the digest is the name of the one Git tree that has them, in whatever order they come. It
fails if and only if a path is a folder of another one or has a surrogate. Unless the hash function collides, it is
that of no other files. -/
theorem gitTreeDigest_spec (hsafe : ∀ path ∈ entries.keys, isSafeRelativePath path = true)
    (hmodes : ∀ file ∈ entries.values, file.1 ∈ Git.fileModes) :
    (gitTreeDigest entries = .error treeInvalid ↔ HasFolder entries) ∧
    (gitTreeDigest entries = .error pathInvalid ↔ ¬HasFolder entries ∧ HasSurrogate entries) ∧
    (¬HasFolder entries → ¬HasSurrogate entries → ∃ t, IsGitTreeOf entries t ∧
      (∀ t', IsGitTreeOf entries t' → t' = t) ∧ gitTreeDigest entries = .ok (Git.hex (Sha1.digest t.object))) ∧
    (∀ entries', (∀ path, entries'.get? path = entries.get? path) →
      gitTreeDigest entries' = gitTreeDigest entries) ∧
    ∀ entries', (∀ path ∈ entries'.keys, isSafeRelativePath path = true) →
      (∀ file ∈ entries'.values, file.1 ∈ Git.fileModes) →
      Set.InjOn Sha1.digest (storedObjects entries entries') → ∀ id, gitTreeDigest entries = .ok id →
      gitTreeDigest entries' = .ok id → ∀ path, entries'.get? path = entries.get? path := by
  have hcases := gitTreeDigest_cases hsafe hmodes
  have hne : treeInvalid ≠ pathInvalid := by decide
  refine ⟨?_, ?_, fun hfolder hsurrogate => ?_, fun entries' => gitTreeDigest_congr hsafe hmodes,
    fun entries' hsafe' hmodes' hfree id => get?_eq_of_gitTreeDigest_eq hsafe hmodes hsafe' hmodes' hfree⟩
  · rcases hcases with ⟨h, herror⟩ | ⟨h, -, herror⟩ | ⟨h, -, t, -, hdigest⟩
    · exact iff_of_true herror h
    · rw [herror, Except.error.injEq]
      exact iff_of_false hne.symm h
    · rw [hdigest]
      exact iff_of_false nofun h
  · rcases hcases with ⟨h, herror⟩ | ⟨h, h', herror⟩ | ⟨-, h', t, -, hdigest⟩
    · rw [herror, Except.error.injEq]
      exact iff_of_false hne fun hboth => hboth.1 h
    · exact iff_of_true herror ⟨h, h'⟩
    · rw [hdigest]
      exact iff_of_false nofun fun hboth => h' hboth.2
  · obtain ⟨t, ht, hdigest⟩ := gitTreeDigest_eq_ok hsafe hmodes hfolder hsurrogate
    exact ⟨t, ht, fun t' ht' => ht'.unique ht, hdigest⟩

end Digest

namespace Demo

/-- A file whose name sorts before the folder's, and a file in the folder. -/
def archive : Dict Text (ℕ × List UInt8) :=
  ⟨[(Py.text "a/b", 100755, [121]), (Py.text "a.txt", 100644, [120])], by decide +kernel⟩

/-- The same files in another order. -/
def reordered : Dict Text (ℕ × List UInt8) :=
  ⟨[(Py.text "a.txt", 100644, [120]), (Py.text "a/b", 100755, [121])], by decide +kernel⟩

/-- A file whose name is a surrogate. -/
def unnamed : Dict Text (ℕ × List UInt8) := ⟨[([0xd800], 100644, [])], by decide +kernel⟩

/-- The mappings of the two files. -/
def archiveTree : List (Text × Node) :=
  [(Py.text "a", .node [(Py.text "b", .leaf (100755, [121]))]), (Py.text "a.txt", .leaf (100644, [120]))]

theorem treeOf_archive : treeOf archive.entries = .ok archiveTree := rfl

theorem archive_regular : (∀ path ∈ archive.keys, isSafeRelativePath path = true) ∧
    (∀ file ∈ archive.values, file.1 ∈ Git.fileModes) ∧ ¬HasFolder archive ∧ ¬HasSurrogate archive := by
  refine ⟨by decide +kernel, by decide +kernel, ?_, ?_⟩
  · have hfolder : ∀ p ∈ archive.keys, ∀ q ∈ archive.keys, ¬p ++ [slash] <+: q := by decide +kernel
    rintro ⟨p, hp, q, hq, hprefix⟩
    exact hfolder p hp q hq hprefix
  · have hsurrogate : archive.keys.all (fun p => p.all fun c => !isSurrogate c) = true := by decide +kernel
    rintro ⟨p, hp, c, hc, htrue⟩
    have hfalse := List.all_eq_true.mp (List.all_eq_true.mp hsurrogate p hp) c hc
    rw [htrue] at hfalse
    cases hfalse

theorem get?_reordered (path : Text) : reordered.get? path = archive.get? path := by
  refine Option.ext fun x => ?_
  rw [← Dict.mem_entries, ← Dict.mem_entries]
  exact (List.Perm.swap _ _ []).mem_iff

/-- The names of the files, of the folder and of the root. -/
def fileName : List UInt8 := [193, 176, 115, 14, 1, 51, 68, 123, 173, 207, 212, 127, 209, 68, 226, 84, 128, 123, 6, 225]

def executableName : List UInt8 := [226, 95, 24, 20, 229, 21, 121, 213, 245, 92, 15, 31, 224, 19, 93, 219, 40, 164, 127, 74]

def folderName : List UInt8 := [178, 88, 80, 48, 123, 51, 192, 194, 46, 44, 87, 120, 82, 12, 118, 91, 51, 102, 238, 181]

def rootName : List UInt8 := [32, 223, 101, 43, 137, 210, 53, 75, 203, 89, 87, 134, 15, 179, 193, 94, 174, 66, 92, 145]

def fileObject : List UInt8 := Git.objectBytes "blob" [120]

def executableObject : List UInt8 := Git.objectBytes "blob" [121]

def folderObject : List UInt8 :=
  Git.objectBytes "tree" (Git.record [98] (Git.decimal 100755) executableName)

def rootObject : List UInt8 :=
  Git.objectBytes "tree" (Git.record (Git.ascii "a.txt".toList) (Git.decimal 100644) fileName ++
    Git.record [97] (Git.ascii "40000".toList) folderName)

theorem digest_objects : ShaOne.digest fileObject = fileName ∧ ShaOne.digest executableObject = executableName ∧
    ShaOne.digest folderObject = folderName ∧ ShaOne.digest rootObject = rootName := by decide +kernel

/-- The objects of the two files. -/
theorem objects_archive : @Entry.objects ShaOne.sha1 (gitEntry (.node archiveTree)) =
    [rootObject, fileObject, folderObject, executableObject] := by
  obtain ⟨hfile, hexecutable, hfolder, -⟩ := digest_objects
  have htree : gitEntry (.node archiveTree) = .tree [(Git.ascii "a.txt".toList, .blob 100644 [120]),
      ([97], .tree [([98], .blob 100755 [121])])] := rfl
  have hfolderObject : @Entry.object ShaOne.sha1 (.tree [([98], .blob 100755 [121])]) = folderObject := by
    rw [folderObject, ← hexecutable]
    rfl
  have hrootObject : @Entry.object ShaOne.sha1 (gitEntry (.node archiveTree)) = rootObject := by
    rw [rootObject, ← hfile, ← hfolder, ← hfolderObject, htree]
    rfl
  have hlist : @Entry.objects ShaOne.sha1 (gitEntry (.node archiveTree)) =
      [@Entry.object ShaOne.sha1 (gitEntry (.node archiveTree)), @Entry.object ShaOne.sha1 (.blob 100644 [120]),
        @Entry.object ShaOne.sha1 (.tree [([98], .blob 100755 [121])]),
        @Entry.object ShaOne.sha1 (.blob 100755 [121])] := rfl
  rw [hlist, hrootObject, hfolderObject]
  rfl

/-- SHA-1 does not collide on the objects of the two files. -/
theorem injOn_archive : Set.InjOn (@Sha1.digest ShaOne.sha1) (@storedObjects ShaOne.sha1 archive reordered) := by
  obtain ⟨hsafe, hmodes, -, hsurrogate⟩ := archive_regular
  have htree := (@gitTreeDigest_of_treeOf ShaOne.sha1 archive hsafe hmodes hsurrogate archiveTree treeOf_archive).1
  have hobjects : ∀ o ∈ @storedObjects ShaOne.sha1 archive reordered,
      o ∈ [rootObject, fileObject, folderObject, executableObject] := by
    rw [← objects_archive]
    rintro o ⟨t, ht | ht, ho⟩
    · rwa [htree.unique ht]
    · rwa [htree.unique (ht.congr fun path => (get?_reordered path).symm)]
  have hnodup : ([rootObject, fileObject, folderObject, executableObject].map ShaOne.digest).Nodup := by
    obtain ⟨hfile, hexecutable, hfolder, hroot⟩ := digest_objects
    rw [List.map_cons, List.map_cons, List.map_cons, List.map_cons, hfile, hexecutable, hfolder, hroot]
    decide
  exact fun o ho o' ho' => List.inj_on_of_nodup_map hnodup (hobjects o ho) (hobjects o' ho')

end Demo

theorem gitTreeDigest_spec_archive :
    @gitTreeDigest ShaOne.sha1 Demo.archive = .ok "20df652b89d2354bcb5957860fb3c15eae425c91".toList ∧
      ∀ path, Demo.reordered.get? path = Demo.archive.get? path := by
  obtain ⟨hsafe, hmodes, hfolder, hsurrogate⟩ := Demo.archive_regular
  have htree := (@gitTreeDigest_of_treeOf ShaOne.sha1 Demo.archive hsafe hmodes hsurrogate Demo.archiveTree
    Demo.treeOf_archive).1
  obtain ⟨-, -, hdigest, hcongr, hinjective⟩ := @gitTreeDigest_spec ShaOne.sha1 Demo.archive hsafe hmodes
  obtain ⟨t, ht, -, hok⟩ := hdigest hfolder hsurrogate
  have hroot : @Entry.object ShaOne.sha1 t = Demo.rootObject := by
    have hobjects := Demo.objects_archive
    rw [htree.unique ht] at hobjects
    cases t with
    | blob => cases ht.isTree
    | tree children => exact (List.cons.inj hobjects).1
  have hid : @gitTreeDigest ShaOne.sha1 Demo.archive = .ok "20df652b89d2354bcb5957860fb3c15eae425c91".toList := by
    rw [hok, hroot]
    change Except.ok (Git.hex (ShaOne.digest Demo.rootObject)) = _
    rw [Demo.digest_objects.2.2.2]
    decide
  refine ⟨hid, hinjective Demo.reordered ?_ ?_ Demo.injOn_archive _ hid
    ((hcongr Demo.reordered Demo.get?_reordered).trans hid)⟩
  · decide +kernel
  · decide +kernel

/-- A file without a name in UTF-8 has no digest, though its path is no folder. -/
theorem gitTreeDigest_counterexample :
    ((∀ path ∈ Demo.unnamed.keys, isSafeRelativePath path = true) ∧
      (∀ file ∈ Demo.unnamed.values, file.1 ∈ Git.fileModes) ∧ ¬HasFolder Demo.unnamed) ∧
    @gitTreeDigest ShaOne.sha1 Demo.unnamed = .error pathInvalid := by
  refine ⟨⟨by decide +kernel, by decide +kernel, ?_⟩, rfl⟩
  rintro ⟨p, hp, q, hq, hprefix⟩
  cases List.mem_singleton.mp hp
  cases List.mem_singleton.mp hq
  revert hprefix
  decide +kernel

end StateWeaver.Candidate
