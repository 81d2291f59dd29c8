import Mathlib
import StateWeaver.Lib.Arranged
import StateWeaver.Lib.Framing

/-!
# Git trees

A Git tree is named by the hash of its records, one for each entry, in which the entries are named by their own
hashes. The records come in the order of the names, where the name of a subtree counts as if it ended in a slash.
A well-formed tree is determined by the files at its paths (`Entry.WellFormed.ext_find`), and by its hash unless
the hash function collides on the objects of trees (`Entry.WellFormed.eq_of_object_eq`).
-/

namespace Git

abbrev Bytes := List UInt8

/-- A hash function with digests of 20 bytes. -/
class Sha1 where
  digest : Bytes → Bytes
  length_digest : ∀ message, (digest message).length = 20

/-! ## Objects -/

/-- The codes of a text of ASCII characters. -/
def ascii (s : List Char) : Bytes := s.map fun c => UInt8.ofNat c.toNat

/-- A number in decimal digits. -/
def decimal (n : ℕ) : Bytes := ascii (Nat.toDigits 10 n)

/-- An object of some kind, with its length in front. -/
def objectBytes (kind : String) (content : Bytes) : Bytes :=
  ascii kind.toList ++ 32 :: decimal content.length ++ 0 :: content

/-- The two digits of a byte. -/
def hexByte (b : UInt8) : List Char := [Nat.digitChar (b.toNat / 16), Nat.digitChar (b.toNat % 16)]

/-- The digits of bytes. -/
def hex (bytes : Bytes) : List Char := bytes.flatMap hexByte

/-- What a tree says about one of its entries. -/
def record (name mode digest : Bytes) : Bytes := mode ++ 32 :: name ++ 0 :: digest

/-- A file with its mode in decimal notation, or a tree of named entries. -/
inductive Entry where
  | blob (mode : ℕ) (content : Bytes)
  | tree (children : List (Bytes × Entry))

/-- The modes of files: not executable, executable, and a symbolic link. -/
def fileModes : List ℕ := [100644, 100755, 120000]

/-- What a name is compared by, a number for each byte. -/
def nameKey (name : Bytes) (isTree : Bool) : List ℕ := (name ++ if isTree then [47] else []).map UInt8.toNat

theorem nameKey_inj {name name' : Bytes} {isTree isTree' : Bool} (h : 47 ∉ name) (h' : 47 ∉ name')
    (heq : nameKey name isTree = nameKey name' isTree') : name = name' := by
  have hbytes := (List.map_injective_iff.mpr fun _ _ => UInt8.toNat_inj.mp) heq
  cases isTree <;> cases isTree'
  · rwa [if_neg Bool.false_ne_true, List.append_nil, List.append_nil] at hbytes
  · rw [if_neg Bool.false_ne_true, if_pos rfl, List.append_nil] at hbytes
    exact absurd (hbytes ▸ List.mem_append_right _ List.mem_cons_self) h
  · rw [if_neg Bool.false_ne_true, if_pos rfl, List.append_nil] at hbytes
    exact absurd (hbytes ▸ List.mem_append_right _ List.mem_cons_self) h'
  · rw [if_pos rfl] at hbytes
    exact List.append_cancel_right hbytes

namespace Entry

def isTree : Entry → Bool
  | .blob _ _ => false
  | .tree _ => true

def modeText : Entry → Bytes
  | .blob mode _ => decimal mode
  | .tree _ => ascii ['4', '0', '0', '0', '0']

/-- What the entries of a tree are ordered by. -/
def key (child : Bytes × Entry) : List ℕ := nameKey child.1 child.2.isTree

/-- The file at a path. -/
def find : List Bytes → Entry → Option (ℕ × Bytes)
  | [], .blob mode content => some (mode, content)
  | name :: path, .tree children => (children.lookup name).bind (find path)
  | _, _ => none

section Objects

variable [Sha1]

mutual

/-- The object that an entry is stored as. -/
def object : Entry → Bytes
  | .blob _ content => objectBytes "blob" content
  | .tree children => objectBytes "tree" (records children)

def records : List (Bytes × Entry) → Bytes
  | [] => []
  | (name, child) :: rest => record name child.modeText (Sha1.digest (object child)) ++ records rest

end

mutual

/-- The objects of an entry and of everything in it. -/
def objects : Entry → List Bytes
  | .blob mode content => [object (.blob mode content)]
  | .tree children => object (.tree children) :: childrenObjects children

def childrenObjects : List (Bytes × Entry) → List Bytes
  | [] => []
  | (_, child) :: rest => objects child ++ childrenObjects rest

end

theorem records_eq (children : List (Bytes × Entry)) : records children =
    (children.map fun p => (p.1, p.2.modeText, Sha1.digest p.2.object)).flatMap fun r => record r.1 r.2.1 r.2.2 := by
  induction children with
  | nil => rfl
  | cons p rest ih =>
      rw [records, ih]
      rfl

theorem object_mem_objects (e : Entry) : e.object ∈ e.objects := by
  cases e <;> exact List.mem_cons_self

theorem mem_childrenObjects {children : List (Bytes × Entry)} {o : Bytes} :
    o ∈ childrenObjects children ↔ ∃ p ∈ children, o ∈ p.2.objects := by
  induction children with
  | nil => exact iff_of_false List.not_mem_nil (by rintro ⟨_, hmem, -⟩; cases hmem)
  | cons p rest ih => rw [childrenObjects, List.mem_append, ih, List.exists_mem_cons_iff]

end Objects

/-! ## Well-formed trees -/

/-- A name in a tree. -/
def IsName (name : Bytes) : Prop := name ≠ [] ∧ 0 ∉ name ∧ 47 ∉ name

/-- A tree as Git keeps it: ordered, without two entries of one name and without empty subtrees. -/
inductive WellFormed : Entry → Prop
  | blob {mode : ℕ} {content : Bytes} (hmode : mode ∈ fileModes) : WellFormed (.blob mode content)
  | tree {children : List (Bytes × Entry)} (hsorted : children.Pairwise fun a b => key a < key b)
      (hnodup : (children.map Prod.fst).Nodup) (hnames : ∀ p ∈ children, IsName p.1)
      (hne : ∀ p ∈ children, p.2 ≠ .tree []) (hchildren : ∀ p ∈ children, WellFormed p.2) :
      WellFormed (.tree children)

theorem mem_of_find {name : Bytes} {path : List Bytes} {children : List (Bytes × Entry)} {x : ℕ × Bytes}
    (h : find (name :: path) (.tree children) = some x) : ∃ e, (name, e) ∈ children ∧ e.find path = some x := by
  obtain ⟨e, hlookup, hfind⟩ := Option.bind_eq_some_iff.mp h
  obtain ⟨before, after, heq, -⟩ := List.lookup_eq_some_iff.mp hlookup
  refine ⟨e, ?_, hfind⟩
  rw [heq]
  exact List.mem_append_right _ List.mem_cons_self

theorem lookup_of_mem {children : List (Bytes × Entry)} (hnodup : (children.map Prod.fst).Nodup) {name : Bytes}
    {e : Entry} (h : (name, e) ∈ children) : children.lookup name = some e := by
  obtain ⟨before, after, rfl⟩ := List.append_of_mem h
  refine List.lookup_eq_some_iff.mpr ⟨before, after, rfl, fun p hp => ?_⟩
  rw [List.map_append, List.map_cons, List.nodup_append] at hnodup
  exact bne_iff_ne.mpr (hnodup.2.2 p.1 (List.mem_map_of_mem hp) name List.mem_cons_self).symm

theorem find_of_mem {children : List (Bytes × Entry)} (hnodup : (children.map Prod.fst).Nodup) {name : Bytes}
    {e : Entry} (h : (name, e) ∈ children) (path : List Bytes) :
    find (name :: path) (.tree children) = e.find path := by
  rw [find, lookup_of_mem hnodup h, Option.bind_some]

/-- There is a file in a tree that is not empty. -/
theorem WellFormed.exists_find {e : Entry} (h : e.WellFormed) (hne : e ≠ .tree []) :
    ∃ path x, e.find path = some x := by
  induction h with
  | blob hmode => exact ⟨[], _, rfl⟩
  | @tree children hsorted hnodup hnames hsubtrees hchildren ih =>
      obtain ⟨⟨name, e⟩, rest, rfl⟩ := List.exists_cons_of_ne_nil (l := children) fun heq =>
        hne (congrArg Entry.tree heq)
      obtain ⟨path, x, hfind⟩ := ih (name, e) List.mem_cons_self (hsubtrees _ List.mem_cons_self)
      exact ⟨name :: path, x, (find_of_mem hnodup List.mem_cons_self path).trans hfind⟩

/-! ## Trees with the same files -/

theorem pairwise_iff_key {children : List (Bytes × Entry)} : (children.Pairwise fun a b => key a < key b) ↔
    ∃ arranged : Arranged key, arranged.items = children :=
  ⟨fun h => ⟨⟨children, h⟩, rfl⟩, fun ⟨arranged, h⟩ => h ▸ arranged.sorted⟩

/-- The files at all paths determine a well-formed tree. -/
theorem WellFormed.ext_find {e e' : Entry} (h : e.WellFormed) (h' : e'.WellFormed) (hne : e ≠ .tree [])
    (hfind : ∀ path, e.find path = e'.find path) : e = e' := by
  induction h generalizing e' with
  | @blob mode content hmode =>
      cases h' with
      | blob hmode' =>
          have hroot := Option.some.inj (hfind [])
          rw [(Prod.mk.inj hroot).1, (Prod.mk.inj hroot).2]
      | tree => cases hfind []
  | @tree children hsorted hnodup hnames hsubtrees hchildren ih =>
      cases h' with
      | blob => cases hfind []
      | @tree children' hsorted' hnodup' hnames' hsubtrees' hchildren' =>
          -- a child has a file, so there is a child of its name on the other side, which has the same files
          have hfound : ∀ name c, (name, c) ∈ children → (name, c) ∈ children' := by
            intro name c hmem
            obtain ⟨path, x, hx⟩ := (hchildren _ hmem).exists_find (hsubtrees _ hmem)
            obtain ⟨c', hmem', -⟩ := mem_of_find ((hfind (name :: path)).symm.trans
              ((find_of_mem hnodup hmem path).trans hx))
            have heq : c = c' := ih _ hmem (hchildren' _ hmem') (hsubtrees _ hmem) fun path => by
              rw [← find_of_mem hnodup hmem, hfind, find_of_mem hnodup' hmem']
            rw [heq]
            exact hmem'
          have hback : ∀ name c, (name, c) ∈ children' → (name, c) ∈ children := by
            intro name c' hmem'
            obtain ⟨path, x, hx⟩ := (hchildren' _ hmem').exists_find (hsubtrees' _ hmem')
            obtain ⟨c, hmem, -⟩ := mem_of_find ((hfind (name :: path)).trans
              ((find_of_mem hnodup' hmem' path).trans hx))
            have heq : c = c' := ih _ hmem (hchildren' _ hmem') (hsubtrees _ hmem) fun path => by
              rw [← find_of_mem hnodup hmem, hfind, find_of_mem hnodup' hmem']
            rw [← heq]
            exact hmem
          obtain ⟨arranged, rfl⟩ := pairwise_iff_key.mp hsorted
          obtain ⟨arranged', rfl⟩ := pairwise_iff_key.mp hsorted'
          have heq : arranged = arranged' := Arranged.ext_of_mem fun p => ⟨hfound p.1 p.2, hback p.1 p.2⟩
          rw [heq]

/-! ## Objects determine trees -/

theorem not_mem_ascii {s : List Char} {b : UInt8} (h : ∀ c ∈ s, UInt8.ofNat c.toNat ≠ b) : b ∉ ascii s := by
  intro hmem
  obtain ⟨c, hc, rfl⟩ := List.mem_map.mp hmem
  exact h c hc rfl

/-- A number is written in digits. -/
theorem not_mem_decimal {n : ℕ} {b : UInt8} (hb : b.toNat < 48) : b ∉ decimal n := by
  refine not_mem_ascii fun c hc heq => ?_
  have hdigit := Nat.isDigit_of_mem_toDigits (by decide) (by decide) hc
  rw [Char.isDigit, Bool.and_eq_true, decide_eq_true_eq, decide_eq_true_eq] at hdigit
  have hlow : 48 ≤ c.toNat := UInt32.le_iff_toNat_le.mp hdigit.1
  have hhigh : c.toNat ≤ 57 := UInt32.le_iff_toNat_le.mp hdigit.2
  rw [← heq, UInt8.toNat_ofNat', Nat.mod_eq_of_lt (by omega)] at hb
  omega

theorem append_cons_inj {a : UInt8} {l k rest rest' : Bytes} (hl : a ∉ l) (hk : a ∉ k)
    (h : l ++ a :: rest = k ++ a :: rest') : l = k ∧ rest = rest' := by
  rw [List.append_cons l, List.append_cons k] at h
  exact Framing.selfDelimiting_terminated a hl hk h

theorem objectBytes_inj {kind : String} {content content' : Bytes}
    (h : objectBytes kind content = objectBytes kind content') : content = content' := by
  rw [objectBytes, objectBytes, List.append_assoc, List.append_assoc] at h
  have hrest := (List.cons.inj (List.append_cancel_left h)).2
  exact (append_cons_inj (not_mem_decimal (by decide)) (not_mem_decimal (by decide)) hrest).2

theorem not_mem_modeText (e : Entry) : (32 : UInt8) ∉ e.modeText := by
  cases e with
  | blob mode content => exact not_mem_decimal (by decide)
  | tree children => exact not_mem_ascii (by simp)

/-- The mode tells files from trees. -/
theorem modeText_ne {mode : ℕ} (hmode : mode ∈ fileModes) : decimal mode ≠ ascii ['4', '0', '0', '0', '0'] := by
  have hall : ∀ mode ∈ fileModes, decimal mode ≠ ascii ['4', '0', '0', '0', '0'] := by decide +kernel
  exact hall mode hmode

theorem decimal_inj_of_mem {mode mode' : ℕ} (hmode : mode ∈ fileModes) (hmode' : mode' ∈ fileModes)
    (h : decimal mode = decimal mode') : mode = mode' := by
  have hall : ∀ mode ∈ fileModes, ∀ mode' ∈ fileModes, decimal mode = decimal mode' → mode = mode' := by
    decide +kernel
  exact hall mode hmode mode' hmode' h

theorem eq_of_map_eq {α β : Type} {f : α → β} {l l' : List α} (hinj : ∀ a ∈ l, ∀ b ∈ l', f a = f b → a = b)
    (h : l.map f = l'.map f) : l = l' := by
  induction l generalizing l' with
  | nil => exact (List.map_eq_nil_iff.mp h.symm).symm
  | cons a l ih =>
      obtain ⟨b, l', rfl, hab, hrest⟩ := List.map_eq_cons_iff.mp h.symm
      rw [hinj a List.mem_cons_self b List.mem_cons_self hab.symm, ih (fun a ha b hb =>
        hinj a (List.mem_cons_of_mem _ ha) b (List.mem_cons_of_mem _ hb)) hrest.symm]

/-- A record ends where it says. -/
theorem selfDelimiting_record : Framing.SelfDelimiting
    (fun r : Bytes × Bytes × Bytes => record r.1 r.2.1 r.2.2)
    fun r => 0 ∉ r.1 ∧ 32 ∉ r.2.1 ∧ r.2.2.length = 20 := by
  rintro ⟨name, mode, digest⟩ ⟨name', mode', digest'⟩ ⟨hname, hmode, hlength⟩ ⟨hname', hmode', hlength'⟩ rest rest' h
  simp only [record, List.append_assoc, List.cons_append] at h hname hname' hmode hmode' hlength hlength'
  obtain ⟨rfl, hafter⟩ := append_cons_inj hmode hmode' h
  obtain ⟨rfl, hdigest⟩ := append_cons_inj hname hname' hafter
  obtain ⟨rfl, hrest⟩ := List.append_inj hdigest (hlength.trans hlength'.symm)
  exact ⟨rfl, hrest⟩

theorem digitChar_inj : ∀ d < 16, ∀ d' < 16, Nat.digitChar d = Nat.digitChar d' → d = d' := by decide

theorem hexByte_inj {a b : UInt8} (h : hexByte a = hexByte b) : a = b := by
  obtain ⟨hhigh, hrest⟩ := List.cons.inj h
  have hlow := (List.cons.inj hrest).1
  have ha := a.toNat_lt
  have hb := b.toNat_lt
  have hdiv := digitChar_inj _ (by omega) _ (by omega) hhigh
  have hmod := digitChar_inj _ (by omega) _ (by omega) hlow
  exact UInt8.toNat_inj.mp (by omega)

theorem hex_injective : Function.Injective hex := by
  have hlength : ∀ b, (hexByte b).length = 2 := fun _ => rfl
  have hself : Framing.SelfDelimiting hexByte fun _ => True :=
    Framing.selfDelimiting_of_length hlength fun _ _ _ _ => hexByte_inj
  exact fun l l' h => hself.flatMap_inj (fun _ _ => List.cons_ne_nil _ _) (fun _ _ => trivial)
    (fun _ _ => trivial) h

section Digests

variable [Sha1]

theorem children_eq_of_records_eq {children children' : List (Bytes × Entry)}
    (hnames : ∀ p ∈ children, IsName p.1) (hnames' : ∀ p ∈ children', IsName p.1)
    (hdigests : ∀ p ∈ children, ∀ p' ∈ children', p.2.modeText = p'.2.modeText →
      Sha1.digest p.2.object = Sha1.digest p'.2.object → p.2 = p'.2)
    (h : records children = records children') : children = children' := by
  have hvalid : ∀ l : List (Bytes × Entry), (∀ p ∈ l, IsName p.1) →
      ∀ r ∈ l.map fun p => (p.1, p.2.modeText, Sha1.digest p.2.object),
        0 ∉ r.1 ∧ 32 ∉ r.2.1 ∧ r.2.2.length = 20 := by
    intro l hl r hr
    obtain ⟨p, hp, rfl⟩ := List.mem_map.mp hr
    exact ⟨(hl p hp).2.1, not_mem_modeText p.2, Sha1.length_digest _⟩
  rw [records_eq, records_eq] at h
  have htriples := selfDelimiting_record.flatMap_inj
    (fun r _ => List.append_ne_nil_of_right_ne_nil _ (List.cons_ne_nil _ _)) (hvalid _ hnames) (hvalid _ hnames') h
  refine eq_of_map_eq (fun p hp p' hp' heq => ?_) htriples
  obtain ⟨hname, hrest⟩ := Prod.mk.inj heq
  obtain ⟨hmode, hdigest⟩ := Prod.mk.inj hrest
  exact Prod.ext hname (hdigests p hp p' hp' hmode hdigest)

/-- Trees with one object are one tree, and so are files if they have one mode, unless the hash function collides on
the objects in them. -/
theorem WellFormed.eq_of_object_eq {e e' : Entry} (h : e.WellFormed) (h' : e'.WellFormed)
    (hfree : Set.InjOn Sha1.digest {o | o ∈ e.objects ∨ o ∈ e'.objects}) (hmode : e.modeText = e'.modeText)
    (hobject : e.object = e'.object) : e = e' := by
  induction h generalizing e' with
  | @blob mode content hin =>
      cases h' with
      | blob hin' =>
          rw [object, object] at hobject
          rw [objectBytes_inj hobject, decimal_inj_of_mem hin hin' hmode]
      | tree => exact absurd hmode (modeText_ne hin)
  | @tree children hsorted hnodup hnames hsubtrees hchildren ih =>
      cases h' with
      | blob hin' => exact absurd hmode.symm (modeText_ne hin')
      | @tree children' hsorted' hnodup' hnames' hsubtrees' hchildren' =>
          rw [object, object] at hobject
          refine congrArg Entry.tree (children_eq_of_records_eq hnames hnames' ?_ (objectBytes_inj hobject))
          intro p hp p' hp' hmodes hdigests
          have hleft : ∀ o ∈ p.2.objects, o ∈ (Entry.tree children).objects := fun o ho =>
            List.mem_cons_of_mem _ (mem_childrenObjects.mpr ⟨p, hp, ho⟩)
          have hright : ∀ o ∈ p'.2.objects, o ∈ (Entry.tree children').objects := fun o ho =>
            List.mem_cons_of_mem _ (mem_childrenObjects.mpr ⟨p', hp', ho⟩)
          refine ih p hp (hchildren' p' hp') (hfree.mono fun o ho => ho.imp (hleft o) (hright o)) hmodes ?_
          exact hfree (Or.inl (hleft _ (object_mem_objects _))) (Or.inr (hright _ (object_mem_objects _))) hdigests

end Digests

end Entry

end Git
