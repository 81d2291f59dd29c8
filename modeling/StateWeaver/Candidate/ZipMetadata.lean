import StateWeaver.Candidate.Common
import StateWeaver.Lib.Imperative
import StateWeaver.Lib.Records

/-!
# The central directory of an archive

Before `zipfile` reads an archive, the end record of its central directory is checked for the size and the number of
members that it declares. `zipfile` then takes the size from a ZIP64 end record, if one stands before the end record,
and reads members until the directory is used up, whatever their declared number is. The check binds what is read
exactly if neither makes a difference (`preflightZipMetadata_spec`).
-/

namespace StateWeaver.Candidate

open Records (field rfind)

/-! ## The check -/

def maxArchiveMembers : ℕ := 10000

def maxArchiveCentralDirectoryBytes : ℕ := 16 * 1024 * 1024

/-- `PK\x05\x06`, what an end record starts with. -/
def endRecordSignature : List UInt8 := [0x50, 0x4b, 0x05, 0x06]

def eocdSize : ℕ := 22

def archiveIntegrityFailed : Failure := .candidate "archive-integrity-failed"

/-- The fields of an end record behind its signature. -/
structure EndRecord where
  diskNumber : ℕ
  centralDisk : ℕ
  diskEntries : ℕ
  totalEntries : ℕ
  centralSize : ℕ
  centralOffset : ℕ
  commentSize : ℕ

/-- The fields at a place: `<4s4H2LH`. -/
def endRecord (content : List UInt8) (offset : ℕ) : EndRecord where
  diskNumber := field content (offset + 4) 2
  centralDisk := field content (offset + 6) 2
  diskEntries := field content (offset + 8) 2
  totalEntries := field content (offset + 10) 2
  centralSize := field content (offset + 12) 4
  centralOffset := field content (offset + 16) 4
  commentSize := field content (offset + 20) 2

/-- The checks of the fields. -/
def checkEndRecord (length offset : ℕ) (r : EndRecord) : Except Failure Unit := do
  Imp.require (offset + eocdSize + r.commentSize = length) archiveIntegrityFailed
  Imp.require (r.diskNumber = 0 ∧ r.centralDisk = 0 ∧ r.diskEntries = r.totalEntries ∧ r.totalEntries ≠ 0xffff ∧
    r.centralSize ≠ 0xffffffff ∧ r.centralOffset ≠ 0xffffffff) (.candidate "archive-zip64-or-multidisk-forbidden")
  Imp.require (r.totalEntries ≤ maxArchiveMembers) (.candidate "archive-member-count-limit")
  Imp.require (r.centralSize ≤ maxArchiveCentralDirectoryBytes) (.candidate "archive-central-directory-size-limit")
  Imp.require (r.centralOffset + r.centralSize ≤ offset) archiveIntegrityFailed

/-- `_preflight_zip_metadata`. A comment has at most 65535 bytes. -/
def preflightZipMetadata (content : List UInt8) : Except Failure Unit := do
  let eocdOffset ← orRaise (rfind content endRecordSignature (content.length - (65535 + eocdSize)))
    archiveIntegrityFailed
  Imp.require (eocdOffset + eocdSize ≤ content.length) archiveIntegrityFailed
  checkEndRecord content.length eocdOffset (endRecord content eocdOffset)

/-! ## What `zipfile` reads -/

/-- Whether an end record with a comment up to the end of the content stands at a place. -/
def IsEndRecord (content : List UInt8) (i : ℕ) : Prop :=
  endRecordSignature <+: content.drop i ∧ i + eocdSize ≤ content.length ∧
    i + eocdSize + (endRecord content i).commentSize = content.length

instance (content : List UInt8) (i : ℕ) : Decidable (IsEndRecord content i) :=
  inferInstanceAs (Decidable (_ ∧ _))

/-- The end record that `zipfile` takes: the last one. -/
def zipfileEndRecord (content : List UInt8) : Option ℕ :=
  (List.range content.length).reverse.find? fun i => decide (IsEndRecord content i)

def zip64LocatorSignature : List UInt8 := [0x50, 0x4b, 0x06, 0x07]

def zip64Signature : List UInt8 := [0x50, 0x4b, 0x06, 0x06]

/-- What stands before an end record. -/
inductive Zip64 where
  | absent
  /-- A locator of several disks, for which `BadZipFile` is raised. -/
  | spanned
  /-- A locator and an end record of its own, with the size of the directory. -/
  | present (size : ℕ)
  deriving DecidableEq

/-- `_EndRecData64`: 20 bytes of a locator and 56 bytes of a record. A place before the start of the content is its
start. -/
def zip64 (content : List UInt8) (i : ℕ) : Zip64 :=
  let locator := (content.drop (i - 20)).take 20
  let record := (content.drop (i - 76)).take 56
  if locator.length ≠ 20 ∨ ¬zip64LocatorSignature <+: locator then .absent
  else if field locator 4 4 ≠ 0 ∨ 1 < field locator 16 4 then .spanned
  else if record.length ≠ 56 ∨ ¬zip64Signature <+: record then .absent
  else .present (field record 40 8)

/-- Where a directory is read. -/
structure Directory where
  start : ℕ
  size : ℕ
  deriving DecidableEq

/-- Where `zipfile` reads the directory: up to the end record, or up to the ZIP64 records. If the content does not have
as many bytes there, `BadZipFile` is raised. -/
def loadedDirectory (content : List UInt8) (i : ℕ) : Option Directory :=
  match zip64 content i with
  | .absent => if (endRecord content i).centralSize ≤ i then
      some ⟨i - (endRecord content i).centralSize, (endRecord content i).centralSize⟩ else none
  | .spanned => none
  | .present size => if size + 76 ≤ i then some ⟨i - 76 - size, size⟩ else none

def memberSignature : List UInt8 := [0x50, 0x4b, 0x01, 0x02]

/-- The number of members that are read from a directory, one object for each, until it is used up or a member is not
readable. The names and the extra fields are decoded by `zipfile`. -/
def loadedMembers (readable : List UInt8 → Bool) : ℕ → List UInt8 → ℕ
  | 0, _ => 0
  | fuel + 1, rest =>
      let length := 46 + field rest 28 2 + field rest 30 2 + field rest 32 2
      if 46 ≤ rest.length ∧ memberSignature <+: rest ∧ readable (rest.take length) then
        loadedMembers readable fuel (rest.drop length) + 1
      else 0

/-- The number of members of a directory. Every member has a byte. -/
def Directory.members (readable : List UInt8 → Bool) (content : List UInt8) (d : Directory) : ℕ :=
  loadedMembers readable d.size ((content.drop d.start).take d.size)

/-! ## The record that was checked -/

theorem zipfileEndRecord_eq_some {content : List UInt8} {i : ℕ} (h : IsEndRecord content i)
    (hlast : ∀ j, IsEndRecord content j → j ≤ i) : zipfileEndRecord content = some i := by
  have hlt : i < content.length := by
    have hle := h.2.1
    have hsize : 0 < eocdSize := by decide
    omega
  cases hfind : zipfileEndRecord content with
  | none =>
      have hall := List.find?_eq_none.mp hfind i (List.mem_reverse.mpr (List.mem_range.mpr hlt))
      exact absurd (decide_eq_true h) hall
  | some j =>
      obtain ⟨hj, before, after, hsplit, hbefore⟩ := List.find?_eq_some_iff_append.mp hfind
      have hj : IsEndRecord content j := of_decide_eq_true hj
      refine congrArg some (le_antisymm (hlast j hj) ?_)
      have hmem : i ∈ before ++ j :: after := hsplit ▸ List.mem_reverse.mpr (List.mem_range.mpr hlt)
      have hdescending : (before ++ j :: after).Pairwise (· > ·) :=
        hsplit ▸ List.pairwise_reverse.mpr List.pairwise_lt_range
      rcases List.mem_append.mp hmem with hbefore' | hafter
      · have hfalse := hbefore i hbefore'
        simp [h] at hfalse
      · rcases List.mem_cons.mp hafter with rfl | hafter
        · exact le_rfl
        · exact (List.rel_of_pairwise_cons (List.pairwise_append.mp hdescending).2.1 hafter).le

theorem checkEndRecord_eq_ok {length offset : ℕ} {r : EndRecord} {u : Unit}
    (h : checkEndRecord length offset r = .ok u) : offset + eocdSize + r.commentSize = length ∧
      r.totalEntries ≤ maxArchiveMembers ∧ r.centralSize ≤ maxArchiveCentralDirectoryBytes ∧
      r.centralOffset + r.centralSize ≤ offset := by
  obtain ⟨_, hcomment, h⟩ := Imp.except_bind_eq_ok.mp h
  obtain ⟨_, -, h⟩ := Imp.except_bind_eq_ok.mp h
  obtain ⟨_, hentries, h⟩ := Imp.except_bind_eq_ok.mp h
  obtain ⟨_, hsize, h⟩ := Imp.except_bind_eq_ok.mp h
  exact ⟨Imp.require_eq_ok.mp hcomment, Imp.require_eq_ok.mp hentries, Imp.require_eq_ok.mp hsize,
    Imp.require_eq_ok.mp h⟩

/-- What the check establishes: the record it checked is the one that `zipfile` takes, and its fields are bounded. -/
structure Checked (content : List UInt8) (i : ℕ) : Prop where
  taken : zipfileEndRecord content = some i
  isEndRecord : IsEndRecord content i
  entries : (endRecord content i).totalEntries ≤ maxArchiveMembers
  size : (endRecord content i).centralSize ≤ maxArchiveCentralDirectoryBytes
  fits : (endRecord content i).centralOffset + (endRecord content i).centralSize ≤ i

/-- The place where the check finds an end record. -/
def checkedPlace (content : List UInt8) : Option ℕ :=
  rfind content endRecordSignature (content.length - (65535 + eocdSize))

theorem exists_checked {content : List UInt8} (h : preflightZipMetadata content = .ok ()) :
    ∃ i, checkedPlace content = some i ∧ Checked content i := by
  obtain ⟨i, hfind, h⟩ := Imp.except_bind_eq_ok.mp h
  obtain ⟨_, hlength, h⟩ := Imp.except_bind_eq_ok.mp h
  have hfind := orRaise_eq_ok.mp hfind
  obtain ⟨-, hsignature, hlater⟩ := Records.rfind_eq_some (by decide) hfind
  obtain ⟨hcomment, hentries, hsize, hfits⟩ := checkEndRecord_eq_ok h
  have hrecord : IsEndRecord content i := ⟨hsignature, Imp.require_eq_ok.mp hlength, hcomment⟩
  refine ⟨i, hfind, zipfileEndRecord_eq_some hrecord fun j hj => ?_, hrecord, hentries, hsize, hfits⟩
  by_contra hlt
  exact hlater j (not_le.mp hlt) hj.1

/-! ## The bounds -/

/-- Whether a directory is within the bounds and in front of an end record. -/
structure Directory.Bounded (readable : List UInt8 → Bool) (content : List UInt8) (i : ℕ) (d : Directory) : Prop where
  inFront : d.start + d.size ≤ i
  size : d.size ≤ maxArchiveCentralDirectoryBytes
  members : d.members readable content ≤ maxArchiveMembers

/-- Where a directory is read, by what stands before the end record. -/
theorem loadedDirectory_eq_some {content : List UInt8} {i : ℕ} {d : Directory}
    (h : loadedDirectory content i = some d) :
    (d.size = (endRecord content i).centralSize ∧ d.start + d.size = i) ∨
      ∃ size, zip64 content i = .present size ∧ size + 76 ≤ i ∧ d = ⟨i - 76 - size, size⟩ := by
  unfold loadedDirectory at h
  cases hzip : zip64 content i with
  | absent =>
      rw [hzip] at h
      obtain ⟨hle, hd⟩ := Option.ite_none_right_eq_some.mp h
      rw [← Option.some.inj hd]
      exact Or.inl ⟨rfl, Nat.sub_add_cancel hle⟩
  | spanned =>
      rw [hzip] at h
      cases h
  | present size =>
      rw [hzip] at h
      obtain ⟨hfits, hd⟩ := Option.ite_none_right_eq_some.mp h
      exact Or.inr ⟨size, rfl, hfits, (Option.some.inj hd).symm⟩

/-- A directory is read right in front of the end record or of the ZIP64 records. -/
theorem inFront_of_loaded {content : List UInt8} {i : ℕ} {d : Directory} (h : loadedDirectory content i = some d) :
    d.start + d.size ≤ i := by
  rcases loadedDirectory_eq_some h with ⟨-, heq⟩ | ⟨size, -, hfits, rfl⟩
  · exact heq.le
  · dsimp only
    omega

/-- The size of what is read is that of the checked record unless a ZIP64 record has another one. -/
theorem size_le_iff {content : List UInt8} {i : ℕ} (h : Checked content i) :
    (∀ d, loadedDirectory content i = some d → d.size ≤ maxArchiveCentralDirectoryBytes) ↔
      ∀ size, zip64 content i = .present size → size + 76 ≤ i → size ≤ maxArchiveCentralDirectoryBytes := by
  constructor
  · intro hall size hpresent hfits
    refine hall ⟨i - 76 - size, size⟩ ?_
    unfold loadedDirectory
    rw [hpresent]
    exact if_pos hfits
  · intro hall d hd
    rcases loadedDirectory_eq_some hd with ⟨hsize, -⟩ | ⟨size, hpresent, hfits, rfl⟩
    · rw [hsize]
      exact h.size
    · exact hall size hpresent hfits

theorem endRecord_append (xs tail : List UInt8) (k : ℕ) : endRecord (xs ++ tail) (xs.length + k) = endRecord tail k := by
  simp only [endRecord, Nat.add_assoc, Records.field_append]

/-- An archive whose end has a record that declares little is accepted. -/
theorem preflightZipMetadata_append (xs tail : List UInt8) {k : ℕ}
    (hplace : Records.lastIndex? endRecordSignature tail = some k) (hshort : tail.length ≤ 65535)
    (hend : k + eocdSize + (endRecord tail k).commentSize = tail.length)
    (hcheck : checkEndRecord (xs.length + tail.length) (xs.length + k) (endRecord tail k) = .ok ()) :
    preflightZipMetadata (xs ++ tail) = .ok () ∧ checkedPlace (xs ++ tail) = some (xs.length + k) := by
  have hfind : checkedPlace (xs ++ tail) = some (xs.length + k) := by
    refine Records.rfind_append hplace xs ?_
    rw [List.length_append]
    omega
  refine ⟨?_, hfind⟩
  refine Imp.except_bind_eq_ok.mpr ⟨_, orRaise_eq_ok.mpr hfind, Imp.except_bind_eq_ok.mpr
    ⟨(), Imp.require_eq_ok.mpr (by rw [List.length_append]; omega), ?_⟩⟩
  rw [endRecord_append, List.length_append, hcheck]

/-- A part of an archive that lies in its last bytes. -/
theorem drop_append_sub (xs : List UInt8) {tail : List UInt8} {n k : ℕ} (h : n ≤ k) :
    (xs ++ tail).drop (xs.length + k - n) = tail.drop (k - n) := by
  rw [Nat.add_sub_assoc h, List.drop_append, List.drop_of_length_le (Nat.le_add_right _ _), List.nil_append,
    Nat.add_sub_cancel_left]

theorem zip64_append (xs : List UInt8) {tail : List UInt8} {k : ℕ} (h : 76 ≤ k) :
    zip64 (xs ++ tail) (xs.length + k) = zip64 tail k := by
  unfold zip64
  rw [drop_append_sub xs (by omega : 20 ≤ k), drop_append_sub xs h]

/-- Bytes that are no locator stand before an end record. -/
theorem zip64_append_of_not (xs : List UInt8) {tail : List UInt8} {k : ℕ} (h : 20 ≤ k)
    (hlocator : ¬zip64LocatorSignature <+: (tail.drop (k - 20)).take 20) :
    zip64 (xs ++ tail) (xs.length + k) = .absent := by
  unfold zip64
  rw [drop_append_sub xs h]
  exact if_pos (Or.inr hlocator)

namespace Demo

/-- An archive without members. -/
def emptyArchive : List UInt8 := endRecordSignature ++ List.replicate 18 0

/-- A member without a name. -/
def member : List UInt8 := memberSignature ++ List.replicate 42 0

/-- A directory of some members. -/
def directory (n : ℕ) : List UInt8 := (List.replicate n member).flatten

/-- The ZIP64 records for a directory of 364723 members, and an end record that declares none. -/
def zip64Records : List UInt8 :=
  zip64Signature ++ List.replicate 36 0 ++ [0x2a, 0, 0, 1, 0, 0, 0, 0] ++ List.replicate 8 0 ++
    (zip64LocatorSignature ++ List.replicate 16 0) ++ emptyArchive

/-- An archive whose ZIP64 records override the end record. -/
def overriding (n : ℕ) : List UInt8 := directory n ++ zip64Records

/-- The end of an archive of 10001 members that declares one. -/
def undeclaredRecord : List UInt8 :=
  member ++ endRecordSignature ++ [0, 0, 0, 0, 1, 0, 1, 0, 0x0e, 0x05, 0x07, 0, 0, 0, 0, 0, 0, 0]

/-- An archive whose members are not those that are declared. -/
def undeclaring (n : ℕ) : List UInt8 := directory n ++ undeclaredRecord

theorem length_directory (n : ℕ) : (directory n).length = 46 * n := by
  rw [directory, List.length_flatten, List.map_replicate, List.sum_replicate_nat, mul_comm]
  rfl

theorem loadedMembers_directory (n : ℕ) {fuel : ℕ} (h : n ≤ fuel) :
    loadedMembers (fun _ => true) fuel (directory n) = n := by
  induction n generalizing fuel with
  | zero =>
      cases fuel with
      | zero => rfl
      | succ fuel => rfl
  | succ n ih =>
      obtain ⟨fuel, rfl⟩ : ∃ m, fuel = m + 1 := ⟨fuel - 1, by omega⟩
      have hcons : directory (n + 1) = member ++ directory n := by
        rw [directory, List.replicate_succ, List.flatten_cons, directory]
      have hfield : ∀ offset width, offset + width ≤ 46 →
          field (member ++ directory n) offset width = field member offset width := by
        intro offset width hle
        have hlength : member.length = 46 := rfl
        rw [field, field, List.drop_append_of_le_length (by omega),
          List.take_append_of_le_length (by rw [List.length_drop]; omega)]
      rw [hcons, loadedMembers, hfield 28 2 (by decide), hfield 30 2 (by decide), hfield 32 2 (by decide)]
      change (if _ ∧ _ ∧ _ then loadedMembers _ fuel ((member ++ directory n).drop member.length) + 1 else 0) = n + 1
      rw [List.drop_left, ih (Nat.le_of_succ_le_succ h), if_pos]
      refine ⟨?_, ⟨List.replicate 42 0 ++ directory n, rfl⟩, rfl⟩
      rw [List.length_append]
      exact Nat.le_add_right 46 _

/-- The directory of an archive that starts with it. -/
theorem members_directory (n : ℕ) (tail : List UInt8) :
    Directory.members (fun _ => true) (directory n ++ tail) ⟨0, 46 * n⟩ = n := by
  change loadedMembers _ (46 * n) ((directory n ++ tail).take (46 * n)) = n
  rw [← length_directory n, List.take_left, length_directory, loadedMembers_directory n (by omega)]

/-- What is read of an archive whose ZIP64 records declare all that stands in front of them. -/
theorem loadedDirectory_overriding {n : ℕ} (h : zip64 zip64Records 76 = .present (46 * n)) :
    loadedDirectory (overriding n) ((directory n).length + 76) = some ⟨0, 46 * n⟩ := by
  have hzip : zip64 (overriding n) ((directory n).length + 76) = .present (46 * n) :=
    (zip64_append _ le_rfl).trans h
  unfold loadedDirectory
  rw [hzip, length_directory]
  refine (if_pos (Nat.le_refl _)).trans ?_
  rw [Nat.add_sub_cancel, Nat.sub_self]

/-- What is read of an archive whose end record declares all that stands in front of it. -/
theorem loadedDirectory_undeclaring {n : ℕ} (h : (endRecord undeclaredRecord 46).centralSize = 46 * (n + 1)) :
    loadedDirectory (undeclaring n) ((directory n).length + 46) = some ⟨0, 46 * (n + 1)⟩ := by
  have hzip : zip64 (undeclaring n) ((directory n).length + 46) = .absent :=
    zip64_append_of_not _ (by decide) (by decide +kernel)
  unfold loadedDirectory
  rw [hzip, undeclaring, endRecord_append, h, length_directory]
  refine (if_pos (Nat.le_refl _)).trans ?_
  rw [Nat.mul_succ, Nat.sub_self]

/-- A record whose other fields are small is checked for its place only. -/
theorem checkEndRecord_of_le {length offset : ℕ} {r : EndRecord}
    (hfields : r.diskNumber = 0 ∧ r.centralDisk = 0 ∧ r.diskEntries = r.totalEntries ∧ r.totalEntries ≠ 0xffff ∧
      r.centralSize ≠ 0xffffffff ∧ r.centralOffset ≠ 0xffffffff)
    (hbounds : r.totalEntries ≤ maxArchiveMembers ∧ r.centralSize ≤ maxArchiveCentralDirectoryBytes)
    (hlength : offset + eocdSize + r.commentSize = length) (hfits : r.centralOffset + r.centralSize ≤ offset) :
    checkEndRecord length offset r = .ok () := by
  rw [checkEndRecord, Imp.require, if_pos hlength, Imp.require, if_pos hfields, Imp.require, if_pos hbounds.1,
    Imp.require, if_pos hbounds.2, Imp.require, if_pos hfits]
  rfl

theorem overriding_exceeds {n : ℕ} (hzip : zip64 zip64Records 76 = .present (46 * n))
    (hsize : maxArchiveCentralDirectoryBytes < 46 * n) (hmembers : maxArchiveMembers < n) :
    preflightZipMetadata (overriding n) = .ok () ∧
      ∃ i d, zipfileEndRecord (overriding n) = some i ∧ loadedDirectory (overriding n) i = some d ∧
        maxArchiveCentralDirectoryBytes < d.size ∧
          maxArchiveMembers < d.members (fun _ => true) (overriding n) := by
  obtain ⟨hok, hplace⟩ := preflightZipMetadata_append (directory n) zip64Records (k := 76)
    (by decide +kernel) (by decide +kernel) (by decide +kernel)
    (checkEndRecord_of_le (by decide +kernel) (by decide +kernel) (by rw [Nat.add_assoc, Nat.add_assoc]; rfl)
      (Nat.le_add_left_of_le (by decide +kernel)))
  obtain ⟨i, hplace', hchecked⟩ := exists_checked hok
  rw [hplace] at hplace'
  cases hplace'
  refine ⟨hok, _, _, hchecked.taken, loadedDirectory_overriding hzip, hsize, ?_⟩
  rw [overriding, members_directory]
  exact hmembers

theorem undeclaring_exceeds {n : ℕ} (hsize : (endRecord undeclaredRecord 46).centralSize = 46 * (n + 1))
    (hmembers : maxArchiveMembers < n + 1) : preflightZipMetadata (undeclaring n) = .ok () ∧
      ∃ i d, zipfileEndRecord (undeclaring n) = some i ∧ loadedDirectory (undeclaring n) i = some d ∧
        maxArchiveMembers < d.members (fun _ => true) (undeclaring n) := by
  obtain ⟨hok, hplace⟩ := preflightZipMetadata_append (directory n) undeclaredRecord (k := 46)
    (by decide +kernel) (by decide +kernel) (by decide +kernel)
    (checkEndRecord_of_le (by decide +kernel) (by decide +kernel) (by rw [Nat.add_assoc, Nat.add_assoc]; rfl) (by
      have hoffset : (endRecord undeclaredRecord 46).centralOffset = 0 := by decide +kernel
      rw [hoffset, hsize, length_directory]
      omega))
  obtain ⟨i, hplace', hchecked⟩ := exists_checked hok
  rw [hplace] at hplace'
  cases hplace'
  refine ⟨hok, _, _, hchecked.taken, loadedDirectory_undeclaring hsize, ?_⟩
  have hcontent : undeclaring n = directory (n + 1) ++ undeclaredRecord.drop 46 := by
    rw [directory, List.replicate_succ', List.flatten_append, List.flatten_singleton, List.append_assoc]
    rfl
  rw [hcontent, members_directory]
  exact hmembers

end Demo

end StateWeaver.Candidate
