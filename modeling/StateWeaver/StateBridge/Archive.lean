import StateWeaver.Lib.CrashFiles
import StateWeaver.Lib.JsonUtf8
import StateWeaver.Lib.Sha256

/-!
# Archives of the synthetic state bridge

The bridge keeps six components as canonical JSON, each in a file of its own whose name has the generation:
the digest of all six. An archive is accepted if it has the fixed shape and six objects. The files of two
generations have different names, and staged files have names of their own.
-/

namespace StateWeaver.StateBridge

open Py (Text Tree text)

/-- What the bridge raises. -/
inductive Failure where
  /-- `ValueError`. -/
  | value (message : String)
  /-- `UnicodeDecodeError`, a `ValueError`. -/
  | decode
  /-- What `json.loads` raises, a `ValueError`. -/
  | json (e : Py.LoadsError)
  /-- `KeyError`. -/
  | key (name : Text)
  /-- `OSError`. -/
  | os
  deriving DecidableEq

def maxArchiveBytes : ℕ := 1048576

/-! ## Paths -/

structure Path where
  directory : String
  name : List Char
  deriving DecidableEq

namespace Path

/-- What follows the last point of a name. -/
def extension (name : List Char) : List Char := (name.reverse.takeWhile (· != '.')).reverse

/-- `path.suffix`: the last point that neither starts nor ends the name, and what follows it. -/
def suffix (p : Path) : List Char :=
  if extension p.name ≠ [] ∧ (extension p.name).length + 1 < p.name.length then '.' :: extension p.name else []

/-- `path.stem`. -/
def stem (p : Path) : List Char := p.name.take (p.name.length - p.suffix.length)

/-- `path.with_suffix(suffix)`. -/
def withSuffix (p : Path) (suffix : List Char) : Path := { p with name := p.stem ++ suffix }

end Path

def activeGenerationPath : Path := ⟨"/state/storage", "active-generation".toList⟩

/-- `_COMPONENT_PATHS`. -/
def componentPaths : List (Text × Path) :=
  [(text "filesystem", ⟨"/state/storage", "state.json".toList⟩),
    (text "database", ⟨"/state/database", "state.json".toList⟩),
    (text "cache", ⟨"/state/cache", "state.json".toList⟩),
    (text "queue", ⟨"/state/queue", "state.json".toList⟩),
    (text "session", ⟨"/state/session", "state.json".toList⟩),
    (text "clock", ⟨"/state/clock", "state.json".toList⟩)]

/-- `_generation_path`. -/
def generationPath (p : Path) (generation : String) : Path :=
  { p with name := p.stem ++ '.' :: generation.toList ++ p.suffix }

/-- `path.with_suffix(".next")`. -/
def stagedPath (p : Path) : Path := p.withSuffix ".next".toList

/-! ## Values -/

abbrev Components := List (Text × Tree)

def str (s : String) : Tree := .scalar (.str (text s))

/-- `_SEED`. -/
def seed : Components :=
  [(text "filesystem", .obj [(text "files",
      .arr [.obj [(text "path", str "/fixture/version"), (text "value", str "1.0.0")]])]),
    (text "database", .obj [(text "rows", .arr [.obj [(text "id", str "root-row"), (text "value", str "clean")]])]),
    (text "cache", .obj [(text "entries", .arr [])]),
    (text "queue", .obj [(text "jobs", .arr [])]),
    (text "session", .obj [(text "sessions", .arr [])]),
    (text "clock", .obj [(text "mode", str "controlled"), (text "now", str "2026-07-29T12:00:00Z")])]

/-- `_canonical`. -/
def canonical (value : Tree) : Except Failure ByteArray :=
  match Py.canonicalUtf8 value with
  | .ok bytes => .ok bytes
  | .error message => .error (.value message)

/-- `_parse`. -/
def parse (raw : ByteArray) : Except Failure Tree := do
  Imp.require (raw.size ≠ 0 ∧ raw.size ≤ maxArchiveBytes) (.value "state archive exceeds its fixed boundary")
  match Py.decode raw with
  | none => .error .decode
  | some decoded =>
      match Py.loads decoded with
      | .ok value => .ok value
      | .error e => .error (.json e)

/-- `value[key]`. -/
def item (entries : List (Text × Tree)) (key : Text) : Except Failure Tree :=
  match entries.lookup key with
  | some value => .ok value
  | none => .error (.key key)

def isObject : Tree → Bool
  | .obj _ => true
  | _ => false

/-- Whether a mapping has these keys and no others. -/
def HasKeys (entries : List (Text × Tree)) (keys : List Text) : Prop :=
  (∀ key ∈ entries.map Prod.fst, key ∈ keys) ∧ ∀ key ∈ keys, key ∈ entries.map Prod.fst

instance (entries : List (Text × Tree)) (keys : List Text) : Decidable (HasKeys entries keys) :=
  inferInstanceAs (Decidable (_ ∧ _))

def archiveKeys : List Text := [text "schema_version", text "target", text "components"]

def target : Tree :=
  .obj [(text "target_id", str "synthetic-demo"), (text "target_version", str "1.0.0")]

/-- `_archive` of the components that were read. -/
def archive (components : Components) : Tree :=
  .obj [(text "schema_version", str "1.0"), (text "target", target), (text "components", .obj components)]

/-- `_validate_archive`. -/
def validateArchive : Tree → Except Failure Components
  | .obj entries => do
      Imp.require (HasKeys entries archiveKeys) (.value "state archive shape is invalid")
      let schemaVersion ← item entries (text "schema_version")
      let bound ← item entries (text "target")
      Imp.require (Py.equal schemaVersion (str "1.0") = true ∧ Py.equal bound target = true)
        (.value "state archive target binding is invalid")
      match ← item entries (text "components") with
      | .obj components => do
          Imp.require (HasKeys components (componentPaths.map Prod.fst))
            (.value "state archive component coverage is invalid")
          Imp.require (∀ e ∈ components, isObject e.2 = true) (.value "state archive components must be JSON objects")
          return components
      | _ => .error (.value "state archive component coverage is invalid")
  | _ => .error (.value "state archive shape is invalid")

/-- The archive that is read from standard input, of which one byte too much is taken. -/
def parseInput (stdin : ByteArray) : Except Failure Tree := parse (stdin.extract 0 (maxArchiveBytes + 1))

/-- The pattern of a generation, `^[0-9a-f]{64}$`. -/
def isGeneration (generation : List Char) : Bool := generation.length == 64 && generation.all Char.isLowerHex

/-- `removesuffix("\n")`. -/
def removeNewline (line : List Char) : List Char := if line.getLast? = some '\n' then line.dropLast else line

/-- `_read_generation` of what the pointer holds. -/
def generationOf (raw : ByteArray) : Except Failure String := do
  let line ← match Py.decode raw with
    | some line => if line.all (·.toNat < 128) then Except.ok line else .error (.value "active state generation is invalid")
    | none => .error (.value "active state generation is invalid")
  let generation := removeNewline line
  Imp.require (line = generation ++ ['\n'] ∧ isGeneration generation = true)
    (.value "active state generation is invalid")
  return String.ofList generation

/-! ## Names of files -/

/-- The parts of a name with a point inside. -/
theorem Path.parts_of_name {p : Path} {base ext : List Char} (hname : p.name = base ++ '.' :: ext)
    (hbase : base ≠ []) (hext : ext ≠ []) (hpoint : ∀ c ∈ ext, c ≠ '.') :
    p.suffix = '.' :: ext ∧ p.stem = base := by
  have hextension : Path.extension p.name = ext := by
    have hreverse : (base ++ '.' :: ext).reverse = ext.reverse ++ '.' :: base.reverse := by
      rw [List.reverse_append, List.reverse_cons, List.append_assoc, List.singleton_append]
    rw [Path.extension, hname, hreverse, List.takeWhile_append_of_pos, List.takeWhile_cons_of_neg (by decide),
      List.append_nil, List.reverse_reverse]
    exact fun c hc => bne_iff_ne.mpr (hpoint c (List.mem_reverse.mp hc))
  have hlength : p.name.length = base.length + (ext.length + 1) := by
    rw [hname, List.length_append, List.length_cons]
  have hpos := List.length_pos_iff.mpr hbase
  have hsuffix : p.suffix = '.' :: ext := by
    rw [Path.suffix, hextension, if_pos ⟨hext, by omega⟩]
  refine ⟨hsuffix, ?_⟩
  rw [Path.stem, hsuffix, hlength, List.length_cons, Nat.add_sub_cancel, hname, List.take_left]

theorem parts_componentPath : ∀ e ∈ componentPaths, e.2.stem = "state".toList ∧ e.2.suffix = ".json".toList := by
  decide

theorem suffix_activeGenerationPath : activeGenerationPath.suffix = [] := by decide

theorem parts_generationPath {e : Text × Path} (he : e ∈ componentPaths) (generation : String) :
    (generationPath e.2 generation).suffix = ".json".toList ∧
      (generationPath e.2 generation).stem = "state".toList ++ '.' :: generation.toList := by
  obtain ⟨hstem, hsuffix⟩ := parts_componentPath e he
  refine @Path.parts_of_name _ _ "json".toList ?_ ?_ (by decide +kernel) (by simp)
  · rw [generationPath, hstem, hsuffix]
    rfl
  · exact List.append_ne_nil_of_left_ne_nil (by decide) _

/-- Staged files have names of their own. -/
theorem suffix_stagedPath {p : Path} (h : p.stem ≠ []) : (stagedPath p).suffix = ".next".toList :=
  (@Path.parts_of_name _ p.stem "next".toList rfl h (by decide +kernel) (by simp)).1

theorem ne_stagedPath {p q : Path} (hp : p.stem ≠ []) (hq : q.suffix ≠ ".next".toList) : q ≠ stagedPath p := by
  rintro rfl
  exact hq (suffix_stagedPath hp)

theorem generationPath_ne_active {e : Text × Path} (he : e ∈ componentPaths) (generation : String) :
    generationPath e.2 generation ≠ activeGenerationPath := by
  intro heq
  have hsuffix := (parts_generationPath he generation).1
  rw [heq, suffix_activeGenerationPath] at hsuffix
  cases hsuffix

/-- A file belongs to one component of one generation. -/
theorem generationPath_inj {e e' : Text × Path} (he : e ∈ componentPaths) (he' : e' ∈ componentPaths)
    {generation generation' : String} (h : generationPath e.2 generation = generationPath e'.2 generation') :
    e = e' ∧ generation = generation' := by
  have hdirectory : ∀ e ∈ componentPaths, ∀ e' ∈ componentPaths, e.2.directory = e'.2.directory → e = e' := by
    decide
  have hsame : (generationPath e.2 generation).directory = (generationPath e'.2 generation').directory := by
    rw [h]
  refine ⟨hdirectory e he e' he' hsame, ?_⟩
  have hstem := congrArg Path.stem h
  rw [(parts_generationPath he generation).2, (parts_generationPath he' generation').2] at hstem
  exact String.toList_inj.mp (List.cons.inj (List.append_cancel_left hstem)).2

/-! ## Components -/

/-- The names of the components in order. -/
def componentKeys : List Text :=
  [text "cache", text "clock", text "database", text "filesystem", text "queue", text "session"]

/-- Six objects under their names. -/
structure IsComponents (components : Components) : Prop where
  keys : HasKeys components (componentPaths.map Prod.fst)
  distinct : (Json.obj components).Distinct
  objects : ∀ e ∈ components, isObject e.2 = true

/-- The value of a component. -/
def component (components : Components) (key : Text) : Tree := (components.lookup key).getD (.scalar .null)

theorem nodup_of_distinct {entries : List (Text × Tree)} (h : (Json.obj entries).Distinct) :
    (entries.map Prod.fst).Nodup := by
  cases h with
  | obj hkeys _ => exact hkeys

theorem lookup_eq_some {entries : List (Text × Tree)} (h : (entries.map Prod.fst).Nodup) {e : Text × Tree}
    (he : e ∈ entries) : entries.lookup e.1 = some e.2 := by
  induction entries with
  | nil => cases he
  | cons d entries ih =>
      rw [List.map_cons, List.nodup_cons] at h
      rcases List.mem_cons.mp he with rfl | he
      · exact List.lookup_cons_self
      · have hne : (e.1 == d.1) = false := by
          rw [beq_eq_false_iff_ne]
          intro heq
          exact h.1 (heq ▸ List.mem_map_of_mem he)
        rw [show d = (d.1, d.2) from rfl, List.lookup_cons, hne]
        exact ih h.2 he

theorem item_eq_ok {entries : List (Text × Tree)} {key : Text} {value : Tree} :
    item entries key = .ok value ↔ entries.lookup key = some value := by
  rw [item]
  cases entries.lookup key with
  | none => exact iff_of_false nofun nofun
  | some v => rw [Except.ok.injEq, Option.some.injEq]

/-- An entry is found under its key. -/
theorem exists_lookup {entries : List (Text × Tree)} (h : (entries.map Prod.fst).Nodup) {key : Text}
    (hkey : key ∈ entries.map Prod.fst) : ∃ value, entries.lookup key = some value ∧ (key, value) ∈ entries := by
  obtain ⟨e, he, rfl⟩ := List.mem_map.mp hkey
  exact ⟨e.2, lookup_eq_some h he, he⟩

namespace IsComponents

variable {c c' : Components}

theorem lookup (hc : IsComponents c) {e : Text × Path} (he : e ∈ componentPaths) :
    c.lookup e.1 = some (component c e.1) ∧ (e.1, component c e.1) ∈ c := by
  obtain ⟨value, hvalue, hmem⟩ :=
    exists_lookup (nodup_of_distinct hc.distinct) (hc.keys.2 e.1 (List.mem_map_of_mem he))
  rw [component, hvalue, Option.getD_some]
  exact ⟨rfl, hmem⟩

theorem isObject (hc : IsComponents c) {e : Text × Path} (he : e ∈ componentPaths) :
    StateBridge.isObject (component c e.1) = true := hc.objects _ (hc.lookup he).2

theorem perm_keys (hc : IsComponents c) : (c.map Prod.fst).Perm componentKeys := by
  have hperm : (componentPaths.map Prod.fst).Perm componentKeys := by decide
  have hsame : ∀ key, key ∈ componentPaths.map Prod.fst ↔ key ∈ componentKeys := fun key => hperm.mem_iff
  rw [List.perm_ext_iff_of_nodup (nodup_of_distinct hc.distinct) (by decide)]
  exact fun key => ⟨fun h => (hsame key).mp (hc.keys.1 key h), fun h => hc.keys.2 key ((hsame key).mpr h)⟩

/-- The components in order. -/
theorem sort_eq (hc : IsComponents c) :
    (Json.obj c).sort = .obj (componentKeys.map fun key => (key, (component c key).sort)) := by
  refine Json.sort_obj (by decide) hc.perm_keys fun e he => ?_
  rw [component, lookup_eq_some (nodup_of_distinct hc.distinct) he, Option.getD_some]

/-- Components that are the same in order have the same values in order. -/
theorem sort_component_of_sort_eq (hc : IsComponents c) (hc' : IsComponents c')
    (h : (Json.obj c).sort = (Json.obj c').sort) {e : Text × Path} (he : e ∈ componentPaths) :
    (component c e.1).sort = (component c' e.1).sort := by
  rw [hc.sort_eq, hc'.sort_eq, Json.obj.injEq] at h
  have hkey : ∀ e ∈ componentPaths, e.1 ∈ componentKeys := by decide
  exact congrArg Prod.snd (List.map_inj_left.mp h e.1 (hkey e he))

end IsComponents

/-! ## Bytes -/

theorem canonical_eq_ok {v : Tree} {bytes : ByteArray} : canonical v = .ok bytes ↔
    Py.AllValid Py.Literal.IsWritten v ∧ bytes = Py.encode (Py.canonicalTextUtf8 v) := by
  rw [← Py.canonicalUtf8_eq_ok, canonical]
  cases Py.canonicalUtf8 v with
  | ok b => rw [Except.ok.injEq, Except.ok.injEq]
  | error message => exact iff_of_false nofun nofun

/-- The canonical bytes do not depend on the order of entries. -/
theorem canonical_congr {v w : Tree} (h : v.sort = w.sort) : canonical v = canonical w := by
  have hsurrogate : Py.hasSurrogate v = Py.hasSurrogate w := by
    rw [← Py.hasSurrogate_sort, h, Py.hasSurrogate_sort]
  rw [canonical, canonical, Py.canonicalUtf8, Py.canonicalUtf8, Py.utf8Error, Py.utf8Error,
    Py.canonicalTextUtf8, Py.canonicalTextUtf8, h, hsurrogate]

theorem parse_eq_ok {raw : ByteArray} {v : Tree} : parse raw = .ok v ↔
    (raw.size ≠ 0 ∧ raw.size ≤ maxArchiveBytes) ∧ ∃ decoded, Py.decode raw = some decoded ∧
      Py.loads decoded = .ok v := by
  rw [parse, Imp.check_bind_eq_ok, Imp.require_eq_ok]
  refine and_congr_right fun _ => ?_
  cases Py.decode raw with
  | none => exact iff_of_false nofun fun ⟨_, h, _⟩ => nomatch h
  | some decoded =>
      simp only [Option.some.injEq, exists_eq_left']
      cases Py.loads decoded with
      | ok value => rw [Except.ok.injEq, Except.ok.injEq]
      | error e => exact iff_of_false nofun nofun

theorem distinct_of_parse {raw : ByteArray} {v : Tree} (h : parse raw = .ok v) : v.Distinct := by
  obtain ⟨-, decoded, -, hloads⟩ := parse_eq_ok.mp h
  exact Py.distinct_of_loads hloads

/-- The canonical bytes are read back with the entries in order. -/
theorem loads_of_canonical {v : Tree} {bytes : ByteArray} (h : canonical v = .ok bytes) (hv : v.Distinct) :
    ∃ decoded, Py.decode bytes = some decoded ∧ Py.loads decoded = .ok v.sort := by
  obtain ⟨hvalid, rfl⟩ := canonical_eq_ok.mp h
  exact ⟨_, Py.decode_encode _, Py.loads_canonicalTextUtf8 hvalid hv⟩

theorem parse_canonical {v w : Tree} {bytes : ByteArray} (h : canonical v = .ok bytes) (hv : v.Distinct)
    (hparse : parse bytes = .ok w) : w = v.sort := by
  obtain ⟨-, decoded, hdecode, hloads⟩ := parse_eq_ok.mp hparse
  obtain ⟨decoded', hdecode', hloads'⟩ := loads_of_canonical h hv
  rw [hdecode, Option.some.injEq] at hdecode'
  rw [← hdecode', hloads] at hloads'
  exact Except.ok.inj hloads'

/-- Bytes are canonical for one value, up to the order of entries. -/
theorem sort_eq_of_canonical {v w : Tree} {bytes : ByteArray} (h : canonical v = .ok bytes) (hv : v.Distinct)
    (h' : canonical w = .ok bytes) (hw : w.Distinct) : v.sort = w.sort := by
  obtain ⟨decoded, hdecode, hloads⟩ := loads_of_canonical h hv
  obtain ⟨decoded', hdecode', hloads'⟩ := loads_of_canonical h' hw
  rw [hdecode, Option.some.injEq] at hdecode'
  rw [← hdecode', hloads] at hloads'
  exact Except.ok.inj hloads'

theorem isObject_sort (v : Tree) : isObject v.sort = isObject v := by
  cases v <;> rw [Json.sort] <;> rfl

/-- What a pointer is written with. -/
def pointerBytes (generation : String) : ByteArray := Py.encode (generation.toList ++ ['\n'])

theorem lt_of_isLowerHex {c : Char} (h : c.isLowerHex = true) : c.toNat < 128 ∧ c ≠ '\n' := by
  refine ⟨?_, ?_⟩
  · simp only [Char.isLowerHex, Char.isDigit, Bool.or_eq_true, Bool.and_eq_true, decide_eq_true_eq, ge_iff_le,
      Char.le_def, UInt32.le_iff_toNat_le] at h
    change c.val.toNat < 128
    have hnine : ('9' : Char).val.toNat = 57 := rfl
    have hf : ('f' : Char).val.toNat = 102 := rfl
    have hnine' : (57 : UInt32).toNat = 57 := rfl
    omega
  · rintro rfl
    cases h

/-- The pointer to a digest is read back. -/
theorem generationOf_pointerBytes {generation : String} (h : isHexDigest generation = true) :
    generationOf (pointerBytes generation) = .ok generation := by
  rw [isHexDigest, Bool.and_eq_true] at h
  have hhex := List.all_eq_true.mp h.2
  have hascii : (generation.toList ++ ['\n']).all (·.toNat < 128) = true := by
    refine List.all_eq_true.mpr (List.forall_mem_append.mpr ⟨fun c hc => ?_, ?_⟩)
    · exact decide_eq_true (lt_of_isLowerHex (hhex c hc)).1
    · exact List.all_eq_true.mp (by decide)
  have hremove : removeNewline (generation.toList ++ ['\n']) = generation.toList := by
    rw [removeNewline, List.getLast?_concat, if_pos rfl, List.dropLast_concat]
  rw [generationOf, pointerBytes, Py.decode_encode]
  simp only [hascii, if_true]
  refine Imp.except_bind_eq_ok.mpr ⟨_, rfl, Imp.check_bind_eq_ok.mpr ⟨Imp.require_eq_ok.mpr ⟨?_, ?_⟩, ?_⟩⟩
  · rw [hremove]
  · rw [hremove, isGeneration, Bool.and_eq_true]
    exact h
  · rw [hremove, String.ofList_toList]
    rfl

/-! ## Accepted archives -/

theorem equal_str {v : Tree} {s : String} (h : Py.equal v (str s) = true) : v = str s := by
  cases v with
  | scalar literal =>
      rw [str, Py.equal] at h
      cases literal with
      | str t =>
          have ht : t = text s := of_decide_eq_true h
          rw [ht, str]
      | _ => exact absurd h (by simp [Py.Literal.eq, Py.Literal.position?])
  | _ => rw [str, Py.equal] at h <;> cases h

/-- What a target is bound to. -/
def targetOf (id version : String) : Tree := .obj [(text "target_id", str id), (text "target_version", str version)]

/-- A mapping from names to texts that is equal to a target is the target. -/
theorem sort_of_equal_targetOf {v : Tree} {id version : String} (hv : v.Distinct)
    (h : Py.equal v (targetOf id version) = true) : v.sort = (targetOf id version).sort := by
  cases v with
  | scalar s =>
      rw [targetOf, Py.equal] at h
      · cases h
      · nofun
      · nofun
      · nofun
  | arr items =>
      rw [targetOf, Py.equal] at h
      · cases h
      · nofun
      · nofun
      · nofun
  | obj entries =>
      have hentry : ∀ entries, Py.equalEntries entries
          [(text "target_id", str id), (text "target_version", str version)] = true →
            ∀ e ∈ entries, e = (text "target_id", str id) ∨ e = (text "target_version", str version) := by
        intro entries hequal
        induction entries with
        | nil => exact List.forall_mem_nil _
        | cons e entries ih =>
            obtain ⟨key, value⟩ := e
            rw [Py.equalEntries, Bool.and_eq_true] at hequal
            refine List.forall_mem_cons.mpr ⟨?_, ih hequal.2⟩
            have hlookup := hequal.1
            rw [List.lookup_cons, List.lookup_cons, List.lookup_nil] at hlookup
            cases hid : key == text "target_id" with
            | true =>
                rw [hid] at hlookup
                rw [eq_of_beq hid, equal_str hlookup]
                exact Or.inl rfl
            | false =>
                cases hversion : key == text "target_version" with
                | true =>
                    rw [hid, hversion] at hlookup
                    rw [eq_of_beq hversion, equal_str hlookup]
                    exact Or.inr rfl
                | false =>
                    rw [hid, hversion] at hlookup
                    cases hlookup
      rw [targetOf, Py.equal, Bool.and_eq_true] at h
      have hlength : entries.length = 2 := of_decide_eq_true h.1
      obtain ⟨e, e', rfl⟩ := List.length_eq_two.mp hlength
      have hnodup := nodup_of_distinct hv
      have hall := hentry _ h.2
      rcases hall e List.mem_cons_self with rfl | rfl <;>
        rcases hall e' (List.mem_cons_of_mem _ List.mem_cons_self) with rfl | rfl
      · exact absurd (show [text "target_id", text "target_id"].Nodup from hnodup) (by decide)
      · rfl
      · rfl
      · exact absurd (show [text "target_version", text "target_version"].Nodup from hnodup) (by decide)

theorem sort_of_equal_target {v : Tree} (hv : v.Distinct) (h : Py.equal v target = true) :
    v.sort = target.sort := sort_of_equal_targetOf hv h

/-- The keys of an archive in order. -/
def sortedArchiveKeys : List Text := [text "components", text "schema_version", text "target"]

/-- An accepted archive is its components in the fixed shape, up to the order of entries. -/
theorem validateArchive_eq_ok {v : Tree} {c : Components} (hv : v.Distinct) (h : validateArchive v = .ok c) :
    IsComponents c ∧ v.sort = (archive c).sort := by
  cases v with
  | obj entries =>
      rw [validateArchive, Imp.check_bind_eq_ok, Imp.require_eq_ok] at h
      obtain ⟨hkeys, h⟩ := h
      obtain ⟨schemaVersion, hschema, h⟩ := Imp.except_bind_eq_ok.mp h
      obtain ⟨bound, hbound, h⟩ := Imp.except_bind_eq_ok.mp h
      rw [Imp.check_bind_eq_ok, Imp.require_eq_ok] at h
      obtain ⟨⟨hversion, htarget⟩, h⟩ := h
      obtain ⟨value, hvalue, h⟩ := Imp.except_bind_eq_ok.mp h
      rw [item_eq_ok] at hschema hbound hvalue
      cases value with
      | obj components =>
          simp only [Imp.check_bind_eq_ok, Imp.require_eq_ok] at h
          obtain ⟨hcoverage, hobjects, h⟩ := h
          cases h
          have hnodup := nodup_of_distinct hv
          refine ⟨⟨hcoverage, hv.of_lookup hvalue, hobjects⟩, ?_⟩
          have hperm : (entries.map Prod.fst).Perm sortedArchiveKeys := by
            have hsorted : archiveKeys.Perm sortedArchiveKeys := by decide
            rw [List.perm_ext_iff_of_nodup hnodup (by decide)]
            exact fun key => ⟨fun hkey => hsorted.mem_iff.mp (hkeys.1 key hkey),
              fun hkey => hkeys.2 key (hsorted.mem_iff.mpr hkey)⟩
          have hsort : (Json.obj entries).sort = .obj (sortedArchiveKeys.map fun key =>
              (key, Json.sort ((entries.lookup key).getD (.scalar .null)))) :=
            Json.sort_obj (by decide) hperm fun e he => by rw [lookup_eq_some hnodup he, Option.getD_some]
          rw [hsort]
          simp only [sortedArchiveKeys, List.map_cons, List.map_nil, hschema, hbound, hvalue, Option.getD_some,
            equal_str hversion, sort_of_equal_target (hv.of_lookup hbound) htarget]
          rfl
      | _ => cases h
  | _ => cases h

/-- The seed. -/
theorem isComponents_seed : IsComponents seed := by
  have hstr : ∀ s, (str s).Distinct := fun s => .scalar _
  have hempty : ∀ key, (Json.obj [(text key, (.arr [] : Tree))]).Distinct := fun key =>
    .obj (List.nodup_singleton _) (List.forall_mem_singleton.mpr (.arr (List.forall_mem_nil _)))
  have htwo : ∀ {key key' : String} {s s' : String}, text key ≠ text key' →
      (Json.obj [(text key, str s), (text key', str s')]).Distinct := fun hne =>
    .obj (by simpa using hne) (List.forall_mem_cons.mpr ⟨hstr _, List.forall_mem_singleton.mpr (hstr _)⟩)
  have hone : ∀ {key : String} {v : Tree}, v.Distinct → (Json.obj [(text key, .arr [v])]).Distinct := fun hv =>
    .obj (List.nodup_singleton _) (List.forall_mem_singleton.mpr (.arr (List.forall_mem_singleton.mpr hv)))
  refine ⟨by decide, .obj (by decide) ?_, by decide⟩
  rw [seed]
  simp only [List.forall_mem_cons, List.not_mem_nil, false_implies, implies_true, and_true]
  exact ⟨hone (htwo (by decide)), hone (htwo (by decide)), hempty _, hempty _, hempty _, htwo (by decide)⟩

/-- The components as they are read: in the order of the paths, with their own entries in order. -/
def readBack (c : Components) : Components := componentPaths.map fun e => (e.1, (component c e.1).sort)

theorem sort_readBack {c : Components} (hc : IsComponents c) : (Json.obj (readBack c)).sort = (Json.obj c).sort := by
  have hdistinct : ∀ e ∈ componentPaths, (component c e.1).Distinct := fun e he =>
    hc.distinct.of_lookup (hc.lookup he).1
  have hmap : (readBack c).map Prod.fst = componentPaths.map Prod.fst := by
    rw [readBack, List.map_map]
    rfl
  have hperm : ((readBack c).map Prod.fst).Perm componentKeys := by
    rw [hmap]
    decide
  have hkey : ∀ key ∈ componentKeys, ∃ e ∈ componentPaths, e.1 = key := by decide
  have hvalue : ∀ e ∈ readBack c, (component c e.1).sort = e.2 := by
    rintro _ he
    obtain ⟨e, he, rfl⟩ := List.mem_map.mp he
    rfl
  have hsort : (Json.obj (readBack c)).sort =
      .obj (componentKeys.map fun key => (key, Json.sort (component c key).sort)) :=
    @Json.sort_obj _ _ _ _ _ (by decide) hperm (fun key => (component c key).sort) hvalue
  rw [hc.sort_eq, hsort, Json.obj.injEq]
  refine List.map_inj_left.mpr fun key hmem => Prod.ext rfl ?_
  obtain ⟨e, he, rfl⟩ := hkey key hmem
  exact ((Json.ascending_iff _).mp (Json.ascending_sort (hdistinct e he))).2

theorem sort_archive_congr {c c' : Components} (h : (Json.obj c).sort = (Json.obj c').sort) :
    (archive c).sort = (archive c').sort := by
  have hsort : ∀ c, (archive c).sort = .obj [(text "components", (Json.obj c).sort),
      (text "schema_version", str "1.0"), (text "target", target.sort)] := fun _ => rfl
  rw [hsort, hsort, h]

theorem isWritten_text {s : String} (h : s.toList.all (fun c => decide (c.toNat < 128)) = true) :
    Py.Literal.IsWritten (.str (text s)) := by
  intro c hc
  obtain ⟨d, hd, rfl⟩ := List.mem_map.mp hc
  have hlt : d.toNat < 128 := of_decide_eq_true (List.all_eq_true.mp h d hd)
  have hval : (Py.CodePoint.ofChar d).val = d.toNat := rfl
  simp only [Py.isSurrogate, Py.isHighSurrogate, Py.isLowSurrogate, hval, Bool.or_eq_false_iff,
    Bool.and_eq_false_iff, decide_eq_false_iff_not]
  omega

/-- An archive has bytes if its components have. -/
theorem allValid_archive {c : Components} (h : Py.AllValid Py.Literal.IsWritten (.obj c)) :
    Py.AllValid Py.Literal.IsWritten (archive c) := by
  have hscalars : (archive c).scalars = .str (text "1.0") :: .str (text "synthetic-demo") ::
      .str (text "1.0.0") :: ((Json.obj c).scalars ++ []) := rfl
  have hkeys : (archive c).keys = text "schema_version" :: text "target" :: text "target_id" ::
      text "target_version" :: text "components" :: ((Json.obj c).keys ++ []) := rfl
  refine ⟨?_, ?_⟩
  · rw [hscalars, List.append_nil]
    simp only [List.forall_mem_cons]
    exact ⟨isWritten_text (by decide), isWritten_text (by decide), isWritten_text (by decide), h.scalars⟩
  · rw [hkeys, List.append_nil]
    simp only [List.forall_mem_cons]
    exact ⟨isWritten_text (by decide), isWritten_text (by decide), isWritten_text (by decide),
      isWritten_text (by decide), isWritten_text (by decide), h.keys⟩

end StateWeaver.StateBridge
