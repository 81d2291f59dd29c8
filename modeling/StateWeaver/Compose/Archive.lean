import StateWeaver.Compose.Adapter
import StateWeaver.Lib.Collecting
import StateWeaver.Lib.JsonTokens
import StateWeaver.Lib.Sha2
import StateWeaver.StateBridge.Archive

/-!
# Archives of a Compose world

What a state bridge prints is parsed, checked against the fixed shape and written again in canonical form; every
component is hashed with its name and the image. An accepted text and its canonical bytes have the same hashes, and
the hashes of two texts differ if their bytes do (`decodeArchive_spec`).
-/

namespace StateWeaver.Compose

open Py (Text Tree Literal AllValid text)
open StateBridge (Components HasKeys IsComponents archiveKeys component componentKeys isObject str targetOf)

/-! ## Decoding -/

def maxStateArchiveBytes : ℕ := 1048576

/-- `_COMPONENTS`. -/
def componentNames : List String := ["filesystem", "database", "cache", "queue", "session", "clock"]

def Profile.archiveSchemaVersion : Profile → String
  | .synthetic => "1.0"
  | .real => "2.0"

/-- Whether `json.dumps` raises at a scalar. -/
def unwritable (allowNan : Bool) : Literal → Bool
  | .float x => !allowNan && !x.isFinite
  | .int n => decide (4300 < (Nat.toDigits 10 n.natAbs).length)
  | _ => false

/-- `json.dumps` with sorted keys, without blanks and beyond ASCII, in UTF-8. -/
def dumped (allowNan : Bool) (value : Tree) : Except Exc ByteArray :=
  if value.scalars.any (unwritable allowNan) then .error (.other "ValueError")
  else if Py.hasSurrogate value then .error (.other "UnicodeEncodeError")
  else .ok (Py.encode (Py.canonicalTextUtf8 value))

/-- `mapping[key]` for a key that is there. -/
def entry (mapping : Components) (key : String) : Tree := component mapping (text key)

/-- The checks of the shape of an archive, and its components. -/
def archiveComponents (profile : Profile) : Tree → Except Exc Components
  | .obj payload => do
      Imp.require (HasKeys payload archiveKeys) (.adapter "fixed state archive has an invalid shape")
      Imp.require (Py.equal (entry payload "schema_version") (str profile.archiveSchemaVersion) = true ∧
          Py.equal (entry payload "target") (targetOf profile.targetId profile.targetVersion) = true)
        (.adapter "fixed state archive target binding is invalid")
      match entry payload "components" with
      | .obj components => do
          Imp.require (HasKeys components (componentNames.map text))
            (.adapter "fixed state archive component coverage is invalid")
          Imp.require (∀ e ∈ components, isObject e.2 = true)
            (.adapter "fixed state archive components must be JSON objects")
          return components
      | _ => .error (.adapter "fixed state archive component coverage is invalid")
  | _ => .error (.adapter "fixed state archive has an invalid shape")

/-- The document of a text and its components. -/
def parseArchive (profile : Profile) (raw : String) : Except Exc (Tree × Components) := do
  Imp.require (raw.toUTF8.size ≠ 0 ∧ raw.toUTF8.size ≤ maxStateArchiveBytes)
    (.adapter "fixed state archive exceeds its size boundary")
  let payload ← (Py.loads raw.toList).mapError fun _ => .adapter "fixed state archive is invalid"
  let components ← archiveComponents profile payload
  return (payload, components)

/-- What the hash of a component is taken of. -/
def hashInput (imageId : String) (components : Components) (name : String) : Tree :=
  .obj [(text "component", str name), (text "image_id", str imageId), (text "state", entry components name)]

variable [Sha256]

/-- `_hash`. -/
def hash (value : Tree) : Except Exc String := do
  let encoded ← dumped true value
  return "sha256:" ++ Sha256.hexdigest encoded

/-- The hashes of the components, under their names. -/
def componentHashes (imageId : String) (components : Components) : Except Exc (List (String × String)) :=
  componentNames.mapM fun name => do
    let digest ← hash (hashInput imageId components name)
    return (name, digest)

/-- `_decode_archive`. -/
def decodeArchive (profile : Profile) (imageId raw : String) : Except Exc (ByteArray × List (String × String)) := do
  let (payload, components) ← parseArchive profile raw
  let canonical ← dumped false payload
  Imp.require (canonical.size ≤ maxStateArchiveBytes) (.adapter "fixed state archive exceeds its size boundary")
  let hashes ← componentHashes imageId components
  return (canonical, hashes)

/-! ## Writing -/

section Writing

omit [Sha256]

theorem dumped_eq_ok {value : Tree} {bytes : ByteArray} : dumped false value = .ok bytes ↔
    AllValid Literal.IsWritten value ∧ bytes = Py.encode (Py.canonicalTextUtf8 value) := by
  have hliteral : ∀ s : Literal, unwritable false s = false → (∀ t, s = .str t → ∀ c ∈ t, Py.isSurrogate c = false) →
      s.IsWritten := by
    intro s hs htext
    cases s with
    | float x =>
        have hx : x.isFinite = true := by simpa [unwritable] using hs
        exact hx
    | int n => exact Nat.le_of_not_lt (of_decide_eq_false hs)
    | str t => exact htext t rfl
    | _ => trivial
  have hwritten : ∀ s : Literal, s.IsWritten → unwritable false s = false := by
    intro s hs
    cases s with
    | float x =>
        have hx : x.isFinite = true := hs
        rw [unwritable, hx]
        rfl
    | int n => exact decide_eq_false (Nat.not_lt.mpr hs)
    | _ => rfl
  rw [dumped]
  split
  · next hany =>
      obtain ⟨s, hs, hbad⟩ := List.any_eq_true.mp hany
      refine iff_of_false nofun fun h => ?_
      rw [hwritten s (h.1.scalars s hs)] at hbad
      cases hbad
  · next hany =>
      rw [Bool.not_eq_true, List.any_eq_false] at hany
      split
      · next hsurrogate =>
          refine iff_of_false nofun fun h => ?_
          have hnone := Py.hasSurrogate_eq_false.mpr ⟨fun t ht => h.1.scalars _ ht, h.1.keys⟩
          rw [hnone] at hsurrogate
          cases hsurrogate
      · next hsurrogate =>
          obtain ⟨htexts, hkeys⟩ := Py.hasSurrogate_eq_false.mp (Bool.not_eq_true _ ▸ hsurrogate)
          rw [Except.ok.injEq, eq_comm]
          refine (and_iff_right ⟨fun s hs => hliteral s (Bool.not_eq_true _ ▸ hany s hs) ?_, hkeys⟩).symm
          rintro t rfl
          exact htexts t hs

theorem dumped_true_of_isWritten {value : Tree} (h : AllValid Literal.IsWritten value) :
    dumped true value = .ok (Py.encode (Py.canonicalTextUtf8 value)) := by
  have hfalse := dumped_eq_ok.mpr ⟨h, rfl⟩
  rw [dumped] at hfalse ⊢
  have hmono : ∀ s : Literal, unwritable true s = true → unwritable false s = true := by
    intro s hs
    cases s with
    | int n => exact hs
    | _ => cases hs
  split at hfalse
  · cases hfalse
  · next hany =>
      rw [if_neg fun htrue => hany (List.any_eq_true.mpr ?_)]
      · exact hfalse
      · obtain ⟨s, hs, hbad⟩ := List.any_eq_true.mp htrue
        exact ⟨s, hs, hmono s hbad⟩

/-- What is written does not depend on the order of entries. -/
theorem dumped_congr (allowNan : Bool) {v w : Tree} (h : v.sort = w.sort) : dumped allowNan v = dumped allowNan w := by
  have hany : v.scalars.any (unwritable allowNan) = w.scalars.any (unwritable allowNan) := by
    rw [Bool.eq_iff_iff, List.any_eq_true, List.any_eq_true]
    refine exists_congr fun s => and_congr_left fun _ => ?_
    rw [← Json.mem_scalars_sort, h, Json.mem_scalars_sort]
  have hsurrogate : Py.hasSurrogate v = Py.hasSurrogate w := by
    rw [← Py.hasSurrogate_sort, h, Py.hasSurrogate_sort]
  rw [dumped, dumped, hany, hsurrogate, Py.canonicalTextUtf8, Py.canonicalTextUtf8, h]

/-- Bytes are written for one value, up to the order of entries. -/
theorem sort_eq_of_encode {v w : Tree} (hv : AllValid Literal.IsWritten v) (hw : AllValid Literal.IsWritten w)
    (hv' : v.Distinct) (hw' : w.Distinct)
    (h : Py.encode (Py.canonicalTextUtf8 v) = Py.encode (Py.canonicalTextUtf8 w)) : v.sort = w.sort := by
  have hloads := Py.loads_canonicalTextUtf8 hv hv'
  rw [Py.encode_injective h, Py.loads_canonicalTextUtf8 hw hw'] at hloads
  exact (Except.ok.inj hloads).symm

/-! ## The shape -/

/-- The archive of some components. -/
def archiveOf (profile : Profile) (components : Components) : Tree :=
  .obj [(text "schema_version", str profile.archiveSchemaVersion),
    (text "target", targetOf profile.targetId profile.targetVersion), (text "components", .obj components)]

theorem sort_archiveOf (profile : Profile) (components : Components) : (archiveOf profile components).sort =
    .obj [(text "components", (Json.obj components).sort), (text "schema_version", str profile.archiveSchemaVersion),
      (text "target", (targetOf profile.targetId profile.targetVersion).sort)] := rfl

/-- The value under a key that is there. -/
theorem lookup_component {mapping : Components} {keys : List Text} (hnodup : (mapping.map Prod.fst).Nodup)
    (hkeys : HasKeys mapping keys) {key : Text} (hkey : key ∈ keys) :
    mapping.lookup key = some (component mapping key) ∧ (key, component mapping key) ∈ mapping := by
  obtain ⟨value, hvalue, hmem⟩ := StateBridge.exists_lookup hnodup (hkeys.2 key hkey)
  rw [component, hvalue, Option.getD_some]
  exact ⟨rfl, hmem⟩

/-- An accepted document is an archive, up to the order of entries; its components are a part of it. -/
theorem archiveComponents_eq_ok {profile : Profile} {v : Tree} {c : Components} (hv : v.Distinct)
    (h : archiveComponents profile v = .ok c) : IsComponents c ∧ v.sort = (archiveOf profile c).sort ∧
      ∀ {valid : Literal → Prop}, AllValid valid v → AllValid valid (.obj c) := by
  cases v with
  | obj payload =>
      rw [archiveComponents, Imp.check_bind_eq_ok, Imp.require_eq_ok] at h
      obtain ⟨hkeys, h⟩ := h
      rw [Imp.check_bind_eq_ok, Imp.require_eq_ok] at h
      obtain ⟨⟨hversion, htarget⟩, h⟩ := h
      have hnodup := StateBridge.nodup_of_distinct hv
      obtain ⟨hlookup, hmem⟩ := @lookup_component _ _ hnodup hkeys (text "components") (by decide)
      obtain ⟨htargetLookup, -⟩ := @lookup_component _ _ hnodup hkeys (text "target") (by decide)
      cases hvalue : entry payload "components" with
      | obj components =>
          rw [hvalue] at h
          simp only [Imp.check_bind_eq_ok, Imp.require_eq_ok] at h
          obtain ⟨hcoverage, hobjects, h⟩ := h
          cases h
          have hcomponents : component payload (text "components") = .obj c := hvalue
          rw [hcomponents] at hlookup hmem
          refine ⟨⟨hcoverage, hv.of_lookup hlookup, hobjects⟩, ?_, fun hvalid =>
            (Py.ReadBack.allValid_of_mem_entries hvalid hmem).2⟩
          have hperm : (payload.map Prod.fst).Perm StateBridge.sortedArchiveKeys := by
            have hsorted : archiveKeys.Perm StateBridge.sortedArchiveKeys := by decide
            rw [List.perm_ext_iff_of_nodup hnodup (by decide)]
            exact fun key => ⟨fun hkey => hsorted.mem_iff.mp (hkeys.1 key hkey),
              fun hkey => hkeys.2 key (hsorted.mem_iff.mpr hkey)⟩
          have hsort : (Json.obj payload).sort = .obj (StateBridge.sortedArchiveKeys.map fun key =>
              (key, Json.sort (component payload key))) :=
            Json.sort_obj (by decide) hperm fun e he => by
              rw [component, StateBridge.lookup_eq_some hnodup he, Option.getD_some]
          have hschema : component payload (text "schema_version") = str profile.archiveSchemaVersion :=
            StateBridge.equal_str hversion
          rw [hsort, sort_archiveOf]
          simp only [StateBridge.sortedArchiveKeys, List.map_cons, List.map_nil, hschema, hcomponents,
            StateBridge.sort_of_equal_targetOf (hv.of_lookup htargetLookup) htarget]
          rfl
      | _ =>
          rw [hvalue] at h
          cases h
  | _ => cases h

/-- The components with all entries in order. -/
def inOrder (c : Components) : Components := componentKeys.map fun key => (key, (component c key).sort)

theorem component_inOrder (c : Components) {name : String} (hname : name ∈ componentNames) :
    entry (inOrder c) name = (entry c name).sort := by
  revert name
  simp only [componentNames, List.forall_mem_cons]
  exact ⟨rfl, rfl, rfl, rfl, rfl, rfl, List.forall_mem_nil _⟩

/-- An accepted document is accepted with all entries in order, too. -/
theorem archiveComponents_sort {profile : Profile} {v : Tree} {c : Components} (hv : v.Distinct)
    (h : archiveComponents profile v = .ok c) : archiveComponents profile v.sort = .ok (inOrder c) := by
  obtain ⟨hc, hsort, -⟩ := archiveComponents_eq_ok hv h
  have hkeys : HasKeys [(text "components", Json.obj (inOrder c)),
      (text "schema_version", str profile.archiveSchemaVersion),
      (text "target", (targetOf profile.targetId profile.targetVersion).sort)] archiveKeys := by
    change (∀ key ∈ StateBridge.sortedArchiveKeys, key ∈ archiveKeys) ∧
      ∀ key ∈ archiveKeys, key ∈ StateBridge.sortedArchiveKeys
    decide
  have hcoverage : HasKeys (inOrder c) (componentNames.map text) := by
    have hmap : (inOrder c).map Prod.fst = componentKeys := rfl
    rw [HasKeys, hmap]
    decide
  have hobjects : ∀ e ∈ inOrder c, isObject e.2 = true := by
    intro e he
    obtain ⟨key, hkey, rfl⟩ := List.mem_map.mp he
    have hname : ∀ key ∈ componentKeys, ∃ p ∈ StateBridge.componentPaths, p.1 = key := by decide
    obtain ⟨p, hp, rfl⟩ := hname key hkey
    exact (StateBridge.isObject_sort _).trans (hc.isObject hp)
  have hbound : Py.equal (str profile.archiveSchemaVersion) (str profile.archiveSchemaVersion) = true ∧
      Py.equal (targetOf profile.targetId profile.targetVersion).sort
        (targetOf profile.targetId profile.targetVersion) = true := by
    cases profile with
    | synthetic => decide +kernel
    | real => decide +kernel
  have horder : (Json.obj c).sort = .obj (inOrder c) := hc.sort_eq
  rw [hsort, sort_archiveOf, horder, archiveComponents, Imp.check_bind_eq_ok]
  refine ⟨Imp.require_eq_ok.mpr hkeys, Imp.check_bind_eq_ok.mpr ⟨Imp.require_eq_ok.mpr hbound, ?_⟩⟩
  change (Imp.require (HasKeys (inOrder c) (componentNames.map text)) _ >>= _) = _
  exact Imp.check_bind_eq_ok.mpr ⟨Imp.require_eq_ok.mpr hcoverage,
    Imp.check_bind_eq_ok.mpr ⟨Imp.require_eq_ok.mpr hobjects, rfl⟩⟩

/-- Only one kind of exception leaves the checks of the shape. -/
theorem adapter_of_archiveComponents {profile : Profile} {v : Tree} {e : Exc}
    (h : archiveComponents profile v = .error e) : ∃ message, e = .adapter message := by
  cases v with
  | obj payload =>
      rw [archiveComponents, Imp.except_bind_eq_error, Imp.require_eq_error] at h
      rcases h with ⟨-, rfl⟩ | ⟨-, -, h⟩
      · exact ⟨_, rfl⟩
      rw [Imp.except_bind_eq_error, Imp.require_eq_error] at h
      rcases h with ⟨-, rfl⟩ | ⟨-, -, h⟩
      · exact ⟨_, rfl⟩
      split at h
      · rw [Imp.except_bind_eq_error, Imp.require_eq_error] at h
        rcases h with ⟨-, rfl⟩ | ⟨-, -, h⟩
        · exact ⟨_, rfl⟩
        rw [Imp.except_bind_eq_error, Imp.require_eq_error] at h
        rcases h with ⟨-, rfl⟩ | ⟨-, -, h⟩
        · exact ⟨_, rfl⟩
        · cases h
      · cases h
        exact ⟨_, rfl⟩
  | _ =>
      cases h
      exact ⟨_, rfl⟩

theorem parseArchive_eq_ok {profile : Profile} {raw : String} {p : Tree × Components} :
    parseArchive profile raw = .ok p ↔ (raw.toUTF8.size ≠ 0 ∧ raw.toUTF8.size ≤ maxStateArchiveBytes) ∧
      Py.loads raw.toList = .ok p.1 ∧ archiveComponents profile p.1 = .ok p.2 := by
  rw [parseArchive, Imp.check_bind_eq_ok, Imp.require_eq_ok]
  refine and_congr_right fun _ => ?_
  cases Py.loads raw.toList with
  | error e => exact iff_of_false nofun fun h => nomatch h.1
  | ok payload =>
      change (archiveComponents profile payload >>= _) = _ ↔ _
      rw [Imp.except_bind_eq_ok]
      constructor
      · rintro ⟨c, hc, h⟩
        cases h
        exact ⟨rfl, hc⟩
      · rintro ⟨hp, hc⟩
        cases hp
        exact ⟨p.2, hc, rfl⟩

theorem adapter_of_parseArchive {profile : Profile} {raw : String} {e : Exc}
    (h : parseArchive profile raw = .error e) : ∃ message, e = .adapter message := by
  rw [parseArchive, Imp.except_bind_eq_error, Imp.require_eq_error] at h
  rcases h with ⟨-, rfl⟩ | ⟨-, -, h⟩
  · exact ⟨_, rfl⟩
  rw [Imp.except_bind_eq_error] at h
  rcases h with h | ⟨payload, -, h⟩
  · cases hloads : Py.loads raw.toList with
    | error e' =>
        rw [hloads] at h
        cases h
        exact ⟨_, rfl⟩
    | ok v =>
        rw [hloads] at h
        cases h
  · rw [Imp.except_bind_eq_error] at h
    rcases h with h | ⟨c, -, h⟩
    · exact adapter_of_archiveComponents h
    · cases h

/-! ## Hashes -/

theorem isWritten_text (s : String) : Literal.IsWritten (.str (text s)) := by
  intro c hc
  obtain ⟨d, -, rfl⟩ := List.mem_map.mp hc
  have hval : (Py.CodePoint.ofChar d).val = d.val.toNat := rfl
  simp only [Py.isSurrogate, Py.isHighSurrogate, Py.isLowSurrogate, hval, Bool.or_eq_false_iff,
    Bool.and_eq_false_iff, decide_eq_false_iff_not]
  rcases d.valid with h | ⟨h, -⟩
  · have hlt : d.val.toNat < 0xd800 := h
    omega
  · have hlt : 0xdfff < d.val.toNat := h
    omega

section Components

variable {c c' : Components} (hc : IsComponents c) {name : String} (hname : name ∈ componentNames)

include hc hname

theorem mem_entry : (text name, entry c name) ∈ c := by
  have hkey : ∀ name ∈ componentNames, ∃ p ∈ StateBridge.componentPaths, p.1 = text name := by decide
  obtain ⟨p, hp, hp'⟩ := hkey name hname
  have hmem := (hc.lookup hp).2
  rwa [hp'] at hmem

theorem distinct_hashInput (imageId : String) : (hashInput imageId c name).Distinct := by
  have hstate : (entry c name).Distinct := by
    cases hc.distinct with
    | obj _ h => exact h _ (mem_entry hc hname)
  refine .obj (show [text "component", text "image_id", text "state"].Nodup by decide) ?_
  simp only [List.forall_mem_cons]
  exact ⟨.scalar _, .scalar _, hstate, List.forall_mem_nil _⟩

theorem isWritten_hashInput (imageId : String) (hv : AllValid Literal.IsWritten (.obj c)) :
    AllValid Literal.IsWritten (hashInput imageId c name) := by
  have hstate := (Py.ReadBack.allValid_of_mem_entries hv (mem_entry hc hname)).2
  have hscalars : (hashInput imageId c name).scalars =
      .str (text name) :: .str (text imageId) :: ((entry c name).scalars ++ []) := rfl
  have hkeys : (hashInput imageId c name).keys =
      text "component" :: text "image_id" :: text "state" :: ((entry c name).keys ++ []) := rfl
  refine ⟨?_, ?_⟩
  · rw [hscalars, List.append_nil]
    simp only [List.forall_mem_cons]
    exact ⟨isWritten_text _, isWritten_text _, hstate.scalars⟩
  · rw [hkeys, List.append_nil]
    simp only [List.forall_mem_cons]
    exact ⟨isWritten_text _, isWritten_text _, isWritten_text _, hstate.keys⟩

end Components

theorem sort_hashInput (imageId : String) (c : Components) (name : String) : (hashInput imageId c name).sort =
    .obj [(text "component", str name), (text "image_id", str imageId), (text "state", (entry c name).sort)] := rfl

theorem sort_hashInput_inj {imageId name : String} {c c' : Components} :
    (hashInput imageId c name).sort = (hashInput imageId c' name).sort ↔ (entry c name).sort = (entry c' name).sort := by
  rw [sort_hashInput, sort_hashInput]
  constructor
  · intro h
    injection h with h
    injection h with _ h
    injection h with _ h
    injection h with h _
    exact congrArg Prod.snd h
  · intro h
    rw [h]

/-- Components are the same in order if all their values are. -/
theorem sort_eq_of_entries {c c' : Components} (hc : IsComponents c) (hc' : IsComponents c')
    (h : ∀ name ∈ componentNames, (entry c name).sort = (entry c' name).sort) :
    (Json.obj c).sort = (Json.obj c').sort := by
  have hname : ∀ key ∈ componentKeys, ∃ name ∈ componentNames, text name = key := by decide
  rw [hc.sort_eq, hc'.sort_eq, Json.obj.injEq]
  refine List.map_inj_left.mpr fun key hkey => Prod.ext rfl ?_
  obtain ⟨name, hmem, rfl⟩ := hname key hkey
  exact h name hmem

theorem entries_of_sort_eq {c c' : Components} (hc : IsComponents c) (hc' : IsComponents c')
    (h : (Json.obj c).sort = (Json.obj c').sort) {name : String} (hname : name ∈ componentNames) :
    (entry c name).sort = (entry c' name).sort := by
  have hkey : ∀ name ∈ componentNames, ∃ p ∈ StateBridge.componentPaths, p.1 = text name := by decide
  obtain ⟨p, hp, hp'⟩ := hkey name hname
  have heq := hc.sort_component_of_sort_eq hc' h hp
  rwa [hp'] at heq

end Writing

theorem componentHashes_eq (imageId : String) {c : Components} (hc : IsComponents c)
    (hv : AllValid Literal.IsWritten (.obj c)) : componentHashes imageId c = .ok (componentNames.map fun name =>
      (name, "sha256:" ++ Sha256.hexdigest (Py.encode (Py.canonicalTextUtf8 (hashInput imageId c name))))) := by
  refine Imp.mapM_eq_map fun name hname => ?_
  rw [hash, dumped_true_of_isWritten (isWritten_hashInput hc hname imageId hv)]
  rfl

theorem decodeArchive_eq_ok {profile : Profile} {imageId raw : String} {archive : ByteArray}
    {hashes : List (String × String)} : decodeArchive profile imageId raw = .ok (archive, hashes) ↔
      ∃ p, parseArchive profile raw = .ok p ∧ AllValid Literal.IsWritten p.1 ∧
        archive = Py.encode (Py.canonicalTextUtf8 p.1) ∧ archive.size ≤ maxStateArchiveBytes ∧
          componentHashes imageId p.2 = .ok hashes := by
  rw [decodeArchive, Imp.except_bind_eq_ok]
  refine exists_congr fun p => and_congr_right fun _ => ?_
  rw [Imp.except_bind_eq_ok]
  constructor
  · rintro ⟨canonical, hcanonical, h⟩
    obtain ⟨hwritten, rfl⟩ := dumped_eq_ok.mp hcanonical
    obtain ⟨hsize, h⟩ := Imp.check_bind_eq_ok.mp h
    obtain ⟨hashes', hhashes, h⟩ := Imp.except_bind_eq_ok.mp h
    cases h
    exact ⟨hwritten, rfl, Imp.require_eq_ok.mp hsize, hhashes⟩
  · rintro ⟨hwritten, rfl, hsize, hhashes⟩
    refine ⟨_, dumped_eq_ok.mpr ⟨hwritten, rfl⟩, Imp.check_bind_eq_ok.mpr ⟨Imp.require_eq_ok.mpr hsize, ?_⟩⟩
    exact Imp.except_bind_eq_ok.mpr ⟨hashes, hhashes, rfl⟩

/-! ## What is accepted -/

/-- Whether decoding raises the adapter's exception or returns the canonical bytes of the document, from which the same
bytes and hashes are decoded. -/
def Closed (profile : Profile) (imageId raw : String) : Prop :=
  (∃ message, decodeArchive profile imageId raw = .error (.adapter message)) ∨
  ∃ archive hashes payload decoded, decodeArchive profile imageId raw = .ok (archive, hashes) ∧
    Py.loads raw.toList = .ok payload ∧ Py.canonicalUtf8 payload = .ok archive ∧
    Py.decode archive = some decoded ∧ decodeArchive profile imageId (String.ofList decoded) = .ok (archive, hashes)

omit [Sha256] in
/-- Whether a text is an archive of the right shape with a number too large for a float or an unpaired surrogate. -/
def HasUnwritable (profile : Profile) (raw : String) : Prop :=
  raw.toUTF8.size ≤ maxStateArchiveBytes ∧ ∃ payload components, Py.loads raw.toList = .ok payload ∧
    archiveComponents profile payload = .ok components ∧
    ((∃ x, Literal.float x ∈ payload.scalars ∧ x.isFinite = false) ∨ Py.hasSurrogate payload = true)

omit [Sha256] in
theorem sort_sort {v : Tree} (hv : v.Distinct) : v.sort.sort = v.sort :=
  ((Json.ascending_iff _).mp (Json.ascending_sort hv)).2

/-- From the canonical bytes of a document, the same bytes and hashes are decoded. -/
theorem decodeArchive_canonical {profile : Profile} {imageId raw : String} {archive : ByteArray}
    {hashes : List (String × String)} (h : decodeArchive profile imageId raw = .ok (archive, hashes)) :
    ∃ payload decoded, Py.loads raw.toList = .ok payload ∧ Py.canonicalUtf8 payload = .ok archive ∧
      Py.decode archive = some decoded ∧
        decodeArchive profile imageId (String.ofList decoded) = .ok (archive, hashes) := by
  obtain ⟨⟨payload, c⟩, hparse, hwritten, rfl, hsize, hhashes⟩ := decodeArchive_eq_ok.mp h
  obtain ⟨-, hloads, hcomponents⟩ := parseArchive_eq_ok.mp hparse
  have hdistinct := Py.distinct_of_loads hloads
  have hback := Py.loads_canonicalTextUtf8 hwritten hdistinct
  have hsorted := archiveComponents_sort hdistinct hcomponents
  obtain ⟨hc, -, hvalid⟩ := archiveComponents_eq_ok hdistinct hcomponents
  obtain ⟨hc', -, hvalid'⟩ :=
    archiveComponents_eq_ok ((Json.distinct_sort_iff payload).mpr hdistinct) hsorted
  refine ⟨payload, Py.canonicalTextUtf8 payload, hloads, Py.canonicalUtf8_eq_ok.mpr ⟨hwritten, rfl⟩,
    Py.decode_encode _, decodeArchive_eq_ok.mpr ⟨(payload.sort, inOrder c), ?_, Py.allValid_sort hwritten, ?_, hsize, ?_⟩⟩
  · refine parseArchive_eq_ok.mpr ⟨⟨Py.size_encode_pos fun hnil => ?_, hsize⟩, ?_, hsorted⟩
    · rw [hnil] at hback
      cases hback
    · rw [String.toList_ofList]
      exact hback
  · rw [Py.canonicalTextUtf8, Py.canonicalTextUtf8, sort_sort hdistinct]
  · rw [componentHashes_eq imageId hc (hvalid hwritten), Except.ok.injEq] at hhashes
    rw [componentHashes_eq imageId hc' (hvalid' (Py.allValid_sort hwritten)), ← hhashes, Except.ok.injEq]
    refine List.map_inj_left.mpr fun name hname => ?_
    have hstate : (entry c name).Distinct := by
      cases hc.distinct with
      | obj _ h => exact h _ (mem_entry hc hname)
    have hsame : (hashInput imageId (inOrder c) name).sort = (hashInput imageId c name).sort := by
      rw [sort_hashInput_inj, component_inOrder c hname, sort_sort hstate]
    rw [Py.canonicalTextUtf8, Py.canonicalTextUtf8, hsame]

omit [Sha256] in
/-- What makes `json.dumps` or its encoding raise. -/
theorem isWritten_of_loads {raw : String} {payload : Tree} (hloads : Py.loads raw.toList = .ok payload)
    (hfinite : ∀ x, Literal.float x ∈ payload.scalars → x.isFinite = true) (hsurrogate : Py.hasSurrogate payload = false) :
    AllValid Literal.IsWritten payload := by
  obtain ⟨htexts, hkeys⟩ := Py.hasSurrogate_eq_false.mp hsurrogate
  refine ⟨fun s hs => ?_, hkeys⟩
  cases s with
  | float x => exact hfinite x hs
  | int n => exact Py.allShort_of_loads hloads _ hs n rfl
  | str t => exact htexts t hs
  | _ => trivial

/-- Decoding is closed exactly if no archive with something that cannot be written is parsed. -/
theorem closed_iff {profile : Profile} {imageId raw : String} :
    Closed profile imageId raw ↔ ¬ HasUnwritable profile raw := by
  constructor
  · rintro hclosed ⟨hsize, payload, c, hloads, hcomponents, hbad⟩
    have hparse : parseArchive profile raw = .ok (payload, c) := by
      refine parseArchive_eq_ok.mpr ⟨⟨fun hzero => ?_, hsize⟩, hloads, hcomponents⟩
      have hnil : raw.toList = [] := by
        by_contra hne
        refine Py.size_encode_pos hne ?_
        rw [Py.encode, String.ofList_toList]
        exact hzero
      rw [hnil] at hloads
      cases hloads
    have hnot : ¬ AllValid Literal.IsWritten payload := by
      intro hwritten
      rcases hbad with ⟨x, hx, hinfinite⟩ | hsurrogate
      · have hfinite : x.isFinite = true := hwritten.scalars _ hx
        rw [hfinite] at hinfinite
        cases hinfinite
      · rw [Py.hasSurrogate_eq_false.mpr ⟨fun t ht => hwritten.scalars _ ht, hwritten.keys⟩] at hsurrogate
        cases hsurrogate
    rcases hclosed with ⟨message, h⟩ | ⟨archive, hashes, -, -, h, -⟩
    · rw [decodeArchive, hparse] at h
      change (dumped false payload >>= _) = _ at h
      cases hdumped : dumped false payload with
      | ok bytes => exact hnot (dumped_eq_ok.mp hdumped).1
      | error e =>
          rw [hdumped] at h
          have he : e = .adapter message := Except.error.inj h
          rw [dumped] at hdumped
          split at hdumped
          · rw [he] at hdumped
            cases hdumped
          · split at hdumped
            · rw [he] at hdumped
              cases hdumped
            · cases hdumped
    · obtain ⟨p, hp, hwritten, -⟩ := decodeArchive_eq_ok.mp h
      rw [hparse] at hp
      cases hp
      exact hnot hwritten
  · intro hgood
    cases hresult : decodeArchive profile imageId raw with
    | ok result =>
        obtain ⟨archive, hashes⟩ := result
        obtain ⟨payload, decoded, hloads, hcanonical, hdecoded, hback⟩ := decodeArchive_canonical hresult
        exact Or.inr ⟨archive, hashes, payload, decoded, hresult, hloads, hcanonical, hdecoded, hback⟩
    | error e =>
        refine Or.inl ?_
        suffices he : ∃ message, e = .adapter message by
          obtain ⟨message, rfl⟩ := he
          exact ⟨message, hresult⟩
        rw [decodeArchive, Imp.except_bind_eq_error] at hresult
        rcases hresult with hparse | ⟨⟨payload, c⟩, hparse, hresult⟩
        · exact adapter_of_parseArchive hparse
        obtain ⟨⟨-, hsize⟩, hloads, hcomponents⟩ := parseArchive_eq_ok.mp hparse
        have hwritten : AllValid Literal.IsWritten payload := by
          refine isWritten_of_loads hloads (fun x hx => ?_) ?_
          · by_contra hinfinite
            exact hgood ⟨hsize, payload, c, hloads, hcomponents, Or.inl ⟨x, hx, Bool.not_eq_true _ ▸ hinfinite⟩⟩
          · by_contra hsurrogate
            exact hgood ⟨hsize, payload, c, hloads, hcomponents, Or.inr (Bool.not_eq_false _ ▸ hsurrogate)⟩
        obtain ⟨hc, -, hvalid⟩ := archiveComponents_eq_ok (Py.distinct_of_loads hloads) hcomponents
        have hdumped := dumped_eq_ok.mpr ⟨hwritten, rfl⟩
        change (dumped false payload >>= _) = _ at hresult
        rw [hdumped] at hresult
        change (Imp.require _ _ >>= _) = _ at hresult
        rw [Imp.except_bind_eq_error, Imp.require_eq_error] at hresult
        rcases hresult with ⟨-, rfl⟩ | ⟨-, -, hresult⟩
        · exact ⟨_, rfl⟩
        · change (componentHashes imageId c >>= _) = _ at hresult
          rw [componentHashes_eq imageId hc (hvalid hwritten)] at hresult
          cases hresult

/-- Whether SHA-256 does not collide on what is hashed for two texts under one name. -/
def Separated (profile : Profile) (imageId raw raw' : String) : Prop :=
  ∀ p p', parseArchive profile raw = .ok p → parseArchive profile raw' = .ok p' → ∀ name ∈ componentNames,
    Sha256.NoCollision (dumped true (hashInput imageId p.2 name)) (dumped true (hashInput imageId p'.2 name))

/-- Accepted texts have the same hashes exactly if they have the same bytes. -/
theorem hashes_eq_iff {profile : Profile} {imageId raw raw' : String} {archive archive' : ByteArray}
    {hashes hashes' : List (String × String)} (h : decodeArchive profile imageId raw = .ok (archive, hashes))
    (h' : decodeArchive profile imageId raw' = .ok (archive', hashes')) (hseparated : Separated profile imageId raw raw') :
    hashes = hashes' ↔ archive = archive' := by
  obtain ⟨⟨v, c⟩, hparse, hwritten, rfl, -, hhashes⟩ := decodeArchive_eq_ok.mp h
  obtain ⟨⟨v', c'⟩, hparse', hwritten', rfl, -, hhashes'⟩ := decodeArchive_eq_ok.mp h'
  obtain ⟨-, hloads, hcomponents⟩ := parseArchive_eq_ok.mp hparse
  obtain ⟨-, hloads', hcomponents'⟩ := parseArchive_eq_ok.mp hparse'
  have hdistinct := Py.distinct_of_loads hloads
  have hdistinct' := Py.distinct_of_loads hloads'
  obtain ⟨hc, hsort, hvalid⟩ := archiveComponents_eq_ok hdistinct hcomponents
  obtain ⟨hc', hsort', hvalid'⟩ := archiveComponents_eq_ok hdistinct' hcomponents'
  rw [componentHashes_eq imageId hc (hvalid hwritten), Except.ok.injEq] at hhashes
  rw [componentHashes_eq imageId hc' (hvalid' hwritten'), Except.ok.injEq] at hhashes'
  rw [← hhashes, ← hhashes', List.map_inj_left]
  constructor
  · intro hequal
    have hentries : ∀ name ∈ componentNames, (entry c name).sort = (entry c' name).sort := by
      intro name hname
      have hwrittenInput := isWritten_hashInput hc hname imageId (hvalid hwritten)
      have hwrittenInput' := isWritten_hashInput hc' hname imageId (hvalid' hwritten')
      have hdigest := (String.append_right_inj _).mp (congrArg Prod.snd (hequal name hname))
      have hbytes := hseparated _ _ hparse hparse' name hname _ _ (dumped_true_of_isWritten hwrittenInput)
        (dumped_true_of_isWritten hwrittenInput') hdigest
      exact sort_hashInput_inj.mp (sort_eq_of_encode hwrittenInput hwrittenInput' (distinct_hashInput hc hname imageId)
        (distinct_hashInput hc' hname imageId) hbytes)
    have hsame : v.sort = v'.sort := by
      rw [hsort, hsort', sort_archiveOf, sort_archiveOf, sort_eq_of_entries hc hc' hentries]
    rw [Py.canonicalTextUtf8, Py.canonicalTextUtf8, hsame]
  · intro hbytes name hname
    have hsame := sort_eq_of_encode hwritten hwritten' hdistinct hdistinct' hbytes
    rw [hsort, hsort', sort_archiveOf, sort_archiveOf] at hsame
    injection hsame with hsame
    injection hsame with hsame _
    have hentry := entries_of_sort_eq hc hc' (congrArg Prod.snd hsame) hname
    have hinput := (@sort_hashInput_inj imageId _ _ _).mpr hentry
    rw [Py.canonicalTextUtf8, Py.canonicalTextUtf8, hinput]

/-- `_decode_archive` raises the adapter's exception or returns canonical bytes that decode to themselves, unless the
text is an archive with something that cannot be written; and hashes are the same exactly if bytes are. -/
theorem decodeArchive_spec (profile : Profile) (imageId raw : String) :
    (Closed profile imageId raw ↔ ¬ HasUnwritable profile raw) ∧
    ∀ raw' archive archive' hashes hashes', decodeArchive profile imageId raw = .ok (archive, hashes) →
      decodeArchive profile imageId raw' = .ok (archive', hashes') → Separated profile imageId raw raw' →
        (hashes = hashes' ↔ archive = archive') :=
  ⟨closed_iff, fun _ _ _ _ _ h h' hseparated => hashes_eq_iff h h' hseparated⟩

end StateWeaver.Compose

namespace StateWeaver.Compose

open Py (Tree)
open StateBridge (Components)

/-- `parseArchive` of some characters. -/
theorem parseArchive_ofList (profile : Profile) (chars : List Char) : parseArchive profile (String.ofList chars) = (do
    Imp.require ((Py.encode chars).size ≠ 0 ∧ (Py.encode chars).size ≤ maxStateArchiveBytes)
      (.adapter "fixed state archive exceeds its size boundary")
    let payload ← (Py.loads chars).mapError fun _ => .adapter "fixed state archive is invalid"
    let components ← archiveComponents profile payload
    return (payload, components)) := by
  rw [parseArchive, String.toList_ofList]
  rfl

theorem decodeArchive_of_parse [Sha256] {profile : Profile} {imageId raw : String} {parsed : Except Exc (Tree × Components)}
    (h : parseArchive profile raw = parsed) : decodeArchive profile imageId raw = (do
      let (payload, components) ← parsed
      let canonical ← dumped false payload
      Imp.require (canonical.size ≤ maxStateArchiveBytes) (.adapter "fixed state archive exceeds its size boundary")
      let hashes ← componentHashes imageId components
      return (canonical, hashes)) := by
  rw [decodeArchive, h]

/-- An archive that is printed with a value for the clock, and with something at its end. -/
def printed (now blank : String) : List Char :=
  (["\x7b\"schema_version\":\"1.0\",", "\"target\":\x7b\"target_id\":", "\"synthetic-demo\",",
    "\"target_version\":\"1.0.0\"\x7d,", "\"components\":\x7b", "\"filesystem\":\x7b\x7d,", "\"database\":\x7b\x7d,",
    "\"cache\":\x7b\x7d,\"queue\":\x7b\x7d,", "\"session\":\x7b\x7d,", "\"clock\":\x7b\"now\":", now, "\x7d\x7d\x7d",
    blank].flatMap String.toList)

attribute [local instance] Sha2.sha256

/-- What is printed with a blank at its end has the same hashes, since it has the same bytes. -/
theorem decodeArchive_spec_printed : ∃ archive archive' hashes hashes',
    decodeArchive .synthetic "sha256:0" (String.ofList (printed "1" "")) = .ok (archive, hashes) ∧
      decodeArchive .synthetic "sha256:0" (String.ofList (printed "1" " ")) = .ok (archive', hashes') ∧
        hashes = hashes' := by
  have hparse := parseArchive_ofList .synthetic (printed "1" "")
  have hparse' := parseArchive_ofList .synthetic (printed "1" " ")
  have hdecoded : (decodeArchive .synthetic "sha256:0" (String.ofList (printed "1" ""))).toOption.isSome = true :=
    (congrArg (fun x => x.toOption.isSome) (decodeArchive_of_parse hparse)).trans (by decide +kernel)
  have hsame : (decodeArchive .synthetic "sha256:0" (String.ofList (printed "1" ""))).toOption.map Prod.fst =
      (decodeArchive .synthetic "sha256:0" (String.ofList (printed "1" " "))).toOption.map Prod.fst := by
    refine (congrArg (fun x => x.toOption.map Prod.fst) (decodeArchive_of_parse hparse)).trans (Eq.trans ?_
      (congrArg (fun x => x.toOption.map Prod.fst) (decodeArchive_of_parse hparse')).symm)
    decide +kernel
  let inputs := fun parsed : Except Exc (Tree × Components) => parsed.toOption.map fun p =>
    componentNames.map fun name => (dumped true (hashInput "sha256:0" p.2 name)).toOption
  have hinputs : inputs (parseArchive .synthetic (String.ofList (printed "1" ""))) =
      inputs (parseArchive .synthetic (String.ofList (printed "1" " "))) := by
    refine (congrArg inputs hparse).trans (Eq.trans ?_ (congrArg inputs hparse').symm)
    decide +kernel
  cases h : decodeArchive .synthetic "sha256:0" (String.ofList (printed "1" "")) with
  | error e =>
      rw [h] at hdecoded
      cases hdecoded
  | ok result =>
      cases h' : decodeArchive .synthetic "sha256:0" (String.ofList (printed "1" " ")) with
      | error e =>
          rw [h, h'] at hsame
          cases hsame
      | ok result' =>
          rw [h, h'] at hsame
          refine ⟨result.1, result'.1, result.2, result'.2, rfl, rfl, ?_⟩
          refine ((decodeArchive_spec .synthetic "sha256:0" (String.ofList (printed "1" ""))).2 _ _ _ _ _ h h' ?_).mpr
            (Option.some.inj hsame)
          intro p p' hp hp' name hname bytes bytes' hbytes hbytes' _
          rw [hp, hp'] at hinputs
          have heq := List.map_inj_left.mp (Option.some.inj hinputs) name hname
          rw [hbytes, hbytes'] at heq
          exact Option.some.inj heq

/-- A number that is too large, and an unpaired surrogate. -/
theorem decodeArchive_counterexample :
    decodeArchive .synthetic "sha256:0" (String.ofList (printed "1e999" "")) = .error (.other "ValueError") ∧
      decodeArchive .synthetic "sha256:0" (String.ofList (printed "\"\\ud800\"" "")) =
        .error (.other "UnicodeEncodeError") ∧
          ¬ Closed .synthetic "sha256:0" (String.ofList (printed "1e999" "")) := by
  have hlarge : decodeArchive .synthetic "sha256:0" (String.ofList (printed "1e999" "")) =
      .error (.other "ValueError") :=
    (decodeArchive_of_parse (parseArchive_ofList .synthetic _)).trans (by decide +kernel)
  refine ⟨hlarge, (decodeArchive_of_parse (parseArchive_ofList .synthetic _)).trans (by decide +kernel), ?_⟩
  rintro (⟨message, h⟩ | ⟨archive, hashes, -, -, h, -⟩)
  · rw [hlarge] at h
    cases h
  · rw [hlarge] at h
    cases h

end StateWeaver.Compose
