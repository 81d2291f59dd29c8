import StateWeaver.Contracts.CanonicalJson
import StateWeaver.Lib.Sha2

/-!
# What a digest covers

Values that are written alike have equal parts (`Alike`). Where the hash function does not collide on
the bytes that are hashed, equal digests are digests of values that are written alike.
-/

namespace StateWeaver.Contracts

/-! ## Values that are written alike -/

/-- Values whose plain JSON is the same. -/
def Alike (v w : Value) : Prop :=
  ∃ j k, jsonReady v = .ok j ∧ jsonReady w = .ok k ∧ j.Same k

theorem same_of_dumps_eq {j k : PlainJson} {t : String} (hj : dumps j = .ok t)
    (hk : dumps k = .ok t) : j.Same k := by
  obtain ⟨hscalars, htext⟩ := dumps_eq_ok.mp hj
  obtain ⟨hscalars', htext'⟩ := dumps_eq_ok.mp hk
  rw [htext] at htext'
  refine Json.same_of_sort_eq j k
    (Json.text_inj Py.readable_jsonSyntax ?_ ?_ (String.ofList_injective htext'))
  · exact fun s hs => isFinite_of_scalarError (hscalars s ((Json.mem_scalars_sort j s).mp hs))
  · exact fun s hs => isFinite_of_scalarError (hscalars' s ((Json.mem_scalars_sort k s).mp hs))

theorem canonicalJsonBytes_eq_ok {v : Value} {bytes : ByteArray} :
    canonicalJsonBytes v = .ok bytes ↔
      ∃ j t, jsonReady v = .ok j ∧ dumps j = .ok t ∧ bytes = t.toUTF8 := by
  rw [canonicalJsonBytes, Imp.except_bind_eq_ok]
  constructor
  · rintro ⟨j, hj, h⟩
    obtain ⟨t, ht, h⟩ := Imp.except_bind_eq_ok.mp h
    exact ⟨j, t, hj, ht, (Except.ok.inj h).symm⟩
  · rintro ⟨j, t, hj, ht, rfl⟩
    refine ⟨j, hj, ?_⟩
    rw [ht]
    rfl

theorem alike_of_bytes {v w : Value} {bytes : ByteArray} (hv : canonicalJsonBytes v = .ok bytes)
    (hw : canonicalJsonBytes w = .ok bytes) : Alike v w := by
  obtain ⟨j, t, hj, ht, rfl⟩ := canonicalJsonBytes_eq_ok.mp hv
  obtain ⟨k, t', hk, ht', hbytes⟩ := canonicalJsonBytes_eq_ok.mp hw
  rw [← String.toByteArray_inj.mp hbytes] at ht'
  exact ⟨j, k, hj, hk, same_of_dumps_eq ht ht'⟩

theorem Alike.scalar {s s' : Py.Scalar} (h : Alike (.scalar s) (.scalar s')) : s = s' := by
  obtain ⟨j, k, hj, hk, hsame⟩ := h
  have hplain : ∀ {s : Py.Scalar} {j : PlainJson}, jsonReady (.scalar s) = .ok j → j = .scalar s :=
    fun {s} _ h => (preserved (.scalar s) _ h).1
  rw [hplain hj, hplain hk] at hsame
  cases hsame
  rfl

theorem Alike.enum {a b : String} (h : Alike (.enum a) (.enum b)) : a = b := by
  obtain ⟨j, k, hj, hk, hsame⟩ := h
  cases hj
  cases hk
  cases hsame
  rfl

theorem isoformat_inj {a b : Instant} {t : String} (ha : a.isoformat = .ok t)
    (hb : b.isoformat = .ok t) : a = b := by
  rw [Instant.isoformat] at ha hb
  split_ifs at ha with hina
  split_ifs at hb with hinb
  rw [← Except.ok.inj ha] at hb
  have htext := String.ofList_injective (Except.ok.inj hb)
  have hpassed := Py.isoText_inj (by omega) (by omega) htext
  obtain ⟨a⟩ := a
  obtain ⟨b⟩ := b
  simp only [Instant.mk.injEq] at hina hinb hpassed ⊢
  omega

theorem Alike.datetime {a b : Instant} (h : Alike (.datetime (some a)) (.datetime (some b))) :
    a = b := by
  obtain ⟨j, k, hj, hk, hsame⟩ := h
  rw [jsonReady] at hj hk
  obtain ⟨t, ht, hj⟩ := Imp.except_bind_eq_ok.mp hj
  obtain ⟨t', ht', hk⟩ := Imp.except_bind_eq_ok.mp hk
  cases hj
  cases hk
  cases hsame
  exact isoformat_inj ht ht'

theorem Alike.ofJson {v w : PlainJson} (h : Alike (.ofJson v) (.ofJson w)) : v.Same w := by
  obtain ⟨j, k, hj, hk, hsame⟩ := h
  rw [(preserved v j hj).1, (preserved w k hk).1] at hsame
  exact hsame

/-- Every value of a mapping is converted and stored under its key. -/
theorem exists_mem_jsonReadyEntries {entries : List (Option String × Value)}
    {converted d : Dict String PlainJson} (h : jsonReadyEntries converted entries = .ok d) :
    (∀ e ∈ converted.entries, e ∈ d.entries) ∧
      ∀ key v, (some key, v) ∈ entries → ∃ j, jsonReady v = .ok j ∧ (key, j) ∈ d.entries := by
  induction entries generalizing converted with
  | nil =>
      cases h
      exact ⟨fun _ he => he, nofun⟩
  | cons e entries ih =>
      obtain ⟨key, v⟩ := e
      cases key with
      | none => cases h
      | some key =>
          rw [jsonReadyEntries, Imp.check_bind_eq_ok, Imp.require_eq_ok] at h
          obtain ⟨hnew, h⟩ := h
          obtain ⟨item, hitem, hrest⟩ := Imp.except_bind_eq_ok.mp h
          obtain ⟨hkept, hmem⟩ := ih hrest
          rw [Dict.entries_insert_of_get?_none (Dict.contains_eq_false.mp hnew)] at hkept
          refine ⟨fun e he => hkept e (List.mem_append_left _ he), fun key' v' he => ?_⟩
          rcases List.mem_cons.mp he with heq | he
          · cases heq
            exact ⟨item, hitem, hkept _ (List.mem_append_right _ List.mem_cons_self)⟩
          · exact hmem key' v' he

/-- The parts of mappings that are written alike, by their position. -/
theorem Alike.entry {entries entries' : List (Option String × Value)} {key : String} {v w : Value}
    (h : Alike (.mapping entries) (.mapping entries')) (i : ℕ) (hv : entries[i]? = some (some key, v))
    (hw : entries'[i]? = some (some key, w)) : Alike v w := by
  obtain ⟨j, k, hj, hk, hsame⟩ := h
  rw [jsonReady] at hj hk
  obtain ⟨d, hd, hj⟩ := Imp.except_bind_eq_ok.mp hj
  obtain ⟨d', hd', hk⟩ := Imp.except_bind_eq_ok.mp hk
  cases hj
  cases hk
  obtain ⟨a, ha, hmem⟩ := (exists_mem_jsonReadyEntries hd).2 key v (List.mem_of_getElem? hv)
  obtain ⟨b, hb, hmem'⟩ := (exists_mem_jsonReadyEntries hd').2 key w (List.mem_of_getElem? hw)
  exact ⟨a, b, ha, hb, hsame.entry d'.nodup hmem hmem'⟩

/-- A scalar of a mapping that is written can be written. -/
theorem scalarError_of_entry {entries : List (Option String × Value)} {key : String} {s : Py.Scalar}
    {bytes : ByteArray} (h : canonicalJsonBytes (.mapping entries) = .ok bytes)
    (hs : (some key, .scalar s) ∈ entries) : scalarError s = none := by
  obtain ⟨j, t, hj, ht, -⟩ := canonicalJsonBytes_eq_ok.mp h
  rw [jsonReady] at hj
  obtain ⟨d, hd, hj⟩ := Imp.except_bind_eq_ok.mp hj
  cases hj
  obtain ⟨k, hk, hmem⟩ := (exists_mem_jsonReadyEntries hd).2 key _ hs
  obtain rfl := (preserved (.scalar s) k hk).1
  exact (dumps_eq_ok.mp ht).1 s (Json.mem_entriesScalars.mpr ⟨_, hmem, List.mem_singleton.mpr rfl⟩)

/-! ## Digests -/

/-- `sha256_digest`, as a constrained text. -/
def digestOf [Sha256] (v : Value) : Except String Sha256Digest := do
  let bytes ← canonicalJsonBytes v
  return ⟨"sha256:" ++ Sha256.hexdigest bytes, by
    simp [isSha256Digest, String.toList_append, Sha256.isHexDigest_hexdigest]⟩

/-- Whether no two of some values have different bytes with one digest. -/
def CollisionFree [Sha256] (values : Set Value) : Prop :=
  Set.InjOn Sha256.hexdigest {bytes | ∃ v ∈ values, canonicalJsonBytes v = .ok bytes}

variable [Sha256] {v w : Value} {d : Sha256Digest} {values : Set Value}

theorem digestOf_eq_ok : digestOf v = .ok d ↔
    ∃ bytes, canonicalJsonBytes v = .ok bytes ∧ d.val = "sha256:" ++ Sha256.hexdigest bytes := by
  rw [digestOf, Imp.except_bind_eq_ok]
  refine exists_congr fun bytes => and_congr_right fun _ => ?_
  constructor
  · intro h
    rw [← Except.ok.inj h]
  · exact fun h => congrArg Except.ok (Constrained.val_injective h.symm)

theorem exists_digestOf {bytes : ByteArray} (h : canonicalJsonBytes v = .ok bytes) :
    ∃ d, digestOf v = .ok d := by
  rw [digestOf, h]
  exact ⟨_, rfl⟩

theorem CollisionFree.mono {values' : Set Value} (h : CollisionFree values) (hsub : values' ⊆ values) :
    CollisionFree values' := by
  refine Set.InjOn.mono ?_ h
  rintro bytes ⟨v, hv, hbytes⟩
  exact ⟨v, hsub hv, hbytes⟩

/-- Equal digests are digests of values that are written alike. -/
theorem CollisionFree.alike (h : CollisionFree values) (hv : v ∈ values) (hw : w ∈ values)
    (hd : digestOf v = .ok d) (hd' : digestOf w = .ok d) : Alike v w := by
  obtain ⟨bytes, hbytes, htext⟩ := digestOf_eq_ok.mp hd
  obtain ⟨bytes', hbytes', htext'⟩ := digestOf_eq_ok.mp hd'
  rw [htext] at htext'
  have hdigests := (String.append_right_inj _).mp htext'
  obtain rfl := h (Exists.intro v ⟨hv, hbytes⟩) (Exists.intro w ⟨hw, hbytes'⟩) hdigests
  exact alike_of_bytes hbytes hbytes'

/-- Values with different digests are free of collisions. -/
theorem collisionFree_of_nodup {α : Type*} {l : List α} {value : α → Value} {digest : α → Sha256Digest}
    (hdigest : ∀ a ∈ l, digestOf (value a) = .ok (digest a)) (hnodup : (l.map digest).Nodup) :
    CollisionFree {v | ∃ a ∈ l, v = value a} := by
  rintro bytes ⟨v, ⟨a, ha, rfl⟩, hbytes⟩ bytes' ⟨w, ⟨b, hb, rfl⟩, hbytes'⟩ heq
  obtain ⟨bytes₁, hbytes₁, htext⟩ := digestOf_eq_ok.mp (hdigest a ha)
  obtain ⟨bytes₂, hbytes₂, htext'⟩ := digestOf_eq_ok.mp (hdigest b hb)
  rw [hbytes₁] at hbytes
  rw [hbytes₂] at hbytes'
  rw [Except.ok.inj hbytes, heq, ← Except.ok.inj hbytes', ← htext'] at htext
  rw [List.inj_on_of_nodup_map hnodup ha hb (Constrained.val_injective htext), hbytes₂] at hbytes₁
  rw [← Except.ok.inj hbytes, ← Except.ok.inj hbytes', Except.ok.inj hbytes₁]

/-- The digest of a value whose text is ASCII, by evaluation. -/
def evaluatedDigest (v : Value) : Option (List Char) :=
  match jsonReady v with
  | .error _ => none
  | .ok j =>
      match j.sort.scalars.findSome? scalarError with
      | some _ => none
      | none => (Sha2.asciiDigest (Json.text Py.jsonSyntax j.sort)).map ("sha256:".toList ++ ·)

omit [Sha256] in
theorem digestOf_of_evaluatedDigest {v : Value} {d : Sha256Digest}
    (h : evaluatedDigest v = some d.val.toList) : @digestOf Sha2.sha256 v = .ok d := by
  let _ := Sha2.sha256
  rw [evaluatedDigest] at h
  split at h
  · cases h
  · next j hj =>
      split at h
      · cases h
      · next hscalars =>
          obtain ⟨digest, hdigest, heq⟩ := Option.map_eq_some_iff.mp h
          have htext : dumps j = .ok (String.ofList (Json.text Py.jsonSyntax j.sort)) := by
            rw [dumps, hscalars]
          have hbytes := canonicalJsonBytes_eq_ok.mpr ⟨j, _, hj, htext, rfl⟩
          refine digestOf_eq_ok.mpr ⟨_, hbytes, ?_⟩
          rw [← String.toList_inj, ← heq, String.toList_append]
          refine congrArg ("sha256:".toList ++ ·) ?_
          have hhex := congrArg String.toList (Sha2.hexdigest_of_asciiDigest hdigest)
          rw [String.toList_ofList] at hhex
          exact hhex.symm

end StateWeaver.Contracts
