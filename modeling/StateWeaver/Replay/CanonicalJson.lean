import StateWeaver.Contracts.CanonicalJson

/-!
# The digests of replay

Replay has its own conversion to plain JSON. It rejects other values than the contracts do, and a key
that comes twice overwrites its value, but where both convert a value the results are equal, and so are
the digests.
-/

namespace StateWeaver.Replay

open Contracts

mutual

/-- `_jsonable`. -/
def jsonable : Value → Except String PlainJson
  | .scalar s => .ok (.scalar s)
  | .enum value => .ok (.scalar (.str value))
  | .datetime (some instant) => do return .scalar (.str (← instant.isoformat))
  | .datetime none => .error "canonical datetimes must be timezone-aware"
  | .list items => do return .arr (← jsonableItems items)
  | .set items => do return .arr (← sortedByText (← jsonableItems items))
  | .mapping entries => do
      Imp.require (∀ e ∈ entries.map Prod.fst, e ≠ none) "canonical JSON mappings require string keys"
      return .obj (← jsonableEntries Dict.empty entries).entries
  | .other type => .error s!"Unsupported canonical JSON value: {type}"

def jsonableItems : List Value → Except String (List PlainJson)
  | [] => .ok []
  | v :: items => do
      let item ← jsonable v
      return item :: (← jsonableItems items)

/-- The comprehension over the entries of a mapping. -/
def jsonableEntries (converted : Dict String PlainJson) :
    List (Option String × Value) → Except String (Dict String PlainJson)
  | [] => .ok converted
  | (none, _) :: entries => jsonableEntries converted entries
  | (some key, v) :: entries => do
      let item ← jsonable v
      jsonableEntries (converted.insert key item) entries

end

/-- `canonical_sha256`. -/
def canonicalSha256 [Sha256] (v : Value) : Except String String := do
  return "sha256:" ++ Sha256.hexdigest (← dumps (← jsonable v)).toUTF8

/-! ## Both conversions agree -/

theorem mem_keys_of_jsonReadyEntries {entries : List (Option String × Value)}
    {converted d : Dict String PlainJson} (h : jsonReadyEntries converted entries = .ok d) :
    ∀ key ∈ entries.map Prod.fst, key ≠ none := by
  induction entries generalizing converted with
  | nil => exact List.forall_mem_nil _
  | cons e entries ih =>
      obtain ⟨key, v⟩ := e
      cases key with
      | none => cases h
      | some key =>
          rw [jsonReadyEntries, Imp.check_bind_eq_ok] at h
          obtain ⟨item, -, hrest⟩ := Imp.except_bind_eq_ok.mp h.2
          exact List.forall_mem_cons.mpr ⟨Option.some_ne_none _, ih hrest⟩

mutual

/-- What the contracts convert is converted to the same. -/
theorem jsonable_of_jsonReady : ∀ (v : Value) {j : PlainJson}, jsonReady v = .ok j → jsonable v = .ok j
  | .scalar (.float x), _, h => by
      rw [jsonReady, Imp.check_bind_eq_ok] at h
      exact h.2
  | .scalar .none_, _, h => h
  | .scalar (.bool _), _, h => h
  | .scalar (.int _), _, h => h
  | .scalar (.str _), _, h => h
  | .enum _, _, h => h
  | .datetime (some _), _, h => h
  | .datetime none, _, h => by cases h
  | .list items, _, h => by
      rw [jsonReady] at h
      obtain ⟨l, hl, h⟩ := Imp.except_bind_eq_ok.mp h
      rw [jsonable, jsonableItems_of_jsonReadyItems items hl]
      exact h
  | .set items, _, h => by
      rw [jsonReady] at h
      obtain ⟨l, hl, h⟩ := Imp.except_bind_eq_ok.mp h
      rw [jsonable, jsonableItems_of_jsonReadyItems items hl]
      exact h
  | .mapping entries, _, h => by
      rw [jsonReady] at h
      obtain ⟨d, hd, h⟩ := Imp.except_bind_eq_ok.mp h
      rw [jsonable, Imp.check_bind_eq_ok, Imp.require_eq_ok,
        jsonableEntries_of_jsonReadyEntries Dict.empty entries hd]
      exact ⟨mem_keys_of_jsonReadyEntries hd, h⟩
  | .other _, _, h => by cases h

theorem jsonableItems_of_jsonReadyItems : ∀ (items : List Value) {l : List PlainJson},
    jsonReadyItems items = .ok l → jsonableItems items = .ok l
  | [], _, h => h
  | v :: items, _, h => by
      rw [jsonReadyItems] at h
      obtain ⟨item, hitem, h⟩ := Imp.except_bind_eq_ok.mp h
      obtain ⟨rest, hrest, h⟩ := Imp.except_bind_eq_ok.mp h
      rw [jsonableItems, jsonable_of_jsonReady v hitem, jsonableItems_of_jsonReadyItems items hrest]
      exact h

theorem jsonableEntries_of_jsonReadyEntries : ∀ (converted : Dict String PlainJson)
    (entries : List (Option String × Value)) {d : Dict String PlainJson},
    jsonReadyEntries converted entries = .ok d → jsonableEntries converted entries = .ok d
  | _, [], _, h => h
  | _, (none, _) :: _, _, h => by cases h
  | converted, (some key, v) :: entries, _, h => by
      rw [jsonReadyEntries, Imp.check_bind_eq_ok] at h
      obtain ⟨item, hitem, hrest⟩ := Imp.except_bind_eq_ok.mp h.2
      rw [jsonableEntries, jsonable_of_jsonReady v hitem]
      exact jsonableEntries_of_jsonReadyEntries _ entries hrest

end

theorem canonicalSha256_of_sha256Digest [Sha256] {v : Value} {d : String} (h : sha256Digest v = .ok d) :
    canonicalSha256 v = .ok d := by
  rw [sha256Digest, canonicalJsonBytes] at h
  obtain ⟨bytes, hbytes, h⟩ := Imp.except_bind_eq_ok.mp h
  obtain ⟨j, hj, hbytes⟩ := Imp.except_bind_eq_ok.mp hbytes
  obtain ⟨t, ht, hbytes⟩ := Imp.except_bind_eq_ok.mp hbytes
  cases hbytes
  rw [canonicalSha256, jsonable_of_jsonReady v hj]
  exact Imp.except_bind_eq_ok.mpr ⟨j, rfl, Imp.except_bind_eq_ok.mpr ⟨t, ht, h⟩⟩

theorem canonicalSha256_eq [Sha256] {v : Value} {d d' : String} (h : canonicalSha256 v = .ok d)
    (h' : sha256Digest v = .ok d') : d = d' :=
  Except.ok.inj (h.symm.trans (canonicalSha256_of_sha256Digest h'))

/-- Canonical JSON is canonical: the bytes of an accepted JSON value do not depend on the order of the
entries of its objects, they tell the value, and both digests of a value that both accept are equal. -/
theorem canonicalJson_spec [Sha256] :
    (∀ (v w : PlainJson) (bytes : ByteArray), v.Same w →
      canonicalJsonBytes (.ofJson v) = .ok bytes → canonicalJsonBytes (.ofJson w) = .ok bytes) ∧
    (∀ (v w : PlainJson) (bytes : ByteArray), canonicalJsonBytes (.ofJson v) = .ok bytes →
      canonicalJsonBytes (.ofJson w) = .ok bytes → v.Same w) ∧
    ∀ (v : Value) (d d' : String), canonicalSha256 v = .ok d → sha256Digest v = .ok d' → d = d' :=
  ⟨fun _ _ _ => canonicalJsonBytes_eq_of_same, fun _ _ _ => same_of_canonicalJsonBytes_eq,
    fun _ _ _ => canonicalSha256_eq⟩

end StateWeaver.Replay
