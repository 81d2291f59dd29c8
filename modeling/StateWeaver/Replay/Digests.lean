import StateWeaver.Replay.CanonicalJson
import StateWeaver.Contracts.Envelopes

/-!
# What the digests of replay cover

Where the keys of every mapping are distinct texts, the conversion of replay accepts what the conversion of
the contracts accepts, and the digests are equal. What is known of the one kind of digests is known of the
other.
-/

namespace StateWeaver.Replay

open Contracts

/-! ## Keys -/

/-- A value without sets, in which the keys of every mapping are distinct texts. -/
inductive WellKeyed : Value → Prop
  | scalar (s : Py.Scalar) : WellKeyed (.scalar s)
  | enum (value : String) : WellKeyed (.enum value)
  | datetime (instant : Instant) : WellKeyed (.datetime (some instant))
  | list {items : List Value} (h : ∀ v ∈ items, WellKeyed v) : WellKeyed (.list items)
  | mapping {entries : List (Option String × Value)} (keys : List String)
      (hkeys : entries.map Prod.fst = keys.map some) (hnodup : keys.Nodup)
      (h : ∀ e ∈ entries, WellKeyed e.2) : WellKeyed (.mapping entries)

theorem wellKeyed_ofJson {v : PlainJson} (h : v.Distinct) : WellKeyed (.ofJson v) := by
  induction v using Json.induction with
  | scalar s => exact .scalar s
  | arr items ih =>
      cases h with
      | arr hdistinct =>
          have hitems : ∀ items : List PlainJson, (∀ v ∈ items, WellKeyed (.ofJson v)) →
              ∀ v ∈ Value.ofItems items, WellKeyed v := by
            intro items h
            induction items with
            | nil => exact nofun
            | cons v items ih =>
                obtain ⟨hv, hitems⟩ := List.forall_mem_cons.mp h
                exact List.forall_mem_cons.mpr ⟨hv, ih hitems⟩
          exact .list (hitems items fun v hv => ih v hv (hdistinct v hv))
  | obj entries ih =>
      cases h with
      | obj hkeys hdistinct =>
          have hentries : ∀ entries : List (String × PlainJson), (∀ e ∈ entries, WellKeyed (.ofJson e.2)) →
              (Value.ofEntries entries).map Prod.fst = (entries.map Prod.fst).map some ∧
                ∀ e ∈ Value.ofEntries entries, WellKeyed e.2 := by
            intro entries h
            induction entries with
            | nil => exact ⟨rfl, nofun⟩
            | cons e entries ih =>
                obtain ⟨he, hrest⟩ := List.forall_mem_cons.mp h
                obtain ⟨hfst, hall⟩ := ih hrest
                exact ⟨congrArg (some e.1 :: ·) hfst, List.forall_mem_cons.mpr ⟨he, hall⟩⟩
          obtain ⟨hfst, hall⟩ := hentries entries fun e he => ih e he (hdistinct e he)
          exact .mapping _ hfst hkeys hall

theorem exists_keys {entries : List (Option String × Value)} (hnodup : (entries.map Prod.fst).Nodup)
    (hsome : none ∉ entries.map Prod.fst) :
    ∃ keys : List String, entries.map Prod.fst = keys.map some ∧ keys.Nodup := by
  have hexists : ∀ l : List (Option String), none ∉ l → ∃ keys : List String, l = keys.map some := by
    intro l h
    induction l with
    | nil => exact ⟨[], rfl⟩
    | cons key l ih =>
        cases key with
        | none => exact absurd List.mem_cons_self h
        | some key =>
            obtain ⟨keys, rfl⟩ := ih fun hmem => h (List.mem_cons_of_mem _ hmem)
            exact ⟨key :: keys, rfl⟩
  obtain ⟨keys, hkeys⟩ := hexists _ hsome
  rw [hkeys] at hnodup
  exact ⟨keys, hkeys, hnodup.of_map some⟩

theorem WellKeyed.record {entries : List (Option String × Value)} (hnodup : (entries.map Prod.fst).Nodup)
    (hsome : none ∉ entries.map Prod.fst) (h : ∀ e ∈ entries, WellKeyed e.2) :
    WellKeyed (.mapping entries) := by
  obtain ⟨keys, hkeys, hdistinct⟩ := exists_keys hnodup hsome
  exact .mapping keys hkeys hdistinct h

attribute [simp] WellKeyed.scalar WellKeyed.enum WellKeyed.datetime

@[simp]
theorem wellKeyed_constrained {pattern : String → Bool} (s : Constrained pattern) : WellKeyed s.toValue :=
  .scalar _

@[simp]
theorem wellKeyed_list {items : List Value} : WellKeyed (.list items) ↔ ∀ v ∈ items, WellKeyed v :=
  ⟨fun h => by cases h; assumption, .list⟩

@[simp]
theorem wellKeyed_optional {α : Type} {toValue : α → Value} {o : Option α} :
    WellKeyed (optional toValue o) ↔ ∀ a ∈ o, WellKeyed (toValue a) := by
  cases o with
  | none => exact iff_of_true (.scalar _) nofun
  | some a => exact ⟨fun h b hb => Option.some.inj hb ▸ h, fun h => h a rfl⟩

/-! ## The conversions -/

/-- Plain JSON that `json.dumps` writes. -/
def Dumpable (j : PlainJson) : Prop := ∀ s ∈ j.scalars, scalarError s = none

theorem jsonReadyItems_of_jsonableItems {items : List Value} {l : List PlainJson}
    (hready : ∀ v ∈ items, ∀ j, jsonable v = .ok j → Dumpable j → jsonReady v = .ok j)
    (h : jsonableItems items = .ok l) (hdumpable : ∀ j ∈ l, Dumpable j) : jsonReadyItems items = .ok l := by
  induction items generalizing l with
  | nil => exact h
  | cons v items ih =>
      obtain ⟨hv, hitems⟩ := List.forall_mem_cons.mp hready
      rw [jsonableItems] at h
      obtain ⟨item, hitem, h⟩ := Imp.except_bind_eq_ok.mp h
      obtain ⟨rest, hrest, h⟩ := Imp.except_bind_eq_ok.mp h
      cases h
      obtain ⟨hfirst, hothers⟩ := List.forall_mem_cons.mp hdumpable
      rw [jsonReadyItems, hv item hitem hfirst, ih hitems hrest hothers]
      rfl

/-- A key that is new in a mapping, before others that are. -/
theorem nodup_keys_insert {converted : Dict String PlainJson} {key : String} {keys : List String}
    (hnodup : (converted.keys ++ key :: keys).Nodup) (j : PlainJson) :
    converted.get? key = none ∧ ((converted.insert key j).keys ++ keys).Nodup := by
  have hnew : converted.get? key = none := by
    rw [← Dict.not_mem_keys]
    exact fun hmem => (List.nodup_append.mp hnodup).2.2 key hmem key List.mem_cons_self rfl
  refine ⟨hnew, ?_⟩
  rw [Dict.keys, Dict.entries_insert_of_get?_none hnew, List.map_append, List.append_assoc]
  exact hnodup

/-- Entries with new keys are converted one after the other. -/
theorem jsonReadyEntries_of_jsonableEntries {entries : List (Option String × Value)} {keys : List String}
    {converted d : Dict String PlainJson}
    (hready : ∀ e ∈ entries, ∀ j, jsonable e.2 = .ok j → Dumpable j → jsonReady e.2 = .ok j)
    (hkeys : entries.map Prod.fst = keys.map some) (hnodup : (converted.keys ++ keys).Nodup)
    (h : jsonableEntries converted entries = .ok d) (hdumpable : ∀ e ∈ d.entries, Dumpable e.2) :
    jsonReadyEntries converted entries = .ok d ∧ ∀ e ∈ converted.entries, e ∈ d.entries := by
  induction entries generalizing converted keys with
  | nil =>
      cases h
      exact ⟨rfl, fun _ he => he⟩
  | cons e entries ih =>
      obtain ⟨key, v⟩ := e
      obtain ⟨hv, hentries⟩ := List.forall_mem_cons.mp hready
      cases keys with
      | nil => cases hkeys
      | cons key' keys =>
          obtain ⟨rfl, hrest⟩ := List.cons.inj hkeys
          rw [jsonableEntries] at h
          obtain ⟨item, hitem, h⟩ := Imp.except_bind_eq_ok.mp h
          obtain ⟨hnew, hnodupInsert⟩ := nodup_keys_insert hnodup item
          obtain ⟨hok, hkept⟩ := ih hentries hrest hnodupInsert h
          rw [Dict.entries_insert_of_get?_none hnew] at hkept
          have hmem : (key', item) ∈ d.entries := hkept _ (List.mem_append_right _ List.mem_cons_self)
          refine ⟨?_, fun e he => hkept e (List.mem_append_left _ he)⟩
          rw [jsonReadyEntries, Imp.check_bind_eq_ok, Imp.require_eq_ok, hv item hitem (hdumpable _ hmem)]
          exact ⟨Dict.contains_eq_false.mpr hnew, hok⟩

/-- What is converted and written here is converted by the contracts. -/
theorem jsonReady_of_jsonable {v : Value} (hkeyed : WellKeyed v) {j : PlainJson} (h : jsonable v = .ok j)
    (hdumpable : Dumpable j) : jsonReady v = .ok j := by
  induction hkeyed generalizing j with
  | scalar s =>
      rw [jsonable] at h
      cases h
      exact jsonReady_ofJson (.scalar s) fun t ht => isFinite_of_scalarError (hdumpable t ht)
  | enum value => exact h
  | datetime instant => exact h
  | list _ ih =>
      rw [jsonable] at h
      obtain ⟨l, hl, h⟩ := Imp.except_bind_eq_ok.mp h
      cases h
      have hitems := jsonReadyItems_of_jsonableItems (fun v hv j => ih v hv) hl
        fun j hj s hs => hdumpable s (Json.mem_itemsScalars.mpr ⟨j, hj, hs⟩)
      rw [jsonReady, hitems]
      rfl
  | mapping keys hkeys hnodup _ ih =>
      rw [jsonable, Imp.check_bind_eq_ok] at h
      obtain ⟨d, hd, h⟩ := Imp.except_bind_eq_ok.mp h.2
      cases h
      have hempty : ((Dict.empty : Dict String PlainJson).keys ++ keys).Nodup := hnodup
      obtain ⟨hentries, -⟩ := jsonReadyEntries_of_jsonableEntries (fun e he j => ih e he) hkeys hempty hd
        fun e he s hs => hdumpable s (Json.mem_entriesScalars.mpr ⟨e, he, hs⟩)
      rw [jsonReady, hentries]
      rfl

/-! ## What can be written -/

/-- A value that has canonical JSON. -/
def CanWrite (v : Value) : Prop := ∃ j, jsonReady v = .ok j ∧ Dumpable j

theorem canWrite_scalar {s : Py.Scalar} : CanWrite (.scalar s) ↔ scalarError s = none := by
  constructor
  · rintro ⟨j, hj, hdumpable⟩
    obtain rfl := (preserved (.scalar s) j hj).1
    exact hdumpable s List.mem_cons_self
  · intro h
    have hdumpable : ∀ t ∈ Json.scalars (.scalar s : PlainJson), scalarError t = none := fun t ht => by
      rw [List.mem_singleton.mp ht]
      exact h
    exact ⟨_, jsonReady_ofJson (.scalar s) fun t ht => isFinite_of_scalarError (hdumpable t ht), hdumpable⟩

@[simp]
theorem canWrite_text (s : String) : CanWrite (.scalar (.str s)) := canWrite_scalar.mpr rfl

@[simp]
theorem canWrite_constrained {pattern : String → Bool} (s : Constrained pattern) : CanWrite s.toValue :=
  canWrite_text s.val

@[simp]
theorem canWrite_enum (value : String) : CanWrite (.enum value) :=
  ⟨_, rfl, fun s hs => by rw [List.mem_singleton.mp hs]; rfl⟩

@[simp]
theorem canWrite_optionalText (o : Option String) : CanWrite (.scalar (optionalText o)) := by
  cases o with
  | none => exact canWrite_scalar.mpr rfl
  | some s => exact canWrite_text s

@[simp]
theorem canWrite_list {items : List Value} : CanWrite (.list items) ↔ ∀ v ∈ items, CanWrite v := by
  constructor
  · rintro ⟨j, hj, hdumpable⟩ v hv
    rw [jsonReady] at hj
    obtain ⟨l, hl, hj⟩ := Imp.except_bind_eq_ok.mp hj
    cases hj
    obtain ⟨i, hi, rfl⟩ := List.getElem_of_mem hv
    have hall := List.forall₂_iff_get.mp (forall₂_of_jsonReadyItems hl)
    have hk : l.get ⟨i, hall.1 ▸ hi⟩ ∈ l := List.get_mem _ _
    exact ⟨_, hall.2 i hi (hall.1 ▸ hi), fun s hs => hdumpable s (Json.mem_itemsScalars.mpr ⟨_, hk, hs⟩)⟩
  · intro h
    have hitems : ∀ items : List Value, (∀ v ∈ items, CanWrite v) →
        ∃ l, jsonReadyItems items = .ok l ∧ ∀ j ∈ l, Dumpable j := by
      intro items h
      induction items with
      | nil => exact ⟨[], rfl, nofun⟩
      | cons v items ih =>
          obtain ⟨⟨j, hj, hdumpable⟩, hitems⟩ := List.forall_mem_cons.mp h
          obtain ⟨l, hl, hall⟩ := ih hitems
          refine ⟨j :: l, ?_, List.forall_mem_cons.mpr ⟨hdumpable, hall⟩⟩
          rw [jsonReadyItems, hj, hl]
          rfl
    obtain ⟨l, hl, hall⟩ := hitems items h
    refine ⟨.arr l, ?_, fun s hs => ?_⟩
    · rw [jsonReady, hl]
      rfl
    · obtain ⟨j, hj, hs⟩ := Json.mem_itemsScalars.mp hs
      exact hall j hj s hs

theorem exists_jsonReadyEntries_of_canWrite {entries : List (Option String × Value)} {keys : List String}
    {converted : Dict String PlainJson} (hkeys : entries.map Prod.fst = keys.map some)
    (hnodup : (converted.keys ++ keys).Nodup) (hconverted : ∀ e ∈ converted.entries, Dumpable e.2)
    (h : ∀ e ∈ entries, CanWrite e.2) :
    ∃ d, jsonReadyEntries converted entries = .ok d ∧ ∀ e ∈ d.entries, Dumpable e.2 := by
  induction entries generalizing converted keys with
  | nil => exact ⟨converted, rfl, hconverted⟩
  | cons e entries ih =>
      obtain ⟨key, v⟩ := e
      obtain ⟨⟨j, hj, hdumpable⟩, hentries⟩ := List.forall_mem_cons.mp h
      cases keys with
      | nil => cases hkeys
      | cons key' keys =>
          obtain ⟨rfl, hrest⟩ := List.cons.inj hkeys
          obtain ⟨hnew, hnodupInsert⟩ := nodup_keys_insert hnodup j
          have hall : ∀ e ∈ (converted.insert key' j).entries, Dumpable e.2 := by
            rw [Dict.entries_insert_of_get?_none hnew]
            exact List.forall_mem_append.mpr ⟨hconverted, List.forall_mem_singleton.mpr hdumpable⟩
          obtain ⟨d, hd, hwritten⟩ := ih hrest hnodupInsert hall hentries
          refine ⟨d, ?_, hwritten⟩
          rw [jsonReadyEntries, Imp.check_bind_eq_ok, Imp.require_eq_ok, hj]
          exact ⟨Dict.contains_eq_false.mpr hnew, hd⟩

/-- A mapping is written if its parts are. -/
theorem canWrite_record {entries : List (Option String × Value)} (hnodup : (entries.map Prod.fst).Nodup)
    (hsome : none ∉ entries.map Prod.fst) : CanWrite (.mapping entries) ↔ ∀ e ∈ entries, CanWrite e.2 := by
  constructor
  · rintro ⟨j, hj, hdumpable⟩ ⟨key, v⟩ he
    rw [jsonReady] at hj
    obtain ⟨d, hd, hj⟩ := Imp.except_bind_eq_ok.mp hj
    cases hj
    cases key with
    | none => exact absurd (List.mem_map_of_mem he) hsome
    | some key =>
        obtain ⟨j, hready, hmem⟩ := (exists_mem_jsonReadyEntries hd).2 key v he
        exact ⟨j, hready, fun s hs => hdumpable s (Json.mem_entriesScalars.mpr ⟨_, hmem, hs⟩)⟩
  · intro h
    obtain ⟨keys, hkeys, hdistinct⟩ := exists_keys hnodup hsome
    have hempty : ((Dict.empty : Dict String PlainJson).keys ++ keys).Nodup := hdistinct
    obtain ⟨d, hd, hall⟩ := exists_jsonReadyEntries_of_canWrite hkeys hempty nofun h
    refine ⟨.obj d.entries, ?_, fun s hs => ?_⟩
    · rw [jsonReady, hd]
      rfl
    · obtain ⟨e, he, hs⟩ := Json.mem_entriesScalars.mp hs
      exact hall e he s hs

@[simp]
theorem canWrite_optional {α : Type} {toValue : α → Value} {o : Option α} :
    CanWrite (optional toValue o) ↔ ∀ a ∈ o, CanWrite (toValue a) := by
  cases o with
  | none => exact iff_of_true (canWrite_scalar.mpr rfl) nofun
  | some a => exact ⟨fun h b hb => Option.some.inj hb ▸ h, fun h => h a rfl⟩

/-! ## The digests -/

variable [Sha256] {v : Value} {d : Sha256Digest}

/-- `canonical_sha256`, as a constrained text. -/
def hashOf (v : Value) : Except String Sha256Digest := do
  let text ← dumps (← jsonable v)
  return ⟨"sha256:" ++ Sha256.hexdigest text.toUTF8, by
    simp [isSha256Digest, String.toList_append, Sha256.isHexDigest_hexdigest]⟩

theorem canonicalSha256_eq_hashOf (v : Value) : canonicalSha256 v = (hashOf v).map Constrained.val := by
  rw [canonicalSha256, hashOf]
  cases jsonable v with
  | error e => rfl
  | ok j =>
      change (dumps j >>= fun _ => _) = (dumps j >>= fun _ => _).map _
      cases dumps j with
      | error e => rfl
      | ok t => rfl

/-- Both digests of a value are equal. -/
theorem hashOf_eq_ok (hkeyed : WellKeyed v) : hashOf v = .ok d ↔ digestOf v = .ok d := by
  rw [hashOf, digestOf, canonicalJsonBytes]
  constructor
  · intro h
    obtain ⟨j, hj, h⟩ := Imp.except_bind_eq_ok.mp h
    obtain ⟨t, ht, h⟩ := Imp.except_bind_eq_ok.mp h
    rw [jsonReady_of_jsonable hkeyed hj (dumps_eq_ok.mp ht).1]
    exact Imp.except_bind_eq_ok.mpr ⟨_, Imp.except_bind_eq_ok.mpr
      ⟨j, rfl, Imp.except_bind_eq_ok.mpr ⟨t, ht, rfl⟩⟩, h⟩
  · intro h
    obtain ⟨bytes, hbytes, h⟩ := Imp.except_bind_eq_ok.mp h
    obtain ⟨j, hj, hbytes⟩ := Imp.except_bind_eq_ok.mp hbytes
    obtain ⟨t, ht, hbytes⟩ := Imp.except_bind_eq_ok.mp hbytes
    cases hbytes
    rw [jsonable_of_jsonReady v hj]
    exact Imp.except_bind_eq_ok.mpr ⟨j, rfl, Imp.except_bind_eq_ok.mpr ⟨t, ht, h⟩⟩

/-- What can be written has a digest. -/
theorem exists_hashOf (hkeyed : WellKeyed v) (h : CanWrite v) : ∃ d, hashOf v = .ok d := by
  obtain ⟨j, hj, hdumpable⟩ := h
  have hbytes := canonicalJsonBytes_eq_ok.mpr ⟨j, _, hj, dumps_eq_ok.mpr ⟨hdumpable, rfl⟩, rfl⟩
  obtain ⟨d, hd⟩ := exists_digestOf hbytes
  exact ⟨d, (hashOf_eq_ok hkeyed).mpr hd⟩

/-- What has a digest can be written. -/
theorem canWrite_of_hashOf (hkeyed : WellKeyed v) (h : hashOf v = .ok d) : CanWrite v := by
  obtain ⟨bytes, hbytes, -⟩ := digestOf_eq_ok.mp ((hashOf_eq_ok hkeyed).mp h)
  obtain ⟨j, t, hj, ht, -⟩ := canonicalJsonBytes_eq_ok.mp hbytes
  exact ⟨j, hj, (dumps_eq_ok.mp ht).1⟩

end StateWeaver.Replay
