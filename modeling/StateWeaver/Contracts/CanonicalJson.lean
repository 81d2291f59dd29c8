import StateWeaver.Contracts.Actions
import StateWeaver.Lib.Calendar
import StateWeaver.Lib.Dict
import StateWeaver.Lib.JsonScalars

/-!
# Canonical JSON

`canonical_json_bytes` turns a value into plain JSON and writes it with sorted keys and without blanks.
Its bytes depend on nothing but the value, and they tell the value: `true`, `1` and `1.0` are written
differently, and so are texts and numbers.
-/

namespace StateWeaver.Contracts

/-- Plain JSON: what `json.dumps` is called with. -/
abbrev PlainJson := Json Py.Scalar String

/-- A value that is to be written. A model stands for the mapping that `model_dump` makes of it. -/
inductive Value where
  | scalar (s : Py.Scalar)
  /-- A member of a `StrEnum`, by its value. -/
  | enum (value : String)
  /-- A point in time; `none` without an offset from UTC. -/
  | datetime (absolute : Option Instant)
  /-- A list or a tuple. -/
  | list (items : List Value)
  /-- A set, in the order in which it is iterated. -/
  | set (items : List Value)
  /-- A mapping; `none` for a key that is not a text. -/
  | mapping (entries : List (Option String × Value))
  /-- An object of another type, by the name of the type. -/
  | other (type : String)

/-! ## Writing -/

/-- Why `json.dumps` does not write a scalar: it is not finite, or an integer has more digits than
Python converts. -/
def scalarError : Py.Scalar → Option String
  | .float x => if x.isFinite then none else some "Out of range float values are not JSON compliant"
  | .int n =>
      if (Nat.toDigits 10 n.natAbs).length ≤ 4300 then none
      else some "Exceeds the limit (4300 digits) for integer string conversion"
  | _ => none

/-- `json.dumps` with sorted keys, without blanks, without infinities and without escapes beyond
ASCII. -/
def dumps (v : PlainJson) : Except String String :=
  match v.sort.scalars.findSome? scalarError with
  | some e => .error e
  | none => .ok (String.ofList (Json.text Py.jsonSyntax v.sort))

/-- `sorted(items, key=json.dumps)`. -/
def sortedByText (items : List PlainJson) : Except String (List PlainJson) := do
  let keyed ← items.mapM fun v => do return (← dumps v, v)
  return (keyed.insertionSort fun a b => a.1 ≤ b.1).map Prod.snd

/-- Microseconds from the start of the year 1 to that of 1970. -/
def epoch : Int := 62135596800000000

/-- `value.astimezone(UTC).isoformat().replace("+00:00", "Z")`. -/
def Instant.isoformat (instant : Instant) : Except String String :=
  let passed := instant.microseconds + epoch
  if 0 ≤ passed ∧ passed < Py.endOfTime then .ok (String.ofList (Py.isoText passed.toNat))
  else .error "date value out of range"

mutual

/-- `_json_ready`. An object of another type is returned as it is, and `json.dumps` raises for it. -/
def jsonReady : Value → Except String PlainJson
  | .scalar (.float x) => do
      Imp.require (x.isFinite = true) "canonical JSON floating-point values must be finite"
      return .scalar (.float x)
  | .scalar s => .ok (.scalar s)
  | .enum value => .ok (.scalar (.str value))
  | .datetime (some instant) => do return .scalar (.str (← instant.isoformat))
  | .datetime none => .error "canonical JSON datetimes must include a UTC offset"
  | .list items => do return .arr (← jsonReadyItems items)
  | .set items => do return .arr (← sortedByText (← jsonReadyItems items))
  | .mapping entries => do return .obj (← jsonReadyEntries Dict.empty entries).entries
  | .other type => .error s!"Object of type {type} is not JSON serializable"

def jsonReadyItems : List Value → Except String (List PlainJson)
  | [] => .ok []
  | v :: items => do
      let item ← jsonReady v
      return item :: (← jsonReadyItems items)

/-- The loop over the entries of a mapping. -/
def jsonReadyEntries (converted : Dict String PlainJson) :
    List (Option String × Value) → Except String (Dict String PlainJson)
  | [] => .ok converted
  | (none, _) :: _ => .error "canonical JSON mapping keys must be strings"
  | (some key, v) :: entries => do
      Imp.require (converted.contains key = false) "canonical JSON mapping keys must not collide"
      let item ← jsonReady v
      jsonReadyEntries (converted.insert key item) entries

end

/-- `canonical_json_bytes`. -/
def canonicalJsonBytes (v : Value) : Except String ByteArray := do
  return (← dumps (← jsonReady v)).toUTF8

/-- `sha256_digest`. -/
def sha256Digest [Sha256] (v : Value) : Except String String := do
  return "sha256:" ++ Sha256.hexdigest (← canonicalJsonBytes v)

/-! ## JSON values -/

mutual

/-- A JSON value, whose objects are mappings in some order. -/
def Value.ofJson : PlainJson → Value
  | .scalar s => .scalar s
  | .arr items => .list (ofItems items)
  | .obj entries => .mapping (ofEntries entries)

def Value.ofItems : List PlainJson → List Value
  | [] => []
  | v :: items => ofJson v :: ofItems items

def Value.ofEntries : List (String × PlainJson) → List (Option String × Value)
  | [] => []
  | (key, v) :: entries => (some key, ofJson v) :: ofEntries entries

end

theorem dumps_eq_ok {v : PlainJson} {t : String} :
    dumps v = .ok t ↔ (∀ s ∈ v.scalars, scalarError s = none) ∧
      t = String.ofList (Json.text Py.jsonSyntax v.sort) := by
  rw [dumps]
  cases hfind : v.sort.scalars.findSome? scalarError with
  | none =>
      have hnone : ∀ s ∈ v.scalars, scalarError s = none := fun s hs =>
        List.findSome?_eq_none_iff.mp hfind s ((Json.mem_scalars_sort v s).mpr hs)
      rw [Except.ok.injEq, eq_comm]
      exact (and_iff_right hnone).symm
  | some e =>
      refine iff_of_false nofun fun h => ?_
      obtain ⟨s, hs, herror⟩ := List.exists_of_findSome?_eq_some hfind
      rw [h.1 s ((Json.mem_scalars_sort v s).mp hs)] at herror
      cases herror

theorem isFinite_of_scalarError {s : Py.Scalar} (h : scalarError s = none) : s.IsFinite := by
  rintro x rfl
  by_contra hx
  rw [scalarError, if_neg hx] at h
  cases h

/-- What `jsonReady` makes of a JSON value: the same value, if the keys of its objects are distinct. -/
def Preserved (v : PlainJson) : Prop := ∀ w, jsonReady (.ofJson v) = .ok w → w = v ∧ v.Distinct

theorem jsonReadyItems_ofItems {items l : List PlainJson} (hpreserved : ∀ v ∈ items, Preserved v)
    (h : jsonReadyItems (Value.ofItems items) = .ok l) : l = items ∧ ∀ v ∈ items, v.Distinct := by
  induction items generalizing l with
  | nil =>
      cases h
      exact ⟨rfl, nofun⟩
  | cons v items ih =>
      obtain ⟨hv, hitems⟩ := List.forall_mem_cons.mp hpreserved
      rw [Value.ofItems, jsonReadyItems, Imp.except_bind_eq_ok] at h
      obtain ⟨item, hitem, h⟩ := h
      obtain ⟨rest, hrest, h⟩ := Imp.except_bind_eq_ok.mp h
      cases h
      obtain ⟨rfl, hdistinct⟩ := hv item hitem
      obtain ⟨rfl, hall⟩ := ih hitems hrest
      exact ⟨rfl, List.forall_mem_cons.mpr ⟨hdistinct, hall⟩⟩

theorem jsonReadyEntries_ofEntries {entries : List (String × PlainJson)}
    {converted d : Dict String PlainJson} (hpreserved : ∀ e ∈ entries, Preserved e.2)
    (h : jsonReadyEntries converted (Value.ofEntries entries) = .ok d) :
    d.entries = converted.entries ++ entries ∧ ∀ e ∈ entries, e.2.Distinct := by
  induction entries generalizing converted with
  | nil =>
      cases h
      exact ⟨(List.append_nil _).symm, nofun⟩
  | cons e entries ih =>
      obtain ⟨key, v⟩ := e
      obtain ⟨hv, hentries⟩ := List.forall_mem_cons.mp hpreserved
      rw [Value.ofEntries, jsonReadyEntries, Imp.check_bind_eq_ok, Imp.require_eq_ok] at h
      obtain ⟨hnew, h⟩ := h
      obtain ⟨item, hitem, hrest⟩ := Imp.except_bind_eq_ok.mp h
      obtain ⟨rfl, hdistinct⟩ := hv item hitem
      obtain ⟨hd, hall⟩ := ih hentries hrest
      rw [hd, Dict.entries_insert_of_get?_none (Dict.contains_eq_false.mp hnew), List.append_assoc]
      exact ⟨rfl, List.forall_mem_cons.mpr ⟨hdistinct, hall⟩⟩

theorem preserved (v : PlainJson) : Preserved v := by
  induction v using Json.induction with
  | scalar s =>
      intro w h
      refine ⟨?_, .scalar s⟩
      cases s with
      | float x =>
          rw [Value.ofJson, jsonReady, Imp.check_bind_eq_ok] at h
          cases h.2
          rfl
      | _ =>
          rw [Value.ofJson, jsonReady] at h
          · cases h
            rfl
          · exact nofun
  | arr items ih =>
      intro w h
      rw [Value.ofJson, jsonReady, Imp.except_bind_eq_ok] at h
      obtain ⟨l, hl, h⟩ := h
      cases h
      obtain ⟨rfl, hall⟩ := jsonReadyItems_ofItems ih hl
      exact ⟨rfl, .arr hall⟩
  | obj entries ih =>
      intro w h
      rw [Value.ofJson, jsonReady, Imp.except_bind_eq_ok] at h
      obtain ⟨d, hd, h⟩ := h
      cases h
      obtain ⟨hentries, hall⟩ := jsonReadyEntries_ofEntries ih hd
      have heq : d.entries = entries := hentries
      rw [heq]
      exact ⟨rfl, .obj (heq ▸ d.nodup) hall⟩

theorem exists_jsonReadyItems {items : List PlainJson}
    (h : ∀ v ∈ items, jsonReady (.ofJson v) = .ok v) :
    jsonReadyItems (Value.ofItems items) = .ok items := by
  induction items with
  | nil => rfl
  | cons v items ih =>
      obtain ⟨hv, hitems⟩ := List.forall_mem_cons.mp h
      rw [Value.ofItems, jsonReadyItems, hv, ih hitems]
      rfl

theorem exists_jsonReadyEntries {entries : List (String × PlainJson)}
    {d : Dict String PlainJson} (h : ∀ e ∈ entries, jsonReady (.ofJson e.2) = .ok e.2)
    (hkeys : ((d.entries ++ entries).map Prod.fst).Nodup) :
    ∃ d', jsonReadyEntries d (Value.ofEntries entries) = .ok d' ∧
      d'.entries = d.entries ++ entries := by
  induction entries generalizing d with
  | nil => exact ⟨d, rfl, (List.append_nil _).symm⟩
  | cons e entries ih =>
      obtain ⟨key, v⟩ := e
      obtain ⟨hv, hentries⟩ := List.forall_mem_cons.mp h
      have hnew : d.get? key = none := by
        rw [← Dict.not_mem_keys]
        rw [List.map_append, List.nodup_append] at hkeys
        exact fun hmem => hkeys.2.2 key hmem key List.mem_cons_self rfl
      have hinsert := Dict.entries_insert_of_get?_none hnew v
      obtain ⟨d', hd, hentries⟩ := ih hentries (by
        rw [hinsert, List.append_assoc]
        exact hkeys)
      refine ⟨d', ?_, ?_⟩
      · rw [Value.ofEntries, jsonReadyEntries, Imp.check_bind_eq_ok, Imp.require_eq_ok]
        refine ⟨Dict.contains_eq_false.mpr hnew, ?_⟩
        rw [hv]
        exact hd
      · rw [hentries, hinsert, List.append_assoc]
        rfl

/-- A JSON value with distinct keys and finite numbers is written as it is. -/
theorem jsonReady_ofJson {v : PlainJson} (hdistinct : v.Distinct)
    (hfinite : ∀ s ∈ v.scalars, s.IsFinite) : jsonReady (.ofJson v) = .ok v := by
  induction v using Json.induction with
  | scalar s =>
      cases s with
      | float x =>
          rw [Value.ofJson, jsonReady, Imp.check_bind_eq_ok, Imp.require_eq_ok]
          exact ⟨hfinite _ List.mem_cons_self x rfl, rfl⟩
      | _ => rfl
  | arr items ih =>
      cases hdistinct with
      | arr hdistinct =>
          have hitems := exists_jsonReadyItems fun v hv =>
            ih v hv (hdistinct v hv) fun s hs => hfinite s (Json.mem_itemsScalars.mpr ⟨v, hv, hs⟩)
          rw [Value.ofJson, jsonReady, hitems]
          rfl
  | obj entries ih =>
      cases hdistinct with
      | obj hkeys hdistinct =>
          obtain ⟨d, hd, hentries⟩ := exists_jsonReadyEntries (d := Dict.empty)
            (fun e he => ih e he (hdistinct e he) fun s hs =>
              hfinite s (Json.mem_entriesScalars.mpr ⟨e, he, hs⟩)) hkeys
          rw [Value.ofJson, jsonReady, hd]
          exact congrArg (fun l => Except.ok (Json.obj l)) hentries

/-- Which JSON values are accepted, and what is written. -/
theorem canonicalJsonBytes_ofJson {v : PlainJson} {bytes : ByteArray} :
    canonicalJsonBytes (.ofJson v) = .ok bytes ↔ v.Distinct ∧
      (∀ s ∈ v.scalars, scalarError s = none) ∧
        bytes = (String.ofList (Json.text Py.jsonSyntax v.sort)).toUTF8 := by
  rw [canonicalJsonBytes, Imp.except_bind_eq_ok]
  constructor
  · rintro ⟨w, hw, h⟩
    obtain ⟨t, ht, h⟩ := Imp.except_bind_eq_ok.mp h
    obtain ⟨rfl, hdistinct⟩ := preserved v w hw
    obtain ⟨hscalars, rfl⟩ := dumps_eq_ok.mp ht
    cases h
    exact ⟨hdistinct, hscalars, rfl⟩
  · rintro ⟨hdistinct, hscalars, rfl⟩
    have hready := jsonReady_ofJson hdistinct fun s hs => isFinite_of_scalarError (hscalars s hs)
    refine ⟨v, hready, ?_⟩
    rw [dumps_eq_ok.mpr ⟨hscalars, rfl⟩]
    rfl

/-- The bytes do not depend on the order of the entries of objects. -/
theorem canonicalJsonBytes_eq_of_same {v w : PlainJson} {bytes : ByteArray} (hsame : v.Same w)
    (h : canonicalJsonBytes (.ofJson v) = .ok bytes) : canonicalJsonBytes (.ofJson w) = .ok bytes := by
  obtain ⟨hdistinct, hscalars, rfl⟩ := canonicalJsonBytes_ofJson.mp h
  refine canonicalJsonBytes_ofJson.mpr ⟨hsame.distinct hdistinct, fun s hs => ?_, ?_⟩
  · exact hscalars s ((hsame.mem_scalars_iff hdistinct s).mpr hs)
  · rw [Json.sort_eq_of_same hsame hdistinct]

/-- The bytes tell the value. -/
theorem same_of_canonicalJsonBytes_eq {v w : PlainJson} {bytes : ByteArray}
    (hv : canonicalJsonBytes (.ofJson v) = .ok bytes) (hw : canonicalJsonBytes (.ofJson w) = .ok bytes) :
    v.Same w := by
  obtain ⟨-, hscalars, hbytes⟩ := canonicalJsonBytes_ofJson.mp hv
  obtain ⟨-, hscalars', hbytes'⟩ := canonicalJsonBytes_ofJson.mp hw
  rw [hbytes] at hbytes'
  have htext := String.ofList_injective (String.toByteArray_inj.mp hbytes')
  refine Json.same_of_sort_eq v w (Json.text_inj Py.readable_jsonSyntax ?_ ?_ htext)
  · exact fun s hs => isFinite_of_scalarError (hscalars s ((Json.mem_scalars_sort v s).mp hs))
  · exact fun s hs => isFinite_of_scalarError (hscalars' s ((Json.mem_scalars_sort w s).mp hs))

end StateWeaver.Contracts
