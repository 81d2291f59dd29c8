import StateWeaver.Contracts.Digests

/-!
# Values that have a digest

A JSON value with distinct keys and scalars that can be written has a digest, so code that builds one
from texts and flags does not raise when it takes the digest.
-/

namespace StateWeaver.Contracts

/-- Numbers below a billion have few digits. -/
theorem length_toDigits_le {n : Nat} (h : n < 1000000000) : (Nat.toDigits 10 n).length ≤ 4300 :=
  le_trans ((Nat.length_toDigits_le_iff (k := 9) (by decide) (by decide)).mpr h) (by decide)

/-- A JSON value that `json.dumps` writes. -/
structure Writable where
  json : PlainJson
  distinct : json.Distinct
  writable : ∀ s ∈ json.scalars, scalarError s = none

namespace Writable

/-- `sha256_digest`, which does not raise. -/
def digest [Sha256] (w : Writable) : Sha256Digest :=
  ⟨"sha256:" ++ Sha256.hexdigest (String.ofList (Json.text Py.jsonSyntax w.json.sort)).toUTF8, by
    simp [isSha256Digest, String.toList_append, Sha256.isHexDigest_hexdigest]⟩

theorem digestOf_eq [Sha256] (w : Writable) : digestOf (.ofJson w.json) = .ok w.digest :=
  digestOf_eq_ok.mpr ⟨_, canonicalJsonBytes_ofJson.mpr ⟨w.distinct, w.writable, rfl⟩, rfl⟩

/-- A text. -/
def text (s : String) : Writable :=
  ⟨.scalar (.str s), .scalar _, fun t ht => by
    rw [List.mem_singleton.mp ht]
    rfl⟩

/-- A flag. -/
def flag (b : Bool) : Writable :=
  ⟨.scalar (.bool b), .scalar _, fun t ht => by
    rw [List.mem_singleton.mp ht]
    rfl⟩

/-- `None`. -/
def none_ : Writable :=
  ⟨.scalar .none_, .scalar _, fun t ht => by
    rw [List.mem_singleton.mp ht]
    rfl⟩

/-- A number whose digits Python writes. -/
def integer (n : Nat) (h : (Nat.toDigits 10 n).length ≤ 4300) : Writable :=
  ⟨.scalar (.int n), .scalar _, fun t ht => by
    rw [List.mem_singleton.mp ht]
    exact if_pos h⟩

/-- A number below a billion. -/
def number (n : Nat) (h : n < 1000000000) : Writable := integer n (length_toDigits_le h)

/-- A list or a tuple. -/
def list (items : List Writable) : Writable where
  json := .arr (items.map json)
  distinct := .arr fun v hv => by
    obtain ⟨w, -, rfl⟩ := List.mem_map.mp hv
    exact w.distinct
  writable := by
    intro s hs
    obtain ⟨v, hv, hs⟩ := Json.mem_itemsScalars.mp hs
    obtain ⟨w, -, rfl⟩ := List.mem_map.mp hv
    exact w.writable s hs

/-- A mapping. -/
def mapping (entries : List (String × Writable)) (hkeys : (entries.map Prod.fst).Nodup) : Writable where
  json := .obj (entries.map fun e => (e.1, e.2.json))
  distinct := .obj (by rwa [List.map_map]) fun e he => by
    obtain ⟨e', -, rfl⟩ := List.mem_map.mp he
    exact e'.2.distinct
  writable := by
    intro s hs
    obtain ⟨e, he, hs⟩ := Json.mem_entriesScalars.mp hs
    obtain ⟨e', -, rfl⟩ := List.mem_map.mp he
    exact e'.2.writable s hs

/-- A tuple of texts. -/
def texts (items : List String) : Writable := list (items.map text)

@[simp]
theorem json_text (s : String) : (text s).json = .scalar (.str s) := rfl

@[simp]
theorem json_none : none_.json = .scalar .none_ := rfl

@[simp]
theorem json_integer {n : Nat} (h : (Nat.toDigits 10 n).length ≤ 4300) :
    (integer n h).json = .scalar (.int n) := rfl

@[simp]
theorem json_number {n : Nat} (h : n < 1000000000) : (number n h).json = .scalar (.int n) := rfl

@[simp]
theorem json_list (items : List Writable) : (list items).json = .arr (items.map json) := rfl

@[simp]
theorem json_mapping {entries : List (String × Writable)} (h : (entries.map Prod.fst).Nodup) :
    (mapping entries h).json = .obj (entries.map fun e => (e.1, e.2.json)) := rfl

/-- A value that is written like a writable one has its digest. -/
theorem digestOf_of_jsonReady_eq [Sha256] {v : Value} {w : Writable}
    (h : jsonReady v = jsonReady (.ofJson w.json)) : digestOf v = .ok w.digest := by
  have hbytes : canonicalJsonBytes v = canonicalJsonBytes (.ofJson w.json) := by
    rw [canonicalJsonBytes, h, canonicalJsonBytes]
  rw [digestOf, hbytes]
  exact w.digestOf_eq

end Writable

end StateWeaver.Contracts
