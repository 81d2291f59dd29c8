import Mathlib

/-!
# Insertion-ordered dictionaries

A dictionary is a list of entries without a repeated key, so its order is the order of first
insertion: overwriting a key keeps the key's place, and deleting it gives the place up. Reading is
`get?`; `mem_entries` identifies the listed entries with the answers of `get?`, and every operation
has one equation for `get?` and one for the entry list.

`SortedMap` is the map without the order: listing the entries by increasing key gives every map one
representation, so two maps are equal exactly when they hold the same entries.
-/

/-- A finite map that remembers the order in which its keys were first inserted. -/
structure Dict (K V : Type*) where
  /-- The entries, oldest key first. -/
  entries : List (K × V)
  /-- No key is listed twice. -/
  nodup : (entries.map Prod.fst).Nodup
  deriving DecidableEq

namespace Dict

variable {K V : Type*}

/-- The dictionary with no entry. -/
def empty : Dict K V := ⟨[], List.nodup_nil⟩

/-- The keys, oldest first. -/
def keys (d : Dict K V) : List K := d.entries.map Prod.fst

/-- The values, in the order of their keys. -/
def values (d : Dict K V) : List V := d.entries.map Prod.snd

@[ext]
theorem ext {d₁ d₂ : Dict K V} (h : d₁.entries = d₂.entries) : d₁ = d₂ := by
  cases d₁
  cases d₂
  simp only at h
  subst h
  rfl

theorem nodup_keys (d : Dict K V) : d.keys.Nodup := d.nodup

/-- The values are those of the entries. -/
theorem mem_values {d : Dict K V} {v : V} : v ∈ d.values ↔ ∃ k, (k, v) ∈ d.entries := by
  simp [values]

/-- An entry is determined by its key. -/
theorem eq_of_mem_entries {d : Dict K V} {k : K} {v w : V} (hv : (k, v) ∈ d.entries)
    (hw : (k, w) ∈ d.entries) : v = w := by
  have h := List.inj_on_of_nodup_map d.nodup hv hw rfl
  exact (Prod.mk.injEq _ _ _ _ ▸ h).2

variable [DecidableEq K]

/-- The value stored under a key, if there is one. -/
def get? (d : Dict K V) (k : K) : Option V := d.entries.lookup k

/-- Whether a key is present. -/
def contains (d : Dict K V) (k : K) : Bool := (d.get? k).isSome

/-- Store a value: a present key keeps its place, a new one goes to the end. -/
def insert (d : Dict K V) (k : K) (v : V) : Dict K V :=
  if h : k ∈ d.keys then
    ⟨d.entries.map fun e => if e.1 = k then (k, v) else e, by
      have hkeys : (d.entries.map fun e => if e.1 = k then (k, v) else e).map Prod.fst = d.keys := by
        rw [keys, List.map_map]
        apply List.map_congr_left
        intro e _
        by_cases he : e.1 = k <;> simp [he]
      rw [hkeys]
      exact d.nodup⟩
  else
    ⟨d.entries ++ [(k, v)], by
      rw [List.map_append, List.nodup_append]
      refine ⟨d.nodup, List.nodup_singleton _, ?_⟩
      rintro a ha b hb rfl
      simp only [List.map_cons, List.map_nil, List.mem_singleton] at hb
      exact h (hb ▸ ha)⟩

/-- Delete a key. -/
def erase (d : Dict K V) (k : K) : Dict K V :=
  ⟨d.entries.filter fun e => e.1 ≠ k, d.nodup.sublist (List.filter_sublist.map _)⟩

/-- Store a value unless the key is present. -/
def setdefault (d : Dict K V) (k : K) (v : V) : Dict K V :=
  if d.contains k then d else d.insert k v

/-! ## Reading -/

/-- `get?` answers exactly with the listed entry of the key. -/
theorem mem_entries {d : Dict K V} {k : K} {v : V} : (k, v) ∈ d.entries ↔ d.get? k = some v := by
  obtain ⟨entries, nodup⟩ := d
  simp only [get?]
  induction entries with
  | nil => simp
  | cons e rest ih =>
      obtain ⟨k', v'⟩ := e
      rw [List.map_cons, List.nodup_cons] at nodup
      rw [List.lookup_cons, List.mem_cons, ih nodup.2]
      by_cases hk : k = k'
      · subst hk
        have hfresh : rest.lookup k ≠ some v := fun h =>
          nodup.1 (List.mem_map.mpr ⟨(k, v), (ih nodup.2).mpr h, rfl⟩)
        simp [hfresh, eq_comm]
      · simp [hk, beq_eq_false_iff_ne.mpr hk]

theorem mem_keys {d : Dict K V} {k : K} : k ∈ d.keys ↔ ∃ v, d.get? k = some v := by
  simp only [keys, List.mem_map, Prod.exists, mem_entries]
  constructor
  · rintro ⟨k', v, h, rfl⟩
    exact ⟨v, h⟩
  · rintro ⟨v, h⟩
    exact ⟨k, v, h, rfl⟩

theorem not_mem_keys {d : Dict K V} {k : K} : k ∉ d.keys ↔ d.get? k = none := by
  rw [mem_keys, Option.eq_none_iff_forall_ne_some, not_exists]

theorem contains_eq_true {d : Dict K V} {k : K} :
    d.contains k = true ↔ ∃ v, d.get? k = some v := by
  rw [contains, Option.isSome_iff_exists]

theorem contains_eq_false {d : Dict K V} {k : K} : d.contains k = false ↔ d.get? k = none := by
  rw [contains, Option.isSome_eq_false_iff, Option.isNone_iff_eq_none]

@[simp]
theorem get?_empty (k : K) : (empty : Dict K V).get? k = none := rfl

/-! ## Writing -/

/-- A new key is appended. -/
theorem entries_insert_of_get?_none {d : Dict K V} {k : K} (h : d.get? k = none) (v : V) :
    (d.insert k v).entries = d.entries ++ [(k, v)] := by
  rw [insert, dif_neg (not_mem_keys.mpr h)]

/-- A present key keeps its place. -/
theorem entries_insert_of_get?_some {d : Dict K V} {k : K} {w : V} (h : d.get? k = some w) (v : V) :
    (d.insert k v).entries = d.entries.map fun e => if e.1 = k then (k, v) else e := by
  rw [insert, dif_pos (mem_keys.mpr ⟨w, h⟩)]

theorem mem_entries_insert {d : Dict K V} {k k' : K} {v v' : V} :
    (k', v') ∈ (d.insert k v).entries ↔ k' = k ∧ v' = v ∨ k' ≠ k ∧ (k', v') ∈ d.entries := by
  cases hk : d.get? k with
  | none =>
      rw [entries_insert_of_get?_none hk, List.mem_append, List.mem_singleton, Prod.mk.injEq]
      have hne : (k', v') ∈ d.entries → k' ≠ k := by
        rintro hmem rfl
        rw [mem_entries, hk] at hmem
        cases hmem
      tauto
  | some w =>
      rw [entries_insert_of_get?_some hk, List.mem_map]
      constructor
      · rintro ⟨⟨k₁, v₁⟩, hmem, heq⟩
        by_cases h : k₁ = k
        · rw [if_pos h, Prod.mk.injEq] at heq
          exact Or.inl ⟨heq.1.symm, heq.2.symm⟩
        · rw [if_neg h, Prod.mk.injEq] at heq
          obtain ⟨rfl, rfl⟩ := heq
          exact Or.inr ⟨h, hmem⟩
      · rintro (⟨rfl, rfl⟩ | ⟨hne, hmem⟩)
        · exact ⟨(k', w), mem_entries.mpr hk, by simp⟩
        · exact ⟨(k', v'), hmem, by simp [hne]⟩

theorem get?_insert (d : Dict K V) (k k' : K) (v : V) :
    (d.insert k v).get? k' = if k' = k then some v else d.get? k' := by
  apply Option.ext
  intro w
  rw [← mem_entries, mem_entries_insert]
  by_cases h : k' = k
  · simp [h, eq_comm]
  · simp [h, mem_entries]

@[simp]
theorem get?_insert_self (d : Dict K V) (k : K) (v : V) : (d.insert k v).get? k = some v := by
  rw [get?_insert, if_pos rfl]

theorem get?_insert_of_ne (d : Dict K V) {k k' : K} (h : k' ≠ k) (v : V) :
    (d.insert k v).get? k' = d.get? k' := by
  rw [get?_insert, if_neg h]

theorem get?_erase (d : Dict K V) (k k' : K) :
    (d.erase k).get? k' = if k' = k then none else d.get? k' := by
  apply Option.ext
  intro w
  rw [← mem_entries, erase, List.mem_filter, mem_entries]
  by_cases h : k' = k <;> simp [h]

@[simp]
theorem get?_erase_self (d : Dict K V) (k : K) : (d.erase k).get? k = none := by
  rw [get?_erase, if_pos rfl]

theorem get?_erase_of_ne (d : Dict K V) {k k' : K} (h : k' ≠ k) :
    (d.erase k).get? k' = d.get? k' := by
  rw [get?_erase, if_neg h]

/-- Deleting an absent key does nothing. -/
theorem erase_of_get?_none {d : Dict K V} {k : K} (h : d.get? k = none) : d.erase k = d := by
  apply ext
  rw [erase, List.filter_eq_self]
  intro e he
  rw [decide_eq_true_eq]
  rintro rfl
  rw [← not_mem_keys] at h
  exact h (List.mem_map_of_mem he)

/-- Overwriting a key leaves the key list as it was. -/
theorem keys_insert_of_get?_some {d : Dict K V} {k : K} {w : V} (h : d.get? k = some w) (v : V) :
    (d.insert k v).keys = d.keys := by
  rw [keys, entries_insert_of_get?_some h, List.map_map, keys]
  apply List.map_congr_left
  intro e _
  by_cases he : e.1 = k <;> simp [he]

theorem get?_setdefault (d : Dict K V) (k k' : K) (v : V) :
    (d.setdefault k v).get? k' = if k' = k then some ((d.get? k).getD v) else d.get? k' := by
  rw [setdefault]
  by_cases hc : d.contains k = true
  · obtain ⟨w, hw⟩ := contains_eq_true.mp hc
    rw [if_pos hc, hw]
    by_cases h : k' = k <;> simp [h, hw]
  · rw [if_neg hc, get?_insert, contains_eq_false.mp (Bool.eq_false_iff.mpr hc)]
    rfl

/-- A list that is indexed by a key is looked up from its end. -/
theorem get?_foldl_insert (key : V → K) (l : List V) (d : Dict K V) (k : K) :
    (l.foldl (fun d v => d.insert (key v) v) d).get? k =
      (l.reverse.find? fun v => key v = k).or (d.get? k) := by
  induction l generalizing d with
  | nil => rfl
  | cons v l ih =>
      have hone : (d.insert (key v) v).get? k = ([v].find? fun v => key v = k).or (d.get? k) := by
        rw [get?_insert, List.find?_cons, List.find?_nil]
        by_cases hkey : key v = k
        · simp [hkey]
        · simp [hkey, Ne.symm hkey]
      rw [List.foldl_cons, ih, hone, List.reverse_cons, List.find?_append, Option.or_assoc]

/-- A list whose keys are distinct is indexed by them. -/
theorem get?_index {key : V → K} {l : List V} (h : (l.map key).Nodup) {k : K} {v : V} :
    (l.foldl (fun d v => d.insert (key v) v) empty).get? k = some v ↔ v ∈ l ∧ key v = k := by
  rw [get?_foldl_insert, get?_empty, Option.or_none]
  constructor
  · intro hfind
    have hkey := List.find?_some hfind
    exact ⟨List.mem_reverse.mp (List.mem_of_find?_eq_some hfind), of_decide_eq_true hkey⟩
  · rintro ⟨hv, rfl⟩
    cases hfind : l.reverse.find? fun w => key w = key v with
    | none => exact absurd (decide_eq_true rfl) (List.find?_eq_none.mp hfind v (List.mem_reverse.mpr hv))
    | some w =>
        have hw := List.mem_reverse.mp (List.mem_of_find?_eq_some hfind)
        have hkey := List.find?_some hfind
        rw [List.inj_on_of_nodup_map h hw hv (of_decide_eq_true hkey)]

end Dict

/-- A finite map without an order of its own, listed by increasing key. -/
structure SortedMap (K V : Type*) [LT K] where
  /-- The entries, least key first. -/
  entries : List (K × V)
  /-- Keys increase along the list, so none is repeated. -/
  sorted : entries.Pairwise fun a b => a.1 < b.1
  deriving DecidableEq
