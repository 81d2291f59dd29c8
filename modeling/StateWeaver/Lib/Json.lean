import Mathlib

/-!
# JSON texts

A JSON value is a tree of scalars, arrays and objects; an object lists its entries in some order. The
text of a value is written without blanks. Whatever the texts of the scalars are, as long as they can
be told apart, so can the texts of all values (`text_inj`). An object is the same in another order of
its entries (`Same`); `sort` picks one order for all objects of a value.
-/

/-- A JSON value over some scalars and keys. -/
inductive Json (Scalar Key : Type) where
  | scalar (s : Scalar)
  | arr (items : List (Json Scalar Key))
  | obj (entries : List (Key × Json Scalar Key))

namespace Json

variable {Scalar Key : Type}

mutual

/-- The scalars of a value, in the order of its text. -/
def scalars : Json Scalar Key → List Scalar
  | .scalar s => [s]
  | .arr items => itemsScalars items
  | .obj entries => entriesScalars entries

def itemsScalars : List (Json Scalar Key) → List Scalar
  | [] => []
  | v :: items => scalars v ++ itemsScalars items

def entriesScalars : List (Key × Json Scalar Key) → List Scalar
  | [] => []
  | (_, v) :: entries => scalars v ++ entriesScalars entries

end

mutual

/-- The keys of the objects of a value. -/
def keys : Json Scalar Key → List Key
  | .scalar _ => []
  | .arr items => itemsKeys items
  | .obj entries => entriesKeys entries

def itemsKeys : List (Json Scalar Key) → List Key
  | [] => []
  | v :: items => keys v ++ itemsKeys items

def entriesKeys : List (Key × Json Scalar Key) → List Key
  | [] => []
  | (key, v) :: entries => key :: keys v ++ entriesKeys entries

end

section Map

variable {Scalar' Key' : Type} (f : Scalar → Scalar') (g : Key → Key')

mutual

/-- A value with other scalars and keys. -/
def map : Json Scalar Key → Json Scalar' Key'
  | .scalar s => .scalar (f s)
  | .arr items => .arr (mapItems items)
  | .obj entries => .obj (mapEntries entries)

def mapItems : List (Json Scalar Key) → List (Json Scalar' Key')
  | [] => []
  | v :: items => map v :: mapItems items

def mapEntries : List (Key × Json Scalar Key) → List (Key' × Json Scalar' Key')
  | [] => []
  | (key, v) :: entries => (g key, map v) :: mapEntries entries

end

variable {f g}

theorem mapItems_eq (items : List (Json Scalar Key)) : mapItems f g items = items.map (map f g) := by
  induction items with
  | nil => rfl
  | cons v items ih => rw [mapItems, ih, List.map_cons]

theorem mapEntries_eq (entries : List (Key × Json Scalar Key)) :
    mapEntries f g entries = entries.map fun e => (g e.1, map f g e.2) := by
  induction entries with
  | nil => rfl
  | cons e entries ih => rw [mapEntries, ih, List.map_cons]

end Map

section MapMap

variable {f : Scalar → Scalar} {g : Key → Key}

mutual

/-- A change that changes nothing the second time. -/
theorem map_map_self (hf : ∀ s, f (f s) = f s) (hg : ∀ k, g (g k) = g k) :
    ∀ v : Json Scalar Key, map f g (map f g v) = map f g v
  | .scalar s => by rw [map, map, hf]
  | .arr items => by rw [map, map, mapItems_mapItems_self hf hg items]
  | .obj entries => by rw [map, map, mapEntries_mapEntries_self hf hg entries]

theorem mapItems_mapItems_self (hf : ∀ s, f (f s) = f s) (hg : ∀ k, g (g k) = g k) :
    ∀ items : List (Json Scalar Key), mapItems f g (mapItems f g items) = mapItems f g items
  | [] => rfl
  | v :: items => by
      rw [mapItems, mapItems, map_map_self hf hg v, mapItems_mapItems_self hf hg items]

theorem mapEntries_mapEntries_self (hf : ∀ s, f (f s) = f s) (hg : ∀ k, g (g k) = g k) :
    ∀ entries : List (Key × Json Scalar Key),
      mapEntries f g (mapEntries f g entries) = mapEntries f g entries
  | [] => rfl
  | (k, v) :: entries => by
      rw [mapEntries, mapEntries, hg, map_map_self hf hg v, mapEntries_mapEntries_self hf hg entries]

end

mutual

/-- A change that changes no scalar and no key. -/
theorem map_eq_self : ∀ v : Json Scalar Key, (∀ s ∈ scalars v, f s = s) → (∀ k ∈ keys v, g k = k) →
    map f g v = v
  | .scalar s, hs, _ => by rw [map, hs s List.mem_cons_self]
  | .arr items, hs, hk => by rw [map, mapItems_eq_self items hs hk]
  | .obj entries, hs, hk => by rw [map, mapEntries_eq_self entries hs hk]

theorem mapItems_eq_self : ∀ items : List (Json Scalar Key), (∀ s ∈ itemsScalars items, f s = s) →
    (∀ k ∈ itemsKeys items, g k = k) → mapItems f g items = items
  | [], _, _ => rfl
  | v :: items, hs, hk => by
      rw [itemsScalars, List.forall_mem_append] at hs
      rw [itemsKeys, List.forall_mem_append] at hk
      rw [mapItems, map_eq_self v hs.1 hk.1, mapItems_eq_self items hs.2 hk.2]

theorem mapEntries_eq_self : ∀ entries : List (Key × Json Scalar Key),
    (∀ s ∈ entriesScalars entries, f s = s) → (∀ k ∈ entriesKeys entries, g k = k) →
      mapEntries f g entries = entries
  | [], _, _ => rfl
  | (k, v) :: entries, hs, hk => by
      rw [entriesScalars, List.forall_mem_append] at hs
      rw [entriesKeys, List.cons_append, List.forall_mem_cons, List.forall_mem_append] at hk
      rw [mapEntries, hk.1, map_eq_self v hs.1 hk.2.1, mapEntries_eq_self entries hs.2 hk.2.2]

end

mutual

theorem scalars_map {g : Key → Key} : ∀ v : Json Scalar Key, scalars (map f g v) = (scalars v).map f
  | .scalar s => rfl
  | .arr items => by rw [map, scalars, scalars, itemsScalars_mapItems items]
  | .obj entries => by rw [map, scalars, scalars, entriesScalars_mapEntries entries]

theorem itemsScalars_mapItems {g : Key → Key} : ∀ items : List (Json Scalar Key),
    itemsScalars (mapItems f g items) = (itemsScalars items).map f
  | [] => rfl
  | v :: items => by
      rw [mapItems, itemsScalars, itemsScalars, List.map_append, scalars_map v,
        itemsScalars_mapItems items]

theorem entriesScalars_mapEntries {g : Key → Key} : ∀ entries : List (Key × Json Scalar Key),
    entriesScalars (mapEntries f g entries) = (entriesScalars entries).map f
  | [] => rfl
  | (k, v) :: entries => by
      rw [mapEntries, entriesScalars, entriesScalars, List.map_append, scalars_map v,
        entriesScalars_mapEntries entries]

end

end MapMap

/-! ## Texts -/

/-- How scalars and keys are written. -/
structure Syntax (Scalar Key : Type) where
  scalar : Scalar → List Char
  key : Key → List Char

/-- Whether the rest of a text starts with something that ends a value. -/
def Ends (rest : List Char) : Prop := ∀ c ∈ rest.head?, c = ',' ∨ c = ']' ∨ c = '}'

/-- Whether scalars of some kind and keys can be told apart, from each other and from arrays and
objects. -/
structure Syntax.Readable (x : Syntax Scalar Key) (valid : Scalar → Prop) : Prop where
  scalar {s s' : Scalar} {rest rest' : List Char} : valid s → valid s' → Ends rest → Ends rest' →
    x.scalar s ++ rest = x.scalar s' ++ rest' → s = s' ∧ rest = rest'
  key {k k' : Key} {rest rest' : List Char} :
    x.key k ++ ':' :: rest = x.key k' ++ ':' :: rest' → k = k' ∧ rest = rest'
  start (s : Scalar) : ∃ c rest, x.scalar s = c :: rest ∧ c ∉ ['[', ']', '{', '}', ',']
  keyStart (k : Key) : ∃ c rest, x.key k = c :: rest ∧ c ≠ '}'

variable (x : Syntax Scalar Key)

mutual

/-- The text of a value. -/
def text : Json Scalar Key → List Char
  | .scalar s => x.scalar s
  | .arr [] => ['[', ']']
  | .arr (v :: items) => '[' :: text v ++ itemsText items
  | .obj [] => ['{', '}']
  | .obj ((k, v) :: entries) => '{' :: x.key k ++ ':' :: text v ++ entriesText entries

/-- The text of the other items of an array. -/
def itemsText : List (Json Scalar Key) → List Char
  | [] => [']']
  | v :: items => ',' :: text v ++ itemsText items

/-- The text of the other entries of an object. -/
def entriesText : List (Key × Json Scalar Key) → List Char
  | [] => ['}']
  | (k, v) :: entries => ',' :: x.key k ++ ':' :: text v ++ entriesText entries

end

section Map

variable {x} {f : Scalar → Scalar} {g : Key → Key}

mutual

/-- Changes that are not written do not change the text. -/
theorem text_map (hf : ∀ s, x.scalar (f s) = x.scalar s) (hg : ∀ k, x.key (g k) = x.key k) :
    ∀ v : Json Scalar Key, text x (map f g v) = text x v
  | .scalar s => hf s
  | .arr [] => by rw [map, mapItems]
  | .arr (v :: items) => by
      rw [map, mapItems, text, text, text_map hf hg v, itemsText_map hf hg items]
  | .obj [] => by rw [map, mapEntries]
  | .obj ((k, v) :: entries) => by
      rw [map, mapEntries, text, text, hg, text_map hf hg v, entriesText_map hf hg entries]

theorem itemsText_map (hf : ∀ s, x.scalar (f s) = x.scalar s) (hg : ∀ k, x.key (g k) = x.key k) :
    ∀ items : List (Json Scalar Key), itemsText x (mapItems f g items) = itemsText x items
  | [] => rfl
  | v :: items => by
      rw [mapItems, itemsText, itemsText, text_map hf hg v, itemsText_map hf hg items]

theorem entriesText_map (hf : ∀ s, x.scalar (f s) = x.scalar s) (hg : ∀ k, x.key (g k) = x.key k) :
    ∀ entries : List (Key × Json Scalar Key), entriesText x (mapEntries f g entries) = entriesText x entries
  | [] => rfl
  | (k, v) :: entries => by
      rw [mapEntries, entriesText, entriesText, hg, text_map hf hg v, entriesText_map hf hg entries]

end

end Map

variable {x} {valid : Scalar → Prop}

theorem ends_itemsText (items : List (Json Scalar Key)) (rest : List Char) :
    Ends (itemsText x items ++ rest) := by
  cases items with
  | nil =>
      intro c hc
      cases hc
      exact Or.inr (Or.inl rfl)
  | cons v items =>
      intro c hc
      rw [itemsText] at hc
      cases hc
      exact Or.inl rfl

theorem ends_entriesText (entries : List (Key × Json Scalar Key)) (rest : List Char) :
    Ends (entriesText x entries ++ rest) := by
  cases entries with
  | nil =>
      intro c hc
      cases hc
      exact Or.inr (Or.inr rfl)
  | cons e entries =>
      obtain ⟨k, v⟩ := e
      intro c hc
      rw [entriesText] at hc
      cases hc
      exact Or.inl rfl

/-- A scalar does not start like anything else. -/
theorem scalar_append_ne (hx : x.Readable valid) {s : Scalar} {c : Char} {rest rest' : List Char}
    (hc : c ∈ ['[', ']', '{', '}', ',']) : x.scalar s ++ rest ≠ c :: rest' := by
  obtain ⟨c', text, htext, hnot⟩ := hx.start s
  rw [htext]
  intro h
  cases h
  exact hnot hc

theorem exists_text_arr (items : List (Json Scalar Key)) :
    ∃ rest, text x (.arr items) = '[' :: rest := by
  cases items with
  | nil => exact ⟨[']'], by rw [text]⟩
  | cons v items => exact ⟨text x v ++ itemsText x items, by rw [text]; rfl⟩

theorem exists_text_obj (entries : List (Key × Json Scalar Key)) :
    ∃ rest, text x (.obj entries) = '{' :: rest := by
  cases entries with
  | nil => exact ⟨['}'], by rw [text]⟩
  | cons e entries =>
      exact ⟨x.key e.1 ++ ':' :: text x e.2 ++ entriesText x entries, by rw [text]; rfl⟩

/-- No value starts like the end of one. -/
theorem text_append_ne (hx : x.Readable valid) {v : Json Scalar Key} {c : Char} {rest rest' : List Char}
    (hc : c = ']' ∨ c = '}' ∨ c = ',') : text x v ++ rest ≠ c :: rest' := by
  cases v with
  | scalar s =>
      rw [text]
      refine scalar_append_ne hx ?_
      rcases hc with rfl | rfl | rfl <;> decide
  | arr items =>
      obtain ⟨t, ht⟩ := exists_text_arr (x := x) items
      rw [ht]
      rintro h
      cases h
      revert hc
      decide
  | obj entries =>
      obtain ⟨t, ht⟩ := exists_text_obj (x := x) entries
      rw [ht]
      rintro h
      cases h
      revert hc
      decide

mutual

/-- Two values whose texts start alike are the same, if both texts end there. -/
theorem eq_of_text_append (hx : x.Readable valid) : ∀ (v w : Json Scalar Key) {rest rest' : List Char},
    (∀ s ∈ scalars v, valid s) → (∀ s ∈ scalars w, valid s) → Ends rest → Ends rest' →
      text x v ++ rest = text x w ++ rest' → v = w ∧ rest = rest'
  | .scalar s, .scalar s', _, _, hv, hw, hends, hends', h => by
      rw [text, text] at h
      obtain ⟨rfl, hrest⟩ :=
        hx.scalar (hv s List.mem_cons_self) (hw s' List.mem_cons_self) hends hends' h
      exact ⟨rfl, hrest⟩
  | .scalar s, .arr items, _, _, _, _, _, _, h => by
      obtain ⟨t, ht⟩ := exists_text_arr (x := x) items
      rw [text, ht] at h
      exact absurd h (scalar_append_ne hx (by decide))
  | .scalar s, .obj entries, _, _, _, _, _, _, h => by
      obtain ⟨t, ht⟩ := exists_text_obj (x := x) entries
      rw [text, ht] at h
      exact absurd h (scalar_append_ne hx (by decide))
  | .arr items, .scalar s, _, _, _, _, _, _, h => by
      obtain ⟨t, ht⟩ := exists_text_arr (x := x) items
      rw [text, ht] at h
      exact absurd h.symm (scalar_append_ne hx (by decide))
  | .obj entries, .scalar s, _, _, _, _, _, _, h => by
      obtain ⟨t, ht⟩ := exists_text_obj (x := x) entries
      rw [text, ht] at h
      exact absurd h.symm (scalar_append_ne hx (by decide))
  | .arr items, .obj entries, _, _, _, _, _, _, h => by
      obtain ⟨t, ht⟩ := exists_text_arr (x := x) items
      obtain ⟨t', ht'⟩ := exists_text_obj (x := x) entries
      rw [ht, ht'] at h
      cases h
  | .obj entries, .arr items, _, _, _, _, _, _, h => by
      obtain ⟨t, ht⟩ := exists_text_arr (x := x) items
      obtain ⟨t', ht'⟩ := exists_text_obj (x := x) entries
      rw [ht, ht'] at h
      cases h
  | .arr [], .arr [], _, _, _, _, _, _, h => by
      rw [text] at h
      exact ⟨rfl, List.append_cancel_left h⟩
  | .arr [], .arr (w :: items), _, _, _, _, _, _, h => by
      simp only [text, List.cons_append, List.append_assoc, List.cons.injEq, true_and] at h
      exact absurd h.symm (text_append_ne hx (Or.inl rfl))
  | .arr (v :: items), .arr [], _, _, _, _, _, _, h => by
      simp only [text, List.cons_append, List.append_assoc, List.cons.injEq, true_and] at h
      exact absurd h (text_append_ne hx (Or.inl rfl))
  | .arr (v :: items), .arr (w :: items'), _, _, hv, hw, _, _, h => by
      simp only [text, List.cons_append, List.append_assoc, List.cons.injEq, true_and] at h
      rw [scalars, itemsScalars, List.forall_mem_append] at hv hw
      obtain ⟨rfl, htail⟩ :=
        eq_of_text_append hx v w hv.1 hw.1 (ends_itemsText _ _) (ends_itemsText _ _) h
      obtain ⟨rfl, hrest⟩ := eq_of_itemsText_append hx items items' hv.2 hw.2 htail
      exact ⟨rfl, hrest⟩
  | .obj [], .obj [], _, _, _, _, _, _, h => by
      rw [text] at h
      exact ⟨rfl, List.append_cancel_left h⟩
  | .obj [], .obj ((k, v) :: entries), _, _, _, _, _, _, h => by
      obtain ⟨c, t, ht, hne⟩ := hx.keyStart k
      simp only [text, ht, List.cons_append, List.cons.injEq, true_and] at h
      exact absurd h.1.symm hne
  | .obj ((k, v) :: entries), .obj [], _, _, _, _, _, _, h => by
      obtain ⟨c, t, ht, hne⟩ := hx.keyStart k
      simp only [text, ht, List.cons_append, List.cons.injEq, true_and] at h
      exact absurd h.1 hne
  | .obj ((k, v) :: entries), .obj ((k', w) :: entries'), _, _, hv, hw, _, _, h => by
      simp only [text, List.cons_append, List.append_assoc, List.cons.injEq, true_and] at h
      rw [scalars, entriesScalars, List.forall_mem_append] at hv hw
      obtain ⟨rfl, hvalue⟩ := hx.key h
      obtain ⟨rfl, htail⟩ :=
        eq_of_text_append hx v w hv.1 hw.1 (ends_entriesText _ _) (ends_entriesText _ _) hvalue
      obtain ⟨rfl, hrest⟩ := eq_of_entriesText_append hx entries entries' hv.2 hw.2 htail
      exact ⟨rfl, hrest⟩

theorem eq_of_itemsText_append (hx : x.Readable valid) :
    ∀ (items items' : List (Json Scalar Key)) {rest rest' : List Char},
      (∀ s ∈ itemsScalars items, valid s) → (∀ s ∈ itemsScalars items', valid s) →
        itemsText x items ++ rest = itemsText x items' ++ rest' → items = items' ∧ rest = rest'
  | [], [], _, _, _, _, h => by
      rw [itemsText] at h
      exact ⟨rfl, List.append_cancel_left h⟩
  | [], v :: items, _, _, _, _, h => by
      simp only [itemsText, List.cons_append] at h
      cases h
  | v :: items, [], _, _, _, _, h => by
      simp only [itemsText, List.cons_append] at h
      cases h
  | v :: items, w :: items', _, _, hv, hw, h => by
      simp only [itemsText, List.cons_append, List.append_assoc, List.cons.injEq, true_and] at h
      rw [itemsScalars, List.forall_mem_append] at hv hw
      obtain ⟨rfl, htail⟩ :=
        eq_of_text_append hx v w hv.1 hw.1 (ends_itemsText _ _) (ends_itemsText _ _) h
      obtain ⟨rfl, hrest⟩ := eq_of_itemsText_append hx items items' hv.2 hw.2 htail
      exact ⟨rfl, hrest⟩

theorem eq_of_entriesText_append (hx : x.Readable valid) :
    ∀ (entries entries' : List (Key × Json Scalar Key)) {rest rest' : List Char},
      (∀ s ∈ entriesScalars entries, valid s) → (∀ s ∈ entriesScalars entries', valid s) →
        entriesText x entries ++ rest = entriesText x entries' ++ rest' →
          entries = entries' ∧ rest = rest'
  | [], [], _, _, _, _, h => by
      rw [entriesText] at h
      exact ⟨rfl, List.append_cancel_left h⟩
  | [], (k, v) :: entries, _, _, _, _, h => by
      simp only [entriesText, List.cons_append] at h
      cases h
  | (k, v) :: entries, [], _, _, _, _, h => by
      simp only [entriesText, List.cons_append] at h
      cases h
  | (k, v) :: entries, (k', w) :: entries', _, _, hv, hw, h => by
      simp only [entriesText, List.cons_append, List.append_assoc, List.cons.injEq, true_and] at h
      rw [entriesScalars, List.forall_mem_append] at hv hw
      obtain ⟨rfl, hvalue⟩ := hx.key h
      obtain ⟨rfl, htail⟩ :=
        eq_of_text_append hx v w hv.1 hw.1 (ends_entriesText _ _) (ends_entriesText _ _) hvalue
      obtain ⟨rfl, hrest⟩ := eq_of_entriesText_append hx entries entries' hv.2 hw.2 htail
      exact ⟨rfl, hrest⟩

end

/-- The text of a value tells the value. -/
theorem text_inj (hx : x.Readable valid) {v w : Json Scalar Key} (hv : ∀ s ∈ scalars v, valid s)
    (hw : ∀ s ∈ scalars w, valid s) (h : text x v = text x w) : v = w := by
  have hends : Ends [] := nofun
  refine (eq_of_text_append hx v w hv hw hends hends ?_).1
  rw [h]

theorem mem_itemsScalars {items : List (Json Scalar Key)} {s : Scalar} :
    s ∈ itemsScalars items ↔ ∃ v ∈ items, s ∈ scalars v := by
  induction items with
  | nil => exact iff_of_false List.not_mem_nil (by rintro ⟨v, hv, -⟩; cases hv)
  | cons v items ih => rw [itemsScalars, List.mem_append, ih, List.exists_mem_cons_iff]

theorem mem_entriesScalars {entries : List (Key × Json Scalar Key)} {s : Scalar} :
    s ∈ entriesScalars entries ↔ ∃ e ∈ entries, s ∈ scalars e.2 := by
  induction entries with
  | nil => exact iff_of_false List.not_mem_nil (by rintro ⟨v, hv, -⟩; cases hv)
  | cons e entries ih =>
      obtain ⟨k, v⟩ := e
      rw [entriesScalars, List.mem_append, ih, List.exists_mem_cons_iff]

theorem mem_itemsKeys {items : List (Json Scalar Key)} {k : Key} :
    k ∈ itemsKeys items ↔ ∃ v ∈ items, k ∈ keys v := by
  induction items with
  | nil => exact iff_of_false List.not_mem_nil (by rintro ⟨v, hv, -⟩; cases hv)
  | cons v items ih => rw [itemsKeys, List.mem_append, ih, List.exists_mem_cons_iff]

theorem mem_entriesKeys {entries : List (Key × Json Scalar Key)} {k : Key} :
    k ∈ entriesKeys entries ↔ ∃ e ∈ entries, k = e.1 ∨ k ∈ keys e.2 := by
  induction entries with
  | nil => exact iff_of_false List.not_mem_nil (by rintro ⟨v, hv, -⟩; cases hv)
  | cons e entries ih =>
      rw [entriesKeys, List.cons_append, List.mem_cons, List.mem_append, ih, List.exists_mem_cons_iff,
        or_assoc]

/-! ## Induction -/

variable {P : Json Scalar Key → Prop}

mutual

/-- Induction over a value: what holds of the parts holds of the whole. -/
@[elab_as_elim]
theorem induction (scalar : ∀ s, P (.scalar s)) (arr : ∀ items, (∀ v ∈ items, P v) → P (.arr items))
    (obj : ∀ entries, (∀ e ∈ entries, P (Prod.snd e)) → P (.obj entries)) :
    ∀ v : Json Scalar Key, P v
  | .scalar s => scalar s
  | .arr items => arr items (forall_mem_items scalar arr obj items)
  | .obj entries => obj entries (forall_mem_entries scalar arr obj entries)

theorem forall_mem_items (scalar : ∀ s, P (.scalar s))
    (arr : ∀ items, (∀ v ∈ items, P v) → P (.arr items))
    (obj : ∀ entries, (∀ e ∈ entries, P (Prod.snd e)) → P (.obj entries)) :
    ∀ items : List (Json Scalar Key), ∀ v ∈ items, P v
  | [] => nofun
  | v :: items => List.forall_mem_cons.mpr
      ⟨induction scalar arr obj v, forall_mem_items scalar arr obj items⟩

theorem forall_mem_entries (scalar : ∀ s, P (.scalar s))
    (arr : ∀ items, (∀ v ∈ items, P v) → P (.arr items))
    (obj : ∀ entries, (∀ e ∈ entries, P (Prod.snd e)) → P (.obj entries)) :
    ∀ entries : List (Key × Json Scalar Key), ∀ e ∈ entries, P e.2
  | [] => nofun
  | (_, v) :: entries => List.forall_mem_cons.mpr
      ⟨induction scalar arr obj v, forall_mem_entries scalar arr obj entries⟩

end

/-! ## The order of entries -/

/-- Whether two values differ at most in the order of the entries of objects, at any depth. -/
inductive Same : Json Scalar Key → Json Scalar Key → Prop
  | scalar (s : Scalar) : Same (.scalar s) (.scalar s)
  | arr {items items' : List (Json Scalar Key)} (hlength : items.length = items'.length)
      (h : ∀ p ∈ items.zip items', Same p.1 p.2) : Same (.arr items) (.arr items')
  | obj {entries entries' reordered : List (Key × Json Scalar Key)}
      (hperm : reordered.Perm entries') (hkeys : entries.map Prod.fst = reordered.map Prod.fst)
      (h : ∀ p ∈ entries.zip reordered, Same p.1.2 p.2.2) : Same (.obj entries) (.obj entries')

/-- Whether no object has two entries for one key. -/
inductive Distinct : Json Scalar Key → Prop
  | scalar (s : Scalar) : Distinct (.scalar s)
  | arr {items : List (Json Scalar Key)} (h : ∀ v ∈ items, Distinct v) : Distinct (.arr items)
  | obj {entries : List (Key × Json Scalar Key)} (hkeys : (entries.map Prod.fst).Nodup)
      (h : ∀ e ∈ entries, Distinct e.2) : Distinct (.obj entries)

/-- A value that is found under a key. -/
theorem Distinct.of_lookup [BEq Key] [LawfulBEq Key] {entries : List (Key × Json Scalar Key)}
    {key : Key} {v : Json Scalar Key} (h : Distinct (.obj entries)) (hv : entries.lookup key = some v) :
    Distinct v := by
  cases h with
  | obj _ h =>
      obtain ⟨before, after, hentries, -⟩ := List.lookup_eq_some_iff.mp hv
      refine h (key, v) ?_
      rw [hentries]
      exact List.mem_append_right _ List.mem_cons_self

/-- Objects that are the same have the same values. -/
theorem Same.entry {entries entries' : List (Key × Json Scalar Key)} {key : Key}
    {v w : Json Scalar Key} (h : Same (.obj entries) (.obj entries'))
    (hkeys : (entries'.map Prod.fst).Nodup) (hv : (key, v) ∈ entries) (hw : (key, w) ∈ entries') :
    Same v w := by
  cases h with
  | @obj _ _ reordered hperm hfst hsame =>
      obtain ⟨i, hi, hget⟩ := List.mem_iff_getElem.mp hv
      have hlength : entries.length = reordered.length := by
        simpa only [List.length_map] using congrArg List.length hfst
      have hi' : i < reordered.length := hlength ▸ hi
      have hkey : reordered[i].1 = key := by
        have hmap : (entries.map Prod.fst)[i]? = (reordered.map Prod.fst)[i]? := by rw [hfst]
        rw [List.getElem?_map, List.getElem?_map, List.getElem?_eq_getElem hi,
          List.getElem?_eq_getElem hi', hget] at hmap
        exact (Option.some.inj hmap).symm
      have hmem : reordered[i] ∈ entries' := hperm.mem_iff.mp (List.getElem_mem hi')
      have hentry : reordered[i] = (key, w) := List.inj_on_of_nodup_map hkeys hmem hw hkey
      have hzip : (entries[i], reordered[i]) ∈ entries.zip reordered := by
        rw [← List.getElem_zip (h := by rw [List.length_zip]; omega)]
        exact List.getElem_mem _
      have hvalues := hsame _ hzip
      rw [hget, hentry] at hvalues
      exact hvalues

variable [LinearOrder Key]

mutual

/-- A value with the entries of every object in the order of their keys. -/
def sort : Json Scalar Key → Json Scalar Key
  | .scalar s => .scalar s
  | .arr items => .arr (sortItems items)
  | .obj entries => .obj ((sortEntries entries).insertionSort fun e e' => e.1 ≤ e'.1)

def sortItems : List (Json Scalar Key) → List (Json Scalar Key)
  | [] => []
  | v :: items => sort v :: sortItems items

def sortEntries : List (Key × Json Scalar Key) → List (Key × Json Scalar Key)
  | [] => []
  | (k, v) :: entries => (k, sort v) :: sortEntries entries

end

theorem sortItems_eq (items : List (Json Scalar Key)) : sortItems items = items.map sort := by
  induction items with
  | nil => rfl
  | cons v items ih => rw [sortItems, ih, List.map_cons]

theorem sortEntries_eq (entries : List (Key × Json Scalar Key)) :
    sortEntries entries = entries.map fun e => (e.1, sort e.2) := by
  induction entries with
  | nil => rfl
  | cons e entries ih =>
      obtain ⟨k, v⟩ := e
      rw [sortEntries, ih, List.map_cons]

theorem map_fst_sortEntries (entries : List (Key × Json Scalar Key)) :
    (sortEntries entries).map Prod.fst = entries.map Prod.fst := by
  rw [sortEntries_eq, List.map_map]
  rfl

/-- Sorting by distinct keys forgets the order. -/
theorem insertionSort_eq_of_perm {α : Type} {entries entries' : List (Key × α)}
    (hkeys : (entries.map Prod.fst).Nodup) (hperm : entries.Perm entries') :
    (entries.insertionSort fun e e' => e.1 ≤ e'.1) =
      entries'.insertionSort fun e e' => e.1 ≤ e'.1 := by
  have hperm' : (entries.insertionSort fun e e' => e.1 ≤ e'.1).Perm
      (entries'.insertionSort fun e e' => e.1 ≤ e'.1) :=
    (List.perm_insertionSort _ _).trans (hperm.trans (List.perm_insertionSort _ _).symm)
  refine List.Perm.eq_of_pairwise ?_ (List.pairwise_insertionSort _ _)
    (List.pairwise_insertionSort _ _) hperm'
  intro e e' he he' hle hle'
  refine List.inj_on_of_nodup_map hkeys ?_ ?_ (le_antisymm hle hle')
  · exact (List.mem_insertionSort _).mp he
  · exact hperm.symm.subset ((List.mem_insertionSort _).mp he')

theorem map_eq_map_of_zip {α β γ : Type} {f : α → γ} {g : β → γ} {l : List α} {l' : List β}
    (hlength : l.length = l'.length) (h : ∀ p ∈ l.zip l', f p.1 = g p.2) : l.map f = l'.map g := by
  induction l generalizing l' with
  | nil => rw [List.length_eq_zero_iff.mp hlength.symm, List.map_nil, List.map_nil]
  | cons a l ih =>
      cases l' with
      | nil => cases hlength
      | cons b l' =>
          rw [List.zip_cons_cons] at h
          obtain ⟨hhead, htail⟩ := List.forall_mem_cons.mp h
          rw [List.map_cons, List.map_cons, hhead, ih (Nat.succ_injective hlength) htail]

theorem zip_of_map_eq_map {α β γ : Type} {f : α → γ} {g : β → γ} {l : List α} {l' : List β}
    (h : l.map f = l'.map g) : l.length = l'.length ∧ ∀ p ∈ l.zip l', f p.1 = g p.2 := by
  induction l generalizing l' with
  | nil =>
      rw [List.map_nil, eq_comm, List.map_eq_nil_iff] at h
      rw [h]
      exact ⟨rfl, nofun⟩
  | cons a l ih =>
      cases l' with
      | nil => cases h
      | cons b l' =>
          rw [List.map_cons, List.map_cons, List.cons.injEq] at h
          obtain ⟨hlength, hzip⟩ := ih h.2
          rw [List.zip_cons_cons]
          exact ⟨congrArg Nat.succ hlength, List.forall_mem_cons.mpr ⟨h.1, hzip⟩⟩

/-- Values that are the same become equal. -/
theorem sort_eq_of_same {v w : Json Scalar Key} (h : Same v w) (hv : Distinct v) :
    sort v = sort w := by
  induction h with
  | scalar s => rfl
  | @arr items items' hlength h ih =>
      cases hv with
      | arr hv =>
          rw [sort, sort, sortItems_eq, sortItems_eq,
            map_eq_map_of_zip hlength fun p hp => ih p hp (hv p.1 (List.of_mem_zip hp).1)]
  | @obj entries entries' reordered hperm hkeys h ih =>
      cases hv with
      | obj hunique hv =>
          have hlength : entries.length = reordered.length := by
            have hlengths := congrArg List.length hkeys
            rwa [List.length_map, List.length_map] at hlengths
          have hsorted : sortEntries entries = sortEntries reordered := by
            rw [sortEntries_eq, sortEntries_eq]
            refine map_eq_map_of_zip hlength fun p hp => ?_
            rw [ih p hp (hv p.1 (List.of_mem_zip hp).1), (zip_of_map_eq_map hkeys).2 p hp]
          rw [sort, sort, hsorted, insertionSort_eq_of_perm]
          · rw [← hsorted, map_fst_sortEntries]
            exact hunique
          · rw [sortEntries_eq, sortEntries_eq]
            exact hperm.map _

/-- Values that become equal are the same. -/
theorem same_of_sort_eq (v w : Json Scalar Key) (h : sort v = sort w) : Same v w := by
  induction v using induction generalizing w with
  | scalar s =>
      cases w with
      | scalar s' =>
          cases h
          exact .scalar s
      | arr items => cases h
      | obj entries => cases h
  | arr items ih =>
      cases w with
      | scalar s => cases h
      | arr items' =>
          rw [sort, sort, sortItems_eq, sortItems_eq, Json.arr.injEq] at h
          obtain ⟨hlength, hzip⟩ := zip_of_map_eq_map h
          exact .arr hlength fun p hp => ih p.1 (List.of_mem_zip hp).1 p.2 (hzip p hp)
      | obj entries => cases h
  | obj entries ih =>
      cases w with
      | scalar s => cases h
      | arr items => cases h
      | obj entries' =>
          rw [sort, sort, sortEntries_eq, sortEntries_eq, Json.obj.injEq] at h
          have hperm : (entries.map fun e => (e.1, sort e.2)).Perm
              (entries'.map fun e => (e.1, sort e.2)) := by
            refine (List.perm_insertionSort (fun e e' => e.1 ≤ e'.1) _).symm.trans ?_
            rw [h]
            exact List.perm_insertionSort _ _
          obtain ⟨reordered, hmap, hreordered⟩ := List.perm_comp_forall₂ hperm
            (List.forall₂_map_left_iff.mpr (List.forall₂_same.mpr fun _ _ => rfl) :
              List.Forall₂ (fun e e' => e = (e'.1, sort e'.2)) _ entries')
          rw [List.forall₂_map_left_iff, List.forall₂_iff_zip] at hmap
          obtain ⟨hlength, hzip⟩ := hmap
          refine .obj hreordered (map_eq_map_of_zip hlength fun p hp => ?_) fun p hp => ?_
          · exact (Prod.mk.inj (hzip hp)).1
          · exact ih p.1 (List.of_mem_zip hp).1 _ (Prod.mk.inj (hzip hp)).2

/-! ## Sorted values -/

/-- Whether the keys of every object are strictly in order. -/
inductive Ascending : Json Scalar Key → Prop
  | scalar (s : Scalar) : Ascending (.scalar s)
  | arr {items : List (Json Scalar Key)} (h : ∀ v ∈ items, Ascending v) : Ascending (.arr items)
  | obj {entries : List (Key × Json Scalar Key)} (hkeys : (entries.map Prod.fst).Pairwise (· < ·))
      (h : ∀ e ∈ entries, Ascending e.2) : Ascending (.obj entries)

/-- The values with distinct keys that sorting does not change. -/
theorem ascending_iff (v : Json Scalar Key) : Ascending v ↔ Distinct v ∧ sort v = v := by
  induction v using induction with
  | scalar s => exact iff_of_true (.scalar s) ⟨.scalar s, by rw [sort]⟩
  | arr items ih =>
      have hmap : (sort (.arr items) = .arr items) ↔ ∀ v ∈ items, sort v = v := by
        rw [sort, sortItems_eq, Json.arr.injEq, ← List.map_inj_left (g := fun v => v), List.map_id']
      rw [hmap]
      constructor
      · intro h
        cases h with
        | arr h =>
            exact ⟨.arr fun v hv => ((ih v hv).mp (h v hv)).1, fun v hv => ((ih v hv).mp (h v hv)).2⟩
      · rintro ⟨hdistinct, hsort⟩
        cases hdistinct with
        | arr hdistinct => exact .arr fun v hv => (ih v hv).mpr ⟨hdistinct v hv, hsort v hv⟩
  | obj entries ih =>
      rw [sort, Json.obj.injEq]
      constructor
      · intro h
        cases h with
        | obj hkeys h =>
            have hsorted : sortEntries entries = entries := by
              refine (sortEntries_eq entries).trans ((List.map_inj_left.mpr fun e he => ?_).trans
                (List.map_id' entries))
              exact Prod.ext rfl ((ih e he).mp (h e he)).2
            refine ⟨.obj (hkeys.imp ne_of_lt) fun e he => ((ih e he).mp (h e he)).1, ?_⟩
            rw [hsorted]
            exact (List.pairwise_map.mp hkeys).imp le_of_lt |>.insertionSort_eq
      · rintro ⟨hdistinct, hsort⟩
        cases hdistinct with
        | obj hunique hdistinct =>
            have hle : entries.Pairwise fun e e' => e.1 ≤ e'.1 := by
              rw [← hsort]
              exact List.pairwise_insertionSort _ _
            have hlt : (entries.map Prod.fst).Pairwise (· < ·) := by
              rw [List.pairwise_map]
              exact (hle.and (List.pairwise_map.mp hunique)).imp fun h => lt_of_le_of_ne h.1 h.2
            refine .obj hlt fun e he => (ih e he).mpr ⟨hdistinct e he, ?_⟩
            have hmem : (e.1, sort e.2) ∈ entries := by
              rw [← hsort, List.mem_insertionSort, sortEntries_eq]
              exact List.mem_map_of_mem he
            exact congrArg Prod.snd (List.inj_on_of_nodup_map hunique hmem he rfl)

/-- An object whose keys are known, with its entries in order. -/
theorem sort_obj {entries : List (Key × Json Scalar Key)} {keys : List Key}
    (hkeys : keys.Pairwise (· < ·)) (hperm : (entries.map Prod.fst).Perm keys)
    {value : Key → Json Scalar Key} (hvalue : ∀ e ∈ entries, value e.1 = e.2) :
    sort (.obj entries) = .obj (keys.map fun key => (key, sort (value key))) := by
  have hsorted : sortEntries entries = (entries.map Prod.fst).map fun key => (key, sort (value key)) := by
    rw [sortEntries_eq, List.map_map]
    exact List.map_inj_left.mpr fun e he => Prod.ext rfl (by rw [Function.comp, hvalue e he])
  have hpairwise : (keys.map fun key => (key, sort (value key))).Pairwise fun e e' => e.1 ≤ e'.1 :=
    List.pairwise_map.mpr (hkeys.imp le_of_lt)
  rw [sort, hsorted, insertionSort_eq_of_perm _ (hperm.map _), hpairwise.insertionSort_eq]
  rw [List.map_map]
  change (((entries.map Prod.fst)).map id).Nodup
  rw [List.map_id]
  exact hperm.nodup_iff.mpr (hkeys.imp ne_of_lt)

/-- Sorting a value with distinct keys puts them strictly in order. -/
theorem ascending_sort {v : Json Scalar Key} (h : Distinct v) : Ascending (sort v) := by
  induction v using induction with
  | scalar s => exact .scalar s
  | arr items ih =>
      cases h with
      | arr h =>
          rw [sort, sortItems_eq]
          refine .arr fun w hw => ?_
          obtain ⟨v, hv, rfl⟩ := List.mem_map.mp hw
          exact ih v hv (h v hv)
  | obj entries ih =>
      cases h with
      | obj hunique h =>
          have hperm := List.perm_insertionSort (fun e e' => e.1 ≤ e'.1) (sortEntries entries)
          have hnodup : (((sortEntries entries).insertionSort fun e e' => e.1 ≤ e'.1).map
              Prod.fst).Nodup := by
            rw [(hperm.map Prod.fst).nodup_iff, map_fst_sortEntries]
            exact hunique
          rw [sort]
          refine .obj ?_ fun e he => ?_
          · rw [List.pairwise_map]
            exact ((List.pairwise_insertionSort _ _).and (List.pairwise_map.mp hnodup)).imp
              fun h => lt_of_le_of_ne h.1 h.2
          · rw [hperm.mem_iff, sortEntries_eq] at he
            obtain ⟨e', he', rfl⟩ := List.mem_map.mp he
            exact ih e' he' (h e' he')

/-- What changes nothing in a value changes nothing in the sorted value. -/
theorem map_sort_eq_self {f : Scalar → Scalar} {g : Key → Key} (v : Json Scalar Key)
    (h : map f g v = v) : map f g (sort v) = sort v := by
  induction v using induction with
  | scalar s =>
      rw [sort]
      exact h
  | arr items ih =>
      rw [map, mapItems_eq, Json.arr.injEq] at h
      rw [sort, map, mapItems_eq, sortItems_eq, List.map_map, Json.arr.injEq]
      refine List.map_inj_left.mpr fun v hv => ih v hv ?_
      exact List.map_inj_left.mp (h.trans (List.map_id' items).symm) v hv
  | obj entries ih =>
      rw [map, mapEntries_eq, Json.obj.injEq] at h
      rw [sort, map, mapEntries_eq, Json.obj.injEq]
      refine (List.map_inj_left.mpr fun e he => ?_).trans (List.map_id' _)
      rw [List.mem_insertionSort, sortEntries_eq] at he
      obtain ⟨e', he', rfl⟩ := List.mem_map.mp he
      have hfixed := List.map_inj_left.mp (h.trans (List.map_id' entries).symm) e' he'
      have hkey : g e'.1 = e'.1 := congrArg Prod.fst hfixed
      have hvalue : map f g e'.2 = e'.2 := congrArg Prod.snd hfixed
      exact Prod.ext hkey (ih e' he' hvalue)

/-! ## What the order of entries does not change -/

theorem mem_scalars_sort (v : Json Scalar Key) (s : Scalar) : s ∈ scalars (sort v) ↔ s ∈ scalars v := by
  induction v using induction with
  | scalar s' => rw [sort]
  | arr items ih =>
      rw [sort, scalars, scalars, mem_itemsScalars, mem_itemsScalars, sortItems_eq]
      constructor
      · rintro ⟨_, hsorted, hs⟩
        obtain ⟨v, hv, rfl⟩ := List.mem_map.mp hsorted
        exact ⟨v, hv, (ih v hv).mp hs⟩
      · rintro ⟨v, hv, hs⟩
        exact ⟨sort v, List.mem_map_of_mem hv, (ih v hv).mpr hs⟩
  | obj entries ih =>
      rw [sort, scalars, scalars, mem_entriesScalars, mem_entriesScalars, sortEntries_eq]
      constructor
      · rintro ⟨_, hsorted, hs⟩
        obtain ⟨e, he, rfl⟩ := List.mem_map.mp ((List.mem_insertionSort _).mp hsorted)
        exact ⟨e, he, (ih e he).mp hs⟩
      · rintro ⟨e, he, hs⟩
        exact ⟨(e.1, sort e.2), (List.mem_insertionSort _).mpr (List.mem_map_of_mem he),
          (ih e he).mpr hs⟩

theorem mem_keys_sort (v : Json Scalar Key) (k : Key) : k ∈ keys (sort v) ↔ k ∈ keys v := by
  induction v using induction with
  | scalar s => rw [sort]
  | arr items ih =>
      rw [sort, keys, keys, mem_itemsKeys, mem_itemsKeys, sortItems_eq]
      constructor
      · rintro ⟨_, hsorted, hk⟩
        obtain ⟨v, hv, rfl⟩ := List.mem_map.mp hsorted
        exact ⟨v, hv, (ih v hv).mp hk⟩
      · rintro ⟨v, hv, hk⟩
        exact ⟨sort v, List.mem_map_of_mem hv, (ih v hv).mpr hk⟩
  | obj entries ih =>
      rw [sort, keys, keys, mem_entriesKeys, mem_entriesKeys, sortEntries_eq]
      constructor
      · rintro ⟨_, hsorted, hk⟩
        obtain ⟨e, he, rfl⟩ := List.mem_map.mp ((List.mem_insertionSort _).mp hsorted)
        exact ⟨e, he, hk.imp id (ih e he).mp⟩
      · rintro ⟨e, he, hk⟩
        exact ⟨(e.1, sort e.2), (List.mem_insertionSort _).mpr (List.mem_map_of_mem he),
          hk.imp id (ih e he).mpr⟩

theorem distinct_sort_iff (v : Json Scalar Key) : Distinct (sort v) ↔ Distinct v := by
  induction v using induction with
  | scalar s => rw [sort]
  | arr items ih =>
      rw [sort, sortItems_eq]
      constructor
      · intro h
        cases h with
        | arr h => exact .arr fun v hv => (ih v hv).mp (h _ (List.mem_map_of_mem hv))
      · intro h
        cases h with
        | arr h =>
            refine .arr fun _ hsorted => ?_
            obtain ⟨v, hv, rfl⟩ := List.mem_map.mp hsorted
            exact (ih v hv).mpr (h v hv)
  | obj entries ih =>
      rw [sort]
      have hkeys : (((sortEntries entries).insertionSort fun e e' => e.1 ≤ e'.1).map
          Prod.fst).Nodup ↔ (entries.map Prod.fst).Nodup := by
        rw [← map_fst_sortEntries entries]
        exact ((List.perm_insertionSort _ _).map _).nodup_iff
      rw [sortEntries_eq] at hkeys ⊢
      constructor
      · intro h
        cases h with
        | obj hunique h =>
            refine .obj (hkeys.mp hunique) fun e he => (ih e he).mp ?_
            exact h (e.1, sort e.2) ((List.mem_insertionSort _).mpr (List.mem_map_of_mem he))
      · intro h
        cases h with
        | obj hunique h =>
            refine .obj (hkeys.mpr hunique) fun _ hsorted => ?_
            obtain ⟨e, he, rfl⟩ := List.mem_map.mp ((List.mem_insertionSort _).mp hsorted)
            exact (ih e he).mpr (h e he)

variable {v w : Json Scalar Key}

/-- What is the same as a value with distinct keys has distinct keys. -/
theorem Same.distinct (h : Same v w) (hv : Distinct v) : Distinct w := by
  rw [← distinct_sort_iff, ← sort_eq_of_same h hv, distinct_sort_iff]
  exact hv

theorem Same.mem_scalars_iff (h : Same v w) (hv : Distinct v) (s : Scalar) :
    s ∈ scalars v ↔ s ∈ scalars w := by
  rw [← mem_scalars_sort, sort_eq_of_same h hv, mem_scalars_sort]

end Json
