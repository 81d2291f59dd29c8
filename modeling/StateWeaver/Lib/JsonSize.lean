import StateWeaver.Lib.Json

/-!
# The size of JSON values

How deep the containers of a value are nested, and how many values and keys it has. Neither depends on the order of
the entries of an object.
-/

namespace Json

variable {Scalar Key : Type}

/-- Whether at most so many containers are nested in a value, itself among them. -/
inductive Nested : ℕ → Json Scalar Key → Prop
  | scalar {depth : ℕ} (s : Scalar) : Nested depth (.scalar s)
  | arr {depth : ℕ} {items : List (Json Scalar Key)} : (∀ v ∈ items, Nested depth v) → Nested (depth + 1) (.arr items)
  | obj {depth : ℕ} {entries : List (Key × Json Scalar Key)} :
      (∀ e ∈ entries, Nested depth e.2) → Nested (depth + 1) (.obj entries)

mutual

/-- The number of values and keys of a value, itself among them. -/
def nodes : Json Scalar Key → ℕ
  | .scalar _ => 1
  | .arr items => itemsNodes items + 1
  | .obj entries => entriesNodes entries + 1

def itemsNodes : List (Json Scalar Key) → ℕ
  | [] => 0
  | v :: items => nodes v + itemsNodes items

def entriesNodes : List (Key × Json Scalar Key) → ℕ
  | [] => 0
  | (_, v) :: entries => 1 + nodes v + entriesNodes entries

end

theorem itemsNodes_eq (items : List (Json Scalar Key)) : itemsNodes items = (items.map nodes).sum := by
  induction items with
  | nil => rfl
  | cons v items ih => rw [itemsNodes, ih, List.map_cons, List.sum_cons]

theorem entriesNodes_eq (entries : List (Key × Json Scalar Key)) :
    entriesNodes entries = (entries.map fun e => 1 + nodes e.2).sum := by
  induction entries with
  | nil => rfl
  | cons e entries ih => rw [entriesNodes, ih, List.map_cons, List.sum_cons]

theorem nodes_pos (v : Json Scalar Key) : 0 < nodes v := by
  cases v <;> rw [nodes] <;> omega

/-! ## Order does not matter -/

variable [LinearOrder Key]

theorem nodes_sort (v : Json Scalar Key) : nodes (sort v) = nodes v := by
  induction v using induction with
  | scalar s => rfl
  | arr items ih =>
      rw [sort, nodes, nodes, sortItems_eq, itemsNodes_eq, itemsNodes_eq, List.map_map,
        List.map_congr_left (f := nodes ∘ sort) fun v hv => ih v hv]
  | obj entries ih =>
      have hsum := ((List.perm_insertionSort (fun e e' => e.1 ≤ e'.1) (sortEntries entries)).map
        fun e => 1 + nodes e.2).sum_nat
      rw [sort, nodes, nodes, entriesNodes_eq, entriesNodes_eq, hsum, sortEntries_eq, List.map_map]
      refine congrArg (fun l => l.sum + 1) (List.map_congr_left fun e he => ?_)
      exact congrArg (1 + ·) (ih e he)

theorem nested_sort_iff {depth : ℕ} (v : Json Scalar Key) : Nested depth (sort v) ↔ Nested depth v := by
  induction v using induction generalizing depth with
  | scalar s => rw [sort]
  | arr items ih =>
      rw [sort, sortItems_eq]
      constructor
      · rintro ⟨⟩
        next depth h => exact .arr fun v hv => (ih v hv).mp (h _ (List.mem_map_of_mem hv))
      · rintro ⟨⟩
        next depth h =>
          refine .arr fun _ hsorted => ?_
          obtain ⟨v, hv, rfl⟩ := List.mem_map.mp hsorted
          exact (ih v hv).mpr (h v hv)
  | obj entries ih =>
      rw [sort, sortEntries_eq]
      constructor
      · rintro ⟨⟩
        next depth h =>
          refine .obj fun e he => (ih e he).mp ?_
          exact h (e.1, sort e.2) ((List.mem_insertionSort _).mpr (List.mem_map_of_mem he))
      · rintro ⟨⟩
        next depth h =>
          refine .obj fun _ hsorted => ?_
          obtain ⟨e, he, rfl⟩ := List.mem_map.mp ((List.mem_insertionSort _).mp hsorted)
          exact (ih e he).mpr (h e he)

end Json
