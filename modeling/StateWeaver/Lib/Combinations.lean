import Mathlib

/-!
# Combinations

`combinations k l` lists the ways to choose `k` elements of `l` without changing their order, those
with the earlier elements first.
-/

namespace List

variable {α : Type*}

/-- The sublists of a given length, in lexicographic order of the positions. -/
def combinations : Nat → List α → List (List α)
  | 0, _ => [[]]
  | _ + 1, [] => []
  | k + 1, a :: l => (combinations k l).map (a :: ·) ++ combinations (k + 1) l

theorem mem_combinations {k : Nat} {l c : List α} :
    c ∈ combinations k l ↔ c.Sublist l ∧ c.length = k := by
  induction l generalizing k c with
  | nil =>
      cases k with
      | zero => simp [combinations]
      | succ k =>
          constructor
          · intro h
            cases h
          · rintro ⟨hsub, hlength⟩
            rw [List.sublist_nil.mp hsub] at hlength
            cases hlength
  | cons a l ih =>
      cases k with
      | zero =>
          rw [combinations, List.mem_singleton]
          constructor
          · rintro rfl
            exact ⟨List.nil_sublist _, rfl⟩
          · rintro ⟨-, hlength⟩
            exact List.eq_nil_of_length_eq_zero hlength
      | succ k =>
          rw [combinations, List.mem_append, List.mem_map, ih]
          constructor
          · rintro (⟨c', hc', rfl⟩ | ⟨hsub, hlength⟩)
            · obtain ⟨hsub, hlength⟩ := ih.mp hc'
              exact ⟨hsub.cons_cons a, congrArg Nat.succ hlength⟩
            · exact ⟨hsub.cons a, hlength⟩
          · rintro ⟨hsub, hlength⟩
            cases hsub with
            | cons _ hsub => exact Or.inr ⟨hsub, hlength⟩
            | cons_cons _ hsub =>
                exact Or.inl ⟨_, ih.mpr ⟨hsub, Nat.succ.inj hlength⟩, rfl⟩

end List
