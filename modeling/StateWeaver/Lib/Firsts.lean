import Mathlib

/-!
# The first elements of their keys

A list is split into the elements that are the first ones with their key and the others. In a list that
is ordered by a relation, the first elements are those before all others of their key.
-/

namespace List

variable {α κ : Type} [DecidableEq κ] (key : α → κ)

/-- The elements whose key was not seen before. -/
def firstsFrom (seen : List κ) : List α → List α
  | [] => []
  | a :: l => if key a ∈ seen then firstsFrom seen l else a :: firstsFrom (seen ++ [key a]) l

/-- The elements whose key was seen before. -/
def repeatsFrom (seen : List κ) : List α → List α
  | [] => []
  | a :: l => if key a ∈ seen then a :: repeatsFrom seen l else repeatsFrom (seen ++ [key a]) l

variable {key} {seen : List κ} {l : List α} {a : α}

theorem firstsFrom_sublist : List.Sublist (firstsFrom key seen l) l := by
  induction l generalizing seen with
  | nil => exact Sublist.slnil
  | cons b l ih =>
      rw [firstsFrom]
      split_ifs
      · exact ih.cons b
      · exact ih.cons_cons b

theorem repeatsFrom_sublist : List.Sublist (repeatsFrom key seen l) l := by
  induction l generalizing seen with
  | nil => exact Sublist.slnil
  | cons b l ih =>
      rw [repeatsFrom]
      split_ifs
      · exact ih.cons_cons b
      · exact ih.cons b

/-- An element is among the first ones or among the others. -/
theorem mem_firstsFrom_or_repeatsFrom (h : a ∈ l) :
    a ∈ firstsFrom key seen l ∨ a ∈ repeatsFrom key seen l := by
  induction l generalizing seen with
  | nil => cases h
  | cons b l ih =>
      rw [firstsFrom, repeatsFrom]
      rcases mem_cons.mp h with rfl | h
      · split_ifs
        · exact .inr mem_cons_self
        · exact .inl mem_cons_self
      · split_ifs
        · exact (ih h).imp_right (mem_cons_of_mem b)
        · exact (ih h).imp_left (mem_cons_of_mem b)

/-- The key of a first element was not seen before. -/
theorem notMem_seen_of_mem_firstsFrom (h : a ∈ firstsFrom key seen l) : key a ∉ seen := by
  induction l generalizing seen with
  | nil => cases h
  | cons b l ih =>
      rw [firstsFrom] at h
      split_ifs at h with hseen
      · exact ih h
      · rcases mem_cons.mp h with rfl | h
        · exact hseen
        · exact fun hmem => ih h (mem_append_left _ hmem)

variable {r : α → α → Prop}

/-- First elements have different keys. -/
theorem nodup_map_firstsFrom : ((firstsFrom key seen l).map key).Nodup := by
  induction l generalizing seen with
  | nil => exact nodup_nil
  | cons a l ih =>
      rw [firstsFrom]
      split_ifs
      · exact ih
      · refine nodup_cons.mpr ⟨fun hmem => ?_, ih⟩
        obtain ⟨b, hb, hkey⟩ := mem_map.mp hmem
        exact notMem_seen_of_mem_firstsFrom hb (hkey ▸ mem_append_right _ mem_cons_self)

/-- A first element is before the others with its key. -/
theorem before_of_mem_firstsFrom (hsorted : l.Pairwise r) (h : a ∈ firstsFrom key seen l) {b : α}
    (hb : b ∈ l) (hkey : key b = key a) (hne : b ≠ a) : r a b := by
  induction l generalizing seen with
  | nil => cases h
  | cons c l ih =>
      obtain ⟨hc, hsorted⟩ := pairwise_cons.mp hsorted
      rw [firstsFrom] at h
      split_ifs at h with hseen
      · rcases mem_cons.mp hb with rfl | hb
        · exact absurd (hkey ▸ hseen) (notMem_seen_of_mem_firstsFrom h)
        · exact ih hsorted h hb
      · rcases mem_cons.mp h with rfl | h
        · exact hc b ((mem_cons.mp hb).resolve_left hne)
        · rcases mem_cons.mp hb with rfl | hb
          · refine absurd (mem_append_right _ ?_) (notMem_seen_of_mem_firstsFrom h)
            rw [hkey]
            exact mem_cons_self
          · exact ih hsorted h hb

/-- An element that is not first comes after a first one with its key, or its key was seen before. -/
theorem exists_of_mem_repeatsFrom (hsorted : l.Pairwise r) (h : a ∈ repeatsFrom key seen l) :
    key a ∈ seen ∨ ∃ b ∈ firstsFrom key seen l, key b = key a ∧ r b a := by
  induction l generalizing seen with
  | nil => cases h
  | cons c l ih =>
      obtain ⟨hc, hsorted⟩ := pairwise_cons.mp hsorted
      rw [repeatsFrom] at h
      rw [firstsFrom]
      split_ifs at h ⊢ with hseen
      · rcases mem_cons.mp h with rfl | h
        · exact .inl hseen
        · exact ih hsorted h
      · rcases ih hsorted h with hmem | ⟨b, hb, hkey, hba⟩
        · rcases mem_append.mp hmem with hmem | hmem
          · exact .inl hmem
          · refine .inr ⟨c, mem_cons_self, (mem_singleton.mp hmem).symm, hc a ?_⟩
            exact repeatsFrom_sublist.subset h
        · exact .inr ⟨b, mem_cons_of_mem c hb, hkey, hba⟩

end List
