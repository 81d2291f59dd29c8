import Mathlib
import StateWeaver.Lib.Imperative

/-!
# Loops that collect results

A loop that calls a function on each element of a list and collects the results, or raises the first
exception. What it collects from a rearranged list is rearranged in the same way.
-/

namespace Imp

variable {α β ε : Type} {f : α → Except ε β} {l l' : List α} {r : List β}

theorem mapM_cons_eq_ok {a : α} : (a :: l).mapM f = .ok r ↔
    ∃ b, f a = .ok b ∧ ∃ rest, l.mapM f = .ok rest ∧ r = b :: rest := by
  rw [List.mapM_cons, except_bind_eq_ok]
  refine exists_congr fun b => and_congr_right fun _ => ?_
  rw [except_bind_eq_ok]
  refine exists_congr fun rest => and_congr_right fun _ => ?_
  constructor
  · exact fun h => (Except.ok.inj h).symm
  · exact fun h => congrArg Except.ok h.symm

/-- What is collected is what the function returns for the elements. -/
theorem mem_of_mapM (h : l.mapM f = .ok r) {b : β} : b ∈ r ↔ ∃ a ∈ l, f a = .ok b := by
  refine ⟨exists_of_mem_mapM h, ?_⟩
  rintro ⟨a, ha, hb⟩
  induction l generalizing r with
  | nil => cases ha
  | cons a' l ih =>
      obtain ⟨b', hb', rest, hrest, rfl⟩ := mapM_cons_eq_ok.mp h
      rcases List.mem_cons.mp ha with rfl | ha
      · rw [hb', Except.ok.injEq] at hb
        exact hb ▸ List.mem_cons_self
      · exact List.mem_cons_of_mem _ (ih hrest ha)

/-- What is said about the results is said about the elements. -/
theorem map_of_mapM {γ : Type} {g : β → γ} {k : α → γ} (h : l.mapM f = .ok r)
    (hsame : ∀ a b, f a = .ok b → g b = k a) : r.map g = l.map k := by
  induction l generalizing r with
  | nil =>
      cases h
      rfl
  | cons a l ih =>
      obtain ⟨b, hb, rest, hrest, rfl⟩ := mapM_cons_eq_ok.mp h
      rw [List.map_cons, List.map_cons, hsame a b hb, ih hrest]

/-- Two functions that return alike for each element collect alike. -/
theorem map_eq_of_mapM {γ : Type} {g : α → Except ε β} {k : β → γ} {r' : List β} (h : l.mapM f = .ok r)
    (h' : l.mapM g = .ok r') (hsame : ∀ a b b', f a = .ok b → g a = .ok b' → k b = k b') : r.map k = r'.map k := by
  induction l generalizing r r' with
  | nil =>
      cases h
      cases h'
      rfl
  | cons a l ih =>
      obtain ⟨b, hb, rest, hrest, rfl⟩ := mapM_cons_eq_ok.mp h
      obtain ⟨b', hb', rest', hrest', rfl⟩ := mapM_cons_eq_ok.mp h'
      rw [List.map_cons, List.map_cons, hsame a b b' hb hb', ih hrest hrest']

theorem mapM_eq_map {g : α → β} (h : ∀ a ∈ l, f a = .ok (g a)) : l.mapM f = .ok (l.map g) := by
  induction l with
  | nil => rfl
  | cons a l ih =>
      obtain ⟨ha, hl⟩ := List.forall_mem_cons.mp h
      exact mapM_cons_eq_ok.mpr ⟨g a, ha, l.map g, ih hl, rfl⟩

/-- A loop collects exactly if the function returns for every element. -/
theorem exists_mapM : (∃ r, l.mapM f = .ok r) ↔ ∀ a ∈ l, ∃ b, f a = .ok b := by
  induction l with
  | nil => exact iff_of_true ⟨[], rfl⟩ (List.forall_mem_nil _)
  | cons a l ih =>
      rw [List.forall_mem_cons, ← ih]
      constructor
      · rintro ⟨r, h⟩
        obtain ⟨b, hb, rest, hrest, rfl⟩ := mapM_cons_eq_ok.mp h
        exact ⟨⟨b, hb⟩, rest, hrest⟩
      · rintro ⟨⟨b, hb⟩, rest, hrest⟩
        exact ⟨b :: rest, mapM_cons_eq_ok.mpr ⟨b, hb, rest, hrest, rfl⟩⟩

theorem mapM_of_perm (hperm : l.Perm l') (h : l.mapM f = .ok r) :
    ∃ r', l'.mapM f = .ok r' ∧ r.Perm r' := by
  induction hperm generalizing r with
  | nil => exact ⟨r, h, .refl r⟩
  | cons a _ ih =>
      obtain ⟨b, hb, rest, hrest, rfl⟩ := mapM_cons_eq_ok.mp h
      obtain ⟨rest', hrest', hperm⟩ := ih hrest
      exact ⟨b :: rest', mapM_cons_eq_ok.mpr ⟨b, hb, rest', hrest', rfl⟩, hperm.cons b⟩
  | swap a a' l =>
      obtain ⟨b', hb', rest', hrest', rfl⟩ := mapM_cons_eq_ok.mp h
      obtain ⟨b, hb, rest, hrest, rfl⟩ := mapM_cons_eq_ok.mp hrest'
      refine ⟨b :: b' :: rest, ?_, .swap b b' rest⟩
      exact mapM_cons_eq_ok.mpr ⟨b, hb, _, mapM_cons_eq_ok.mpr ⟨b', hb', rest, hrest, rfl⟩, rfl⟩
  | trans _ _ ih ih' =>
      obtain ⟨r₁, h₁, hperm₁⟩ := ih h
      obtain ⟨r₂, h₂, hperm₂⟩ := ih' h₁
      exact ⟨r₂, h₂, hperm₁.trans hperm₂⟩

/-- A loop over parts collects what a loop over all their elements does. -/
theorem mapM_flatMap_eq_ok {γ : Type} {g : γ → List α} {k : List γ} : (k.flatMap g).mapM f = .ok r ↔
    ∃ parts, k.mapM (fun c => (g c).mapM f) = .ok parts ∧ r = parts.flatten := by
  induction k generalizing r with
  | nil =>
      constructor
      · intro h
        exact ⟨[], rfl, (Except.ok.inj h).symm⟩
      · rintro ⟨parts, hparts, rfl⟩
        cases hparts
        rfl
  | cons c k ih =>
      rw [List.flatMap_cons, List.mapM_append, except_bind_eq_ok]
      constructor
      · rintro ⟨first, hfirst, h⟩
        obtain ⟨rest, hrest, h⟩ := except_bind_eq_ok.mp h
        obtain ⟨parts, hparts, rfl⟩ := ih.mp hrest
        exact ⟨first :: parts, mapM_cons_eq_ok.mpr ⟨first, hfirst, parts, hparts, rfl⟩, (Except.ok.inj h).symm⟩
      · rintro ⟨parts, h, rfl⟩
        obtain ⟨first, hfirst, parts, hparts, rfl⟩ := mapM_cons_eq_ok.mp h
        exact ⟨first, hfirst, except_bind_eq_ok.mpr ⟨_, ih.mpr ⟨parts, hparts, rfl⟩, rfl⟩⟩

end Imp
