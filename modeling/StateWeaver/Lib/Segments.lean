import Mathlib

/-!
# Texts of separated segments

A text in which every segment follows a separator. `splitOn` takes such a text apart, and
`removeDots` resolves the segments that mean "here" and "one up", as a client does before it sends a
path. A text that this changes gets shorter, and loses a separator unless only its last segment was
concerned.
-/

namespace Segments

variable {α : Type*}

/-- Every segment behind a separator. -/
def join (x : α) (segments : List (List α)) : List α := segments.flatMap (x :: ·)

/-! ## Lengths -/

/-- How long the joined text is. -/
def weight (segments : List (List α)) : ℕ := (segments.map fun s => s.length + 1).sum

theorem length_join (x : α) (segments : List (List α)) : (join x segments).length = weight segments := by
  rw [join, List.length_flatMap, weight]
  rfl

theorem weight_cons (s : List α) (segments : List (List α)) :
    weight (s :: segments) = s.length + 1 + weight segments := by
  rw [weight, weight, List.map_cons, List.sum_cons]

theorem weight_reverse (segments : List (List α)) : weight segments.reverse = weight segments := by
  rw [weight, weight, List.map_reverse, List.sum_reverse]

theorem weight_tail_le (segments : List (List α)) : weight segments.tail ≤ weight segments := by
  cases segments with
  | nil => exact Nat.le_refl _
  | cons s rest =>
      rw [List.tail_cons, weight_cons]
      omega

/-! ## Splitting -/

section Split

variable [DecidableEq α] {x : α}

theorem join_splitOn (text : List α) : join x (text.splitOn x) = x :: text := by
  induction text with
  | nil => rfl
  | cons c text ih =>
      rw [List.splitOn_cons_eq_if_modifyHead]
      split
      · next hc =>
          rw [join, List.flatMap_cons, beq_iff_eq.mp hc]
          exact congrArg (x :: ·) ih
      · obtain ⟨s, ss, hsplit⟩ := List.exists_cons_of_ne_nil (List.splitOn_ne_nil x text)
        rw [hsplit] at ih ⊢
        rw [List.modifyHead_cons, join, List.flatMap_cons]
        rw [join, List.flatMap_cons] at ih
        exact congrArg (fun l => x :: c :: l) (List.cons_injective ih)

theorem not_mem_of_mem_splitOn {text s : List α} (h : s ∈ text.splitOn x) : x ∉ s := by
  induction text generalizing s with
  | nil =>
      rw [List.splitOn_nil, List.mem_singleton] at h
      rw [h]
      exact List.not_mem_nil
  | cons c text ih =>
      rw [List.splitOn_cons_eq_if_modifyHead] at h
      split at h
      · rcases List.mem_cons.mp h with rfl | h
        · exact List.not_mem_nil
        · exact ih h
      · next hc =>
          obtain ⟨s', ss, hsplit⟩ := List.exists_cons_of_ne_nil (List.splitOn_ne_nil x text)
          rw [hsplit] at ih h
          rw [List.modifyHead_cons] at h
          rcases List.mem_cons.mp h with rfl | h
          · refine fun hx => (List.mem_cons.mp hx).elim (fun heq => hc ?_) (ih List.mem_cons_self)
            rw [heq]
            exact beq_self_eq_true c
          · exact ih (List.mem_cons_of_mem s' h)

/-- Splitting a joined text gives the segments back. -/
theorem splitOn_join {segments : List (List α)} (h : ∀ s ∈ segments, x ∉ s) :
    (join x segments).splitOn x = [] :: segments := by
  cases segments with
  | nil => rfl
  | cons s ss =>
      have htail := join_splitOn (x := x) ([x].intercalate (s :: ss))
      rw [List.splitOn_intercalate x h (List.cons_ne_nil s ss)] at htail
      rw [htail, List.splitOn_cons_eq_if_modifyHead, if_pos (beq_self_eq_true x),
        List.splitOn_intercalate x h (List.cons_ne_nil s ss)]

/-- A text of segments without separators tells its segments. -/
theorem eq_of_join_eq {segments segments' : List (List α)} (h : ∀ s ∈ segments, x ∉ s)
    (h' : ∀ s ∈ segments', x ∉ s) (heq : join x segments = join x segments') :
    segments = segments' := by
  have hsplit := splitOn_join h
  rw [heq, splitOn_join h'] at hsplit
  exact (List.cons_injective hsplit).symm

/-- What is in a segment is in the text. -/
theorem mem_of_mem_splitOn {text s : List α} {c : α} (h : s ∈ text.splitOn x) (hc : c ∈ s) :
    c ∈ text := by
  have hjoin : c ∈ join x (text.splitOn x) := by
    rw [join, List.mem_flatMap]
    exact ⟨s, h, List.mem_cons_of_mem x hc⟩
  rw [join_splitOn] at hjoin
  refine (List.mem_cons.mp hjoin).resolve_left ?_
  rintro rfl
  exact not_mem_of_mem_splitOn h hc

end Split

/-! ## Dot segments -/

/-- What resolving the dot segments does to the length of the text, to the number of its segments and,
if it keeps that number, to its last segment. -/
structure Shrinks (before after : List (List α)) : Prop where
  weight : Segments.weight after < Segments.weight before
  length : after.length ≤ before.length
  last : after.length = before.length →
    after.getLast? = some [] ∧ before.getLast? ≠ some []

section Dots

variable [DecidableEq α] (here up : List α)

/-- Resolve the dot segments; `out` holds, in reverse, the segments that stay so far. -/
def removeDots (out : List (List α)) : List (List α) → List (List α)
  | [] => out.reverse
  | s :: rest =>
      if s = here then if rest = [] then ([] :: out).reverse else removeDots out rest
      else if s = up then if rest = [] then ([] :: out.tail).reverse else removeDots out.tail rest
      else removeDots (s :: out) rest

variable {here up} {x : α}

/-- Without dot segments, nothing changes. -/
theorem removeDots_eq {segments : List (List α)} (h : ∀ s ∈ segments, s ≠ here ∧ s ≠ up)
    (out : List (List α)) : removeDots here up out segments = out.reverse ++ segments := by
  induction segments generalizing out with
  | nil => exact (List.append_nil _).symm
  | cons s rest ih =>
      obtain ⟨⟨hhere, hup⟩, hrest⟩ := List.forall_mem_cons.mp h
      rw [removeDots, if_neg hhere, if_neg hup, ih hrest, List.reverse_cons, List.append_assoc]
      rfl

/-- Only segments of the text and the empty segment stay. -/
theorem mem_of_mem_removeDots {segments out : List (List α)} {s : List α}
    (h : s ∈ removeDots here up out segments) : s = [] ∨ s ∈ out ∨ s ∈ segments := by
  induction segments generalizing out with
  | nil => exact Or.inr (Or.inl (List.mem_reverse.mp h))
  | cons a rest ih =>
      rw [removeDots] at h
      split at h
      · split at h
        · rcases List.mem_cons.mp (List.mem_reverse.mp h) with h | h
          · exact Or.inl h
          · exact Or.inr (Or.inl h)
        · exact (ih h).imp_right (Or.imp_right (List.mem_cons_of_mem a))
      · split at h
        · split at h
          · rcases List.mem_cons.mp (List.mem_reverse.mp h) with h | h
            · exact Or.inl h
            · exact Or.inr (Or.inl (List.mem_of_mem_tail h))
          · rcases ih h with h | h | h
            · exact Or.inl h
            · exact Or.inr (Or.inl (List.mem_of_mem_tail h))
            · exact Or.inr (Or.inr (List.mem_cons_of_mem a h))
        · rcases ih h with h | h | h
          · exact Or.inl h
          · rcases List.mem_cons.mp h with rfl | h
            · exact Or.inr (Or.inr List.mem_cons_self)
            · exact Or.inr (Or.inl h)
          · exact Or.inr (Or.inr (List.mem_cons_of_mem a h))

/-- What is left is not empty. -/
theorem removeDots_ne_nil {segments out : List (List α)} (h : segments ≠ []) :
    removeDots here up out segments ≠ [] := by
  induction segments generalizing out with
  | nil => exact absurd rfl h
  | cons s rest ih =>
      rw [removeDots]
      by_cases hrest : rest = []
      · subst hrest
        simp only [if_true, removeDots, List.reverse_cons]
        split_ifs <;> exact List.append_ne_nil_of_right_ne_nil _ (List.cons_ne_nil _ _)
      · simp only [if_neg hrest]
        split_ifs <;> exact ih hrest

theorem length_removeDots_le (here up : List α) (segments out : List (List α)) :
    (removeDots here up out segments).length ≤ out.length + segments.length ∧
      weight (removeDots here up out segments) ≤ weight out + weight segments := by
  induction segments generalizing out with
  | nil =>
      rw [removeDots, List.length_reverse, weight_reverse]
      exact ⟨Nat.le_add_right _ _, Nat.le_add_right _ _⟩
  | cons s rest ih =>
      have htail := weight_tail_le out
      have htailLength := List.length_tail (l := out)
      rw [removeDots, weight_cons, List.length_cons]
      split
      · split
        · rw [List.length_reverse, weight_reverse, weight_cons, List.length_cons, List.length_nil]
          omega
        · have h := ih out
          omega
      · split
        · split
          · rw [List.length_reverse, weight_reverse, weight_cons, List.length_cons, List.length_nil]
            omega
          · have h := ih out.tail
            omega
        · have h := ih (s :: out)
          rw [weight_cons, List.length_cons] at h
          omega

/-- With a dot segment, the text shrinks. -/
theorem shrinks_removeDots (hhere : here ≠ []) (hup : up ≠ []) {segments : List (List α)}
    (h : ∃ s ∈ segments, s = here ∨ s = up) (out : List (List α)) :
    Shrinks (out.reverse ++ segments) (removeDots here up out segments) := by
  have hsplit : ∀ l : List (List α), weight (out.reverse ++ l) = weight out + weight l := by
    intro l
    rw [weight, List.map_append, List.sum_append, ← weight, ← weight, weight_reverse]
  have hhereLength := List.length_pos_iff.mpr hhere
  have hupLength := List.length_pos_iff.mpr hup
  induction segments generalizing out with
  | nil =>
      obtain ⟨s, hs, -⟩ := h
      cases hs
  | cons s rest ih =>
      have htail := weight_tail_le out
      have htailLength := List.length_tail (l := out)
      rw [removeDots]
      by_cases hs : s = here
      · rw [if_pos hs]
        by_cases hrest : rest = []
        · rw [if_pos hrest, hrest, hs]
          refine ⟨?_, ?_, fun _ => ⟨?_, ?_⟩⟩
          · rw [hsplit, weight_reverse, weight_cons, weight_cons, List.length_nil]
            omega
          · rw [List.length_reverse, List.length_append, List.length_reverse]
            exact Nat.le_refl _
          · rw [List.reverse_cons, List.getLast?_concat]
          · rw [List.getLast?_concat, ne_eq, Option.some.injEq]
            exact hhere
        · rw [if_neg hrest]
          obtain ⟨hlength, hweight⟩ := length_removeDots_le here up rest out
          refine ⟨?_, ?_, fun heq => ?_⟩
          · rw [hsplit, weight_cons]
            omega
          · rw [List.length_append, List.length_reverse, List.length_cons]
            omega
          · rw [List.length_append, List.length_reverse, List.length_cons] at heq
            omega
      · rw [if_neg hs]
        by_cases hs' : s = up
        · rw [if_pos hs']
          by_cases hrest : rest = []
          · rw [if_pos hrest, hrest, hs']
            refine ⟨?_, ?_, fun _ => ⟨?_, ?_⟩⟩
            · rw [hsplit, weight_reverse, weight_cons, weight_cons, List.length_nil]
              omega
            · rw [List.length_reverse, List.length_append, List.length_reverse, List.length_cons,
                List.length_cons]
              omega
            · rw [List.reverse_cons, List.getLast?_concat]
            · rw [List.getLast?_concat, ne_eq, Option.some.injEq]
              exact hup
          · rw [if_neg hrest]
            obtain ⟨hlength, hweight⟩ := length_removeDots_le here up rest out.tail
            refine ⟨?_, ?_, fun heq => ?_⟩
            · rw [hsplit, weight_cons]
              omega
            · rw [List.length_append, List.length_reverse, List.length_cons]
              omega
            · rw [List.length_append, List.length_reverse, List.length_cons] at heq
              omega
        · rw [if_neg hs']
          have hmore : ∃ s ∈ rest, s = here ∨ s = up := by
            obtain ⟨s', hmem, hdot⟩ := h
            rcases List.mem_cons.mp hmem with rfl | hmem
            · exact absurd hdot (not_or.mpr ⟨hs, hs'⟩)
            · exact ⟨s', hmem, hdot⟩
          have hshrinks := ih hmore (s :: out) fun l => by
            rw [weight, List.map_append, List.sum_append, ← weight, ← weight, weight_reverse]
          rw [List.reverse_cons, List.append_assoc] at hshrinks
          exact hshrinks

end Dots

end Segments
