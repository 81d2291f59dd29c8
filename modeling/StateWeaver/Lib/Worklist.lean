import Mathlib

/-!
# Loops with a variant and worklists

A loop has a body that goes on with another state or ends with a result, and a variant that gets smaller with
every iteration. So it ends from every state, after no more iterations than the variant says.

What is reached from some roots along edges is collected by a loop that keeps what it still has to look at. The loop
skips what it has seen and otherwise goes on with what follows, so nothing is lost between the two lists
(`Explores`), and when nothing is left to look at, it has seen exactly what is reached. A cycle does no harm: each
item is expanded once, so a weight goes down (`weight_visit`).
-/

/-- A `while` loop. -/
structure Loop (σ α : Type*) where
  body : σ → σ ⊕ α
  variant : σ → Nat
  decreases : ∀ {s s'}, body s = .inl s' → variant s' < variant s

namespace Loop

variable {σ α : Type*} (L : Loop σ α)

/-- What the loop ends with. -/
def run (s : σ) : α :=
  match _h : L.body s with
  | .inl s' => run s'
  | .inr a => a
termination_by L.variant s
decreasing_by exact L.decreases _h

/-- The state after some iterations, or the result of a loop that has ended by then. -/
def after : Nat → σ → σ ⊕ α
  | 0, s => .inl s
  | n + 1, s =>
      match L.body s with
      | .inl s' => after n s'
      | .inr a => .inr a

variable {L} {s s' : σ} {a : α}

theorem run_of_inl (h : L.body s = .inl s') : L.run s = L.run s' := by
  rw [run]
  split
  · next s'' heq => rw [Sum.inl.inj (heq.symm.trans h)]
  · next heq => cases heq.symm.trans h

theorem run_of_inr (h : L.body s = .inr a) : L.run s = a := by
  rw [run]
  split
  · next heq => cases heq.symm.trans h
  · next b heq => exact Sum.inr.inj (heq.symm.trans h)

/-- A loop that has ended after some iterations has ended with what it ends with. -/
theorem run_of_after {n : Nat} (h : L.after n s = .inr a) : L.run s = a := by
  induction n generalizing s with
  | zero => cases h
  | succ n ih =>
      rw [after] at h
      cases hbody : L.body s with
      | inl s' =>
          rw [hbody] at h
          rw [run_of_inl hbody]
          exact ih h
      | inr b =>
          rw [hbody] at h
          cases h
          exact run_of_inr hbody

variable (L s)

/-- The loop ends after one iteration more than its variant at most. -/
theorem exists_after : ∃ n ≤ L.variant s + 1, L.after n s = .inr (L.run s) := by
  fun_induction run L s with
  | case1 s s' h ih =>
      obtain ⟨n, hn, hafter⟩ := ih
      have hless := L.decreases h
      refine ⟨n + 1, by omega, ?_⟩
      rw [after, h]
      exact hafter
  | case2 s a h =>
      refine ⟨1, Nat.le_add_left 1 _, ?_⟩
      rw [after, h]

variable {L s}

/-- What the body preserves holds when the loop ends. -/
theorem run_invariant {P : σ → Prop} {Q : α → Prop} (hstart : P s)
    (hstep : ∀ s s', P s → L.body s = .inl s' → P s') (hend : ∀ s a, P s → L.body s = .inr a → Q a) :
    Q (L.run s) := by
  fun_induction run L s with
  | case1 s s' h ih => exact ih (hstep s s' hstart h)
  | case2 s a h => exact hend s a hstart h

end Loop

namespace Worklist

variable {κ : Type} {root : κ → Prop} {edge : κ → κ → Prop}

/-- What is reached from the roots along edges. -/
inductive Reached (root : κ → Prop) (edge : κ → κ → Prop) : κ → Prop
  | root {k : κ} (h : root k) : Reached root edge k
  | edge {k l : κ} (hk : Reached root edge k) (h : edge k l) : Reached root edge l

/-- It is the least set that has the roots and is closed along edges. -/
theorem isLeast_reached : IsLeast {s : Set κ | (∀ k, root k → k ∈ s) ∧ ∀ k ∈ s, ∀ l, edge k l → l ∈ s}
    {k | Reached root edge k} := by
  refine ⟨⟨fun k hk => .root hk, fun k hk l hl => .edge hk hl⟩, fun s hs k hk => ?_⟩
  induction hk with
  | root h => exact hs.1 _ h
  | edge _ h ih => exact hs.2 _ ih _ h

theorem Reached.congr {root' : κ → Prop} {edge' : κ → κ → Prop} (hroot : ∀ k, root k → root' k)
    (hedge : ∀ k l, edge k l → edge' k l) {k : κ} (h : Reached root edge k) : Reached root' edge' k := by
  induction h with
  | root h => exact .root (hroot _ h)
  | edge _ h ih => exact .edge ih (hedge _ _ h)

/-! ## The invariant of the loop -/

/-- What is to be looked at and what was looked at are together on the way to what is reached. -/
structure Explores (root : κ → Prop) (edge : κ → κ → Prop) (pending visited : List κ) : Prop where
  sound : ∀ k, k ∈ pending ∨ k ∈ visited → Reached root edge k
  roots : ∀ k, root k → k ∈ pending ∨ k ∈ visited
  closed : ∀ k ∈ visited, ∀ l, edge k l → l ∈ pending ∨ l ∈ visited

variable {pending visited : List κ} {k : κ}

theorem Explores.start (h : ∀ k, root k ↔ k ∈ pending) : Explores root edge pending [] where
  sound k hk := .root ((h k).mpr (hk.resolve_right List.not_mem_nil))
  roots k hk := Or.inl ((h k).mp hk)
  closed _ hk := absurd hk List.not_mem_nil

/-- What was looked at is not looked at again. -/
theorem Explores.skip (h : Explores root edge (k :: pending) visited) (hk : k ∈ visited) :
    Explores root edge pending visited := by
  have hmove : ∀ l, l ∈ k :: pending ∨ l ∈ visited → l ∈ pending ∨ l ∈ visited := by
    rintro l (hl | hl)
    · rcases List.mem_cons.mp hl with rfl | hl
      · exact Or.inr hk
      · exact Or.inl hl
    · exact Or.inr hl
  exact ⟨fun l hl => h.sound l (hl.imp_left (List.mem_cons_of_mem k)), fun l hl => hmove l (h.roots l hl),
    fun l hl m hm => hmove m (h.closed l hl m hm)⟩

/-- Looking at something puts what follows it on the list. -/
theorem Explores.visit (h : Explores root edge (k :: pending) visited) {next : List κ}
    (hnext : ∀ l, edge k l ↔ l ∈ next) : Explores root edge (next.reverse ++ pending) (k :: visited) := by
  have hmove : ∀ l, l ∈ k :: pending ∨ l ∈ visited → l ∈ next.reverse ++ pending ∨ l ∈ k :: visited := by
    rintro l (hl | hl)
    · rcases List.mem_cons.mp hl with rfl | hl
      · exact Or.inr List.mem_cons_self
      · exact Or.inl (List.mem_append_right _ hl)
    · exact Or.inr (List.mem_cons_of_mem k hl)
  have hreached := h.sound k (Or.inl List.mem_cons_self)
  refine ⟨fun l hl => ?_, fun l hl => hmove l (h.roots l hl), fun l hl m hm => ?_⟩
  · rcases hl with hl | hl
    · rcases List.mem_append.mp hl with hl | hl
      · exact .edge hreached ((hnext l).mpr (List.mem_reverse.mp hl))
      · exact h.sound l (Or.inl (List.mem_cons_of_mem k hl))
    · rcases List.mem_cons.mp hl with rfl | hl
      · exact hreached
      · exact h.sound l (Or.inr hl)
  · rcases List.mem_cons.mp hl with rfl | hl
    · exact Or.inl (List.mem_append_left _ (List.mem_reverse.mpr ((hnext m).mp hm)))
    · exact hmove m (h.closed l hl m hm)

/-- When nothing is left, everything that is reached was looked at. -/
theorem Explores.mem_iff (h : Explores root edge [] visited) : k ∈ visited ↔ Reached root edge k := by
  refine ⟨fun hk => h.sound k (Or.inr hk), fun hk => ?_⟩
  induction hk with
  | root hroot => exact (h.roots _ hroot).resolve_left List.not_mem_nil
  | edge _ hedge ih => exact (h.closed _ ih _ hedge).resolve_left List.not_mem_nil

/-! ## The variant of the loop -/

section Weight

variable [DecidableEq κ] (size : κ → ℕ)

/-- What is left to do: the items that were not looked at, with what follows them, and the list. -/
def weight (all pending visited : List κ) : ℕ :=
  ((all.filter (· ∉ visited)).map fun k => size k + 1).sum + pending.length

theorem weight_nil (all pending : List κ) :
    weight size all pending [] = (all.map fun k => size k + 1).sum + pending.length := by
  have hall : all.filter (· ∉ ([] : List κ)) = all :=
    List.filter_eq_self.mpr fun _ _ => decide_eq_true List.not_mem_nil
  rw [weight, hall]

theorem sum_filter_lt {all : List κ} (hk : k ∈ all) (hfresh : k ∉ visited) :
    ((all.filter (· ∉ k :: visited)).map fun k => size k + 1).sum + size k + 1 ≤
      ((all.filter (· ∉ visited)).map fun k => size k + 1).sum := by
  induction all with
  | nil => cases hk
  | cons l all ih =>
      have hmono : ((all.filter (· ∉ k :: visited)).map fun k => size k + 1).sum ≤
          ((all.filter (· ∉ visited)).map fun k => size k + 1).sum := by
        refine List.Sublist.sum_le_sum (List.Sublist.map _ (List.monotone_filter_right all fun l hl => ?_))
          fun _ _ => Nat.zero_le _
        simp only [decide_eq_true_eq, List.mem_cons, not_or] at hl ⊢
        exact hl.2
      by_cases hl : l = k
      · subst hl
        rw [List.filter_cons_of_neg (by simp), List.filter_cons_of_pos (by simpa using hfresh), List.map_cons,
          List.sum_cons]
        omega
      · have hrest := ih ((List.mem_cons.mp hk).resolve_left (Ne.symm hl))
        by_cases hvisited : l ∈ visited
        · rw [List.filter_cons_of_neg (by simp [hvisited]), List.filter_cons_of_neg (by simp [hvisited])]
          exact hrest
        · rw [List.filter_cons_of_pos (by simp [hl, hvisited]), List.filter_cons_of_pos (by simp [hvisited]),
            List.map_cons, List.map_cons, List.sum_cons, List.sum_cons]
          omega

theorem weight_skip (all : List κ) : weight size all pending visited < weight size all (k :: pending) visited := by
  rw [weight, weight, List.length_cons]
  omega

/-- Looking at something new goes down, whatever follows it. -/
theorem weight_visit {all : List κ} (hk : k ∈ all) (hfresh : k ∉ visited) {next : List κ}
    (hsize : next.length ≤ size k) :
    weight size all (next.reverse ++ pending) (k :: visited) < weight size all (k :: pending) visited := by
  have hsum := sum_filter_lt size hk hfresh
  rw [weight, weight, List.length_append, List.length_reverse, List.length_cons]
  omega

end Weight

end Worklist
