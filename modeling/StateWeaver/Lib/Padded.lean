import Mathlib

/-!
# Padded lists

A list of numbers stands for a sequence that ends in zeros, as the segments of a version do. The order of the
sequences is that of the lists unless two lists stand for one sequence: then the shorter list comes first
(`lt_iff`).
-/

namespace Padded

variable {α : Type*} [LinearOrder α] [OrderBot α]

/-- The sequence that a list starts and the least element continues, in lexicographic order. -/
def sequence (l : List α) : Lex (ℕ → α) := toLex fun i => l.getD i ⊥

theorem sequence_nil_le (l : List α) : sequence [] ≤ sequence l := by
  refine Pi.toLex_monotone fun i => ?_
  rw [List.getD_nil]
  exact bot_le

/-- Sequences are compared at their heads, then at the rest. -/
theorem sequence_cons_lt {a b : α} {l k : List α} :
    sequence (a :: l) < sequence (b :: k) ↔ a < b ∨ a = b ∧ sequence l < sequence k := by
  constructor
  · rintro ⟨i, heq, hlt⟩
    cases i with
    | zero => exact Or.inl hlt
    | succ i => exact Or.inr ⟨heq 0 i.succ_pos, i, fun j hj => heq (j + 1) (Nat.succ_lt_succ hj), hlt⟩
  · rintro (hlt | ⟨rfl, i, heq, hlt⟩)
    · exact ⟨0, fun j hj => absurd hj (Nat.not_lt_zero j), hlt⟩
    · refine ⟨i + 1, fun j hj => ?_, hlt⟩
      cases j with
      | zero => rfl
      | succ j => exact heq j (Nat.lt_of_succ_lt_succ hj)

theorem sequence_cons_eq {a b : α} {l k : List α} :
    sequence (a :: l) = sequence (b :: k) ↔ a = b ∧ sequence l = sequence k := by
  constructor
  · intro h
    have hget : ∀ i, (a :: l).getD i ⊥ = (b :: k).getD i ⊥ := congrFun (toLex_inj.mp h)
    exact ⟨hget 0, congrArg toLex (funext fun i => hget (i + 1))⟩
  · rintro ⟨rfl, h⟩
    have hget : ∀ i, l.getD i ⊥ = k.getD i ⊥ := congrFun (toLex_inj.mp h)
    refine congrArg toLex (funext fun i => ?_)
    cases i with
    | zero => rfl
    | succ i => exact hget i

/-- One list is less than another one if its sequence is, or if it is shorter and has the same sequence. -/
theorem lt_iff {l k : List α} :
    l < k ↔ sequence l < sequence k ∨ sequence l = sequence k ∧ l.length < k.length := by
  induction l generalizing k with
  | nil =>
      cases k with
      | nil => exact iff_of_false (lt_irrefl _) (by rintro (h | ⟨-, h⟩) <;> exact lt_irrefl _ h)
      | cons b k =>
          refine iff_of_true (List.nil_lt_cons b k) ?_
          rcases (sequence_nil_le (b :: k)).lt_or_eq with h | h
          · exact Or.inl h
          · exact Or.inr ⟨h, Nat.succ_pos _⟩
  | cons a l ih =>
      cases k with
      | nil =>
          refine iff_of_false (List.not_lt_nil _) ?_
          rintro (h | ⟨-, h⟩)
          · exact (sequence_nil_le (a :: l)).not_gt h
          · exact Nat.not_lt_zero _ h
      | cons b k =>
          rw [List.cons_lt_cons_iff, sequence_cons_lt, sequence_cons_eq, ih, List.length_cons, List.length_cons,
            Nat.succ_lt_succ_iff]
          tauto

/-- Lists of one sequence are ordered by their lengths. -/
theorem lt_iff_length_lt {l k : List α} (h : sequence l = sequence k) : l < k ↔ l.length < k.length :=
  lt_iff.trans ⟨fun hor => hor.elim (fun hlt => absurd h hlt.ne) And.right, fun hlength => Or.inr ⟨h, hlength⟩⟩

/-- Lists of different sequences are ordered as these are. -/
theorem lt_iff_sequence_lt {l k : List α} (h : sequence l ≠ sequence k) : l < k ↔ sequence l < sequence k :=
  lt_iff.trans ⟨fun hor => hor.elim id fun hand => absurd hand.1 h, Or.inl⟩

end Padded
