import Mathlib

/-!
# Breadth-first search

A search keeps a queue of nodes. It takes the first node, and appends the nodes that are one step further
unless a node that is alike is in the queue. The distance to a goal does not change while it does so, and the
first goal that is found is a nearest one. Nodes are graded by their distance from the start.
-/

namespace Frontier

/-- The nodes of a search. A step goes one grade up, and alike nodes have alike steps. -/
structure Space (α : Type*) where
  step : α → α → Prop
  goal : α → Prop
  grade : α → Nat
  alike : α → α → Prop
  grade_step : ∀ {a b}, step a b → grade b = grade a + 1
  grade_alike : ∀ {a b}, alike a b → grade a = grade b
  goal_alike : ∀ {a b}, alike a b → goal a → goal b
  step_alike : ∀ {a b c}, alike a b → step a c → ∃ d, step b d ∧ alike c d

variable {α : Type*} (S : Space α) {a b : α} {rest new : List α} {n m bound : Nat}

/-- Whether a goal is a number of steps from a node. -/
inductive Space.Away : α → Nat → Prop
  | here {a : α} : S.goal a → Away a 0
  | there {a b : α} {n : Nat} : S.step a b → Away b n → Away a (n + 1)

variable {S}

theorem Space.Away.alike (h : S.Away a n) (hab : S.alike a b) : S.Away b n := by
  induction h generalizing b with
  | here hgoal => exact .here (S.goal_alike hab hgoal)
  | there hstep _ ih =>
      obtain ⟨d, hd, halike⟩ := S.step_alike hab hstep
      exact .there hd (ih halike)

/-- A node that is no goal is at least one step from a goal. -/
theorem Space.Away.exists_step (h : S.Away a n) (hgoal : ¬S.goal a) :
    ∃ b m, n = m + 1 ∧ S.step a b ∧ S.Away b m := by
  cases h with
  | here h => exact absurd h hgoal
  | there hstep h => exact ⟨_, _, rfl, hstep, h⟩

variable (S)

/-- The grades of the goals that can be reached from the nodes of a queue. -/
def Space.arrivals (queue : List α) : Set Nat := {m | ∃ a ∈ queue, ∃ n, S.Away a n ∧ m = S.grade a + n}

/-- The nodes of a queue have two grades at most, the lower ones first. -/
structure Space.Leveled (queue : List α) : Prop where
  sorted : queue.Pairwise fun a b => S.grade a ≤ S.grade b
  near : ∀ a ∈ queue, ∀ b ∈ queue, S.grade b ≤ S.grade a + 1

variable {S}

/-! ## Steps of a search -/

theorem Space.Leveled.single (a : α) : S.Leveled [a] := by
  refine ⟨List.pairwise_singleton _ _, fun b hb c hc => ?_⟩
  rw [List.mem_singleton.mp hb, List.mem_singleton.mp hc]
  exact Nat.le_succ _

theorem Space.Leveled.tail (h : S.Leveled (a :: rest)) : S.Leveled rest :=
  ⟨(List.pairwise_cons.mp h.sorted).2, fun b hb c hc =>
    h.near b (List.mem_cons_of_mem _ hb) c (List.mem_cons_of_mem _ hc)⟩

theorem Space.Leveled.head_le (h : S.Leveled (a :: rest)) : ∀ b ∈ rest, S.grade a ≤ S.grade b :=
  (List.pairwise_cons.mp h.sorted).1

theorem Space.Leveled.expand (h : S.Leveled (a :: rest)) (hnew : ∀ b ∈ new, S.step a b) :
    S.Leveled (rest ++ new) := by
  have hgrade : ∀ b ∈ new, S.grade b = S.grade a + 1 := fun b hb => S.grade_step (hnew b hb)
  have hnear : ∀ b ∈ rest, S.grade b ≤ S.grade a + 1 := fun b hb =>
    h.near a List.mem_cons_self b (List.mem_cons_of_mem _ hb)
  refine ⟨List.pairwise_append.mpr ⟨h.tail.sorted, ?_, fun b hb c hc => ?_⟩, fun b hb c hc => ?_⟩
  · refine List.Pairwise.imp_of_mem (R := fun _ _ => True) (fun hb hc _ => ?_)
      (List.pairwise_of_forall fun _ _ => trivial)
    rw [hgrade _ hb, hgrade _ hc]
  · rw [hgrade c hc]
    exact hnear b hb
  · have hlow : S.grade a ≤ S.grade b := by
      rcases List.mem_append.mp hb with hb | hb
      · exact h.head_le b hb
      · rw [hgrade b hb]
        exact Nat.le_succ _
    rcases List.mem_append.mp hc with hc | hc
    · exact le_trans (hnear c hc) (Nat.succ_le_succ hlow)
    · rw [hgrade c hc]
      exact Nat.succ_le_succ hlow

/-- A node is replaced by the nodes that are one step further, up to alike ones. -/
theorem Space.arrivals_expand (hgoal : ¬S.goal a) (hnew : ∀ b ∈ new, S.step a b)
    (hcover : ∀ b, S.step a b → ∃ c ∈ rest ++ new, S.alike b c) :
    S.arrivals (a :: rest) = S.arrivals (rest ++ new) := by
  ext m
  constructor
  · rintro ⟨b, hb, n, haway, rfl⟩
    rcases List.mem_cons.mp hb with rfl | hb
    · obtain ⟨c, n, rfl, hstep, haway⟩ := haway.exists_step hgoal
      obtain ⟨d, hd, halike⟩ := hcover c hstep
      refine ⟨d, hd, n, haway.alike halike, ?_⟩
      rw [← S.grade_alike halike, S.grade_step hstep]
      omega
    · exact ⟨b, List.mem_append_left _ hb, n, haway, rfl⟩
  · rintro ⟨b, hb, n, haway, rfl⟩
    rcases List.mem_append.mp hb with hb | hb
    · exact ⟨b, List.mem_cons_of_mem _ hb, n, haway, rfl⟩
    · refine ⟨a, List.mem_cons_self, n + 1, .there (hnew b hb) haway, ?_⟩
      rw [S.grade_step (hnew b hb)]
      omega

/-- From a node that has the highest grade no goal is reached within it. -/
theorem Space.arrivals_drop (hgoal : ¬S.goal a) (hgrade : bound ≤ S.grade a) :
    {m ∈ S.arrivals (a :: rest) | m ≤ bound} = {m ∈ S.arrivals rest | m ≤ bound} := by
  ext m
  refine and_congr_left fun hm => ⟨?_, fun ⟨b, hb, h⟩ => ⟨b, List.mem_cons_of_mem _ hb, h⟩⟩
  rintro ⟨b, hb, n, haway, rfl⟩
  rcases List.mem_cons.mp hb with rfl | hb
  · obtain ⟨c, n, rfl, -, -⟩ := haway.exists_step hgoal
    omega
  · exact ⟨b, hb, n, haway, rfl⟩

/-- A goal that is one step from the first node is a nearest one. -/
theorem Space.isLeast_of_step (h : S.Leveled (a :: rest)) (hopen : ∀ b ∈ a :: rest, ¬S.goal b)
    (hstep : S.step a b) (hgoal : S.goal b) (hbound : S.grade a < bound) :
    IsLeast {m ∈ S.arrivals (a :: rest) | m ≤ bound} (S.grade a + 1) := by
  refine ⟨⟨⟨a, List.mem_cons_self, 1, .there hstep (.here hgoal), rfl⟩, hbound⟩, ?_⟩
  rintro m ⟨⟨c, hc, n, haway, rfl⟩, -⟩
  obtain ⟨d, n, rfl, -, -⟩ := haway.exists_step (hopen c hc)
  rcases List.mem_cons.mp hc with rfl | hc
  · omega
  · have hle := h.head_le c hc
    omega

/-! ## Results of a search -/

/-- Whether a result is the least of some numbers, or that there is none. -/
def LeastOf (s : Set Nat) : Option Nat → Prop
  | some k => IsLeast s k
  | none => s = ∅

theorem LeastOf.eq_some_iff {s : Set Nat} {result : Option Nat} (h : LeastOf s result) :
    result = some n ↔ IsLeast s n := by
  cases result with
  | none =>
      rw [LeastOf] at h
      refine ⟨nofun, fun hleast => ?_⟩
      rw [h] at hleast
      exact absurd hleast.1 (Set.notMem_empty _)
  | some k =>
      exact ⟨fun heq => Option.some.inj heq ▸ h, fun hleast => congrArg some (IsLeast.unique h hleast)⟩

theorem LeastOf.eq_none_iff {s : Set Nat} {result : Option Nat} (h : LeastOf s result) :
    result = none ↔ s = ∅ := by
  cases result with
  | none => exact ⟨fun _ => h, fun _ => rfl⟩
  | some k =>
      refine ⟨nofun, fun hempty => ?_⟩
      rw [LeastOf, hempty] at h
      exact absurd h.1 (Set.notMem_empty _)

end Frontier
