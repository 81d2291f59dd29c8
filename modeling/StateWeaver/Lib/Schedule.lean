import Mathlib

/-!
# Executions of steps in an order

A planning problem says in which states a step is ready and what state it leads to. `Executes` takes
the steps of a list in their order. `Greedy` is the execution of a scheduler without foresight: at
each point it takes, out of the steps that are left, the ready one with the least key.

A greedy scheduler can miss an execution that exists. `exists_greedy` says when it does not: if no two
steps that are ready together disturb each other (`Undisturbed`), every execution of the steps can be
reordered into the greedy one, which ends in the same state.
-/

/-- Steps over states. -/
structure Planning (σ α : Type*) where
  /-- Whether a step can be taken. -/
  ready : σ → α → Prop
  /-- The state after a step, unless taking it fails. -/
  take : σ → α → Option σ

namespace Planning

variable {σ α κ : Type*} {P : Planning σ α}

/-- Taking the steps of a list in their order. -/
inductive Executes (P : Planning σ α) : σ → List α → σ → Prop
  | nil {s} : Executes P s [] s
  | cons {s s' t a l} (hready : P.ready s a) (htake : P.take s a = some s')
      (hrest : Executes P s' l t) : Executes P s (a :: l) t

/-- Taking the steps of a list in their order, each the least of the ready ones that are left. -/
inductive Greedy [LE κ] (P : Planning σ α) (key : α → κ) : σ → List α → σ → Prop
  | nil {s} : Greedy P key s [] s
  | cons {s s' t a l} (hready : P.ready s a) (htake : P.take s a = some s')
      (hleast : ∀ b ∈ l, P.ready s b → key a ≤ key b) (hrest : Greedy P key s' l t) :
      Greedy P key s (a :: l) t

/-- A greedy execution is an execution. -/
theorem Greedy.executes [LE κ] {key : α → κ} {s t : σ} {l : List α} (h : P.Greedy key s l t) :
    P.Executes s l t := by
  induction h with
  | nil => exact .nil
  | cons hready htake _ _ ih => exact .cons hready htake ih

/-- Steps lead to one state. -/
theorem Executes.deterministic {s t t' : σ} {l : List α} (h : P.Executes s l t)
    (h' : P.Executes s l t') : t = t' := by
  induction h with
  | nil =>
      cases h'
      rfl
  | cons _ htake _ ih =>
      cases h' with
      | cons _ htake' hrest' =>
          rw [htake, Option.some.injEq] at htake'
          subst htake'
          exact ih hrest'

/-- In an execution each step is ready where the steps before it lead. -/
theorem Executes.ready {s t u : σ} {a : α} {before after : List α}
    (h : P.Executes s (before ++ a :: after) t) (hbefore : P.Executes s before u) : P.ready u a := by
  induction hbefore with
  | nil =>
      cases h with
      | cons hready => exact hready
  | cons _ htake _ ih =>
      cases h with
      | cons _ htake' hrest =>
          rw [htake, Option.some.injEq] at htake'
          subst htake'
          exact ih hrest

/-- Take the steps of a list in their order, unless one is not ready or fails. -/
def execute (P : Planning σ α) [∀ s a, Decidable (P.ready s a)] : σ → List α → Option σ
  | s, [] => some s
  | s, a :: l => if P.ready s a then (P.take s a).bind fun s' => execute P s' l else none

theorem executes_iff_execute [∀ s a, Decidable (P.ready s a)] {s t : σ} {l : List α} :
    P.Executes s l t ↔ P.execute s l = some t := by
  constructor
  · intro h
    induction h with
    | nil => rfl
    | cons hready htake _ ih => rw [execute, if_pos hready, htake, Option.bind_some, ih]
  · intro h
    induction l generalizing s with
    | nil =>
        cases h
        exact .nil
    | cons a l ih =>
        rw [execute] at h
        split at h
        · next hready =>
            obtain ⟨s', htake, hrest⟩ := Option.bind_eq_some_iff.mp h
            exact .cons hready htake (ih hrest)
        · cases h

/-- Wherever a part of the steps has been taken, two others that are ready can be taken in either
order, with the same result. -/
def Undisturbed (P : Planning σ α) (s₀ : σ) (l : List α) : Prop :=
  ∀ taken s a b, (a :: b :: taken).Subperm l → P.Executes s₀ taken s → P.ready s a → P.ready s b →
    ∃ sa sb t, P.take s a = some sa ∧ P.take s b = some sb ∧
      P.ready sa b ∧ P.take sa b = some t ∧ P.ready sb a ∧ P.take sb a = some t

/-- What is left after a first step is undisturbed. -/
theorem Undisturbed.tail {s s' : σ} {a : α} {l : List α} (h : P.Undisturbed s (a :: l))
    (hready : P.ready s a) (htake : P.take s a = some s') : P.Undisturbed s' l := by
  intro taken s₁ b c hsub hexec hb hc
  refine h (a :: taken) s₁ b c ?_ (.cons hready htake hexec) hb hc
  have hswap : (b :: c :: a :: taken).Perm (a :: b :: c :: taken) := by
    calc (b :: c :: a :: taken).Perm (b :: a :: c :: taken) := (List.Perm.swap a c taken).cons b
      _ |>.Perm (a :: b :: c :: taken) := List.Perm.swap a b (c :: taken)
  exact hswap.subperm.trans ((List.subperm_cons a).mpr hsub)

/-- Undisturbedness does not depend on the order in which the steps are listed. -/
theorem Undisturbed.perm {s : σ} {l l' : List α} (h : P.Undisturbed s l) (hperm : l.Perm l') :
    P.Undisturbed s l' :=
  fun taken s₁ a b hsub => h taken s₁ a b (hsub.trans hperm.symm.subperm)

/-- A step of an undisturbed execution that is ready at once can be taken first. -/
theorem Executes.bring_forward [DecidableEq α] {s t : σ} {l : List α} (h : P.Executes s l t)
    (hfree : P.Undisturbed s l) {a : α} (hmem : a ∈ l) (hready : P.ready s a) :
    ∃ s', P.take s a = some s' ∧ P.Executes s' (l.erase a) t := by
  induction h with
  | nil => cases hmem
  | @cons s s₁ t c l hc htake hrest ih =>
      by_cases heq : c = a
      · subst heq
        refine ⟨s₁, htake, ?_⟩
        rw [List.erase_cons_head]
        exact hrest
      · have hin : a ∈ l := (List.mem_cons.mp hmem).resolve_left (Ne.symm heq)
        -- The step that is taken first and `a` are ready together, so they commute here.
        have hsub : [a, c].Subperm (c :: l) := by
          refine (List.Perm.swap c a []).subperm.trans ((List.subperm_cons c).mpr ?_)
          exact List.singleton_subperm_iff.mpr hin
        obtain ⟨sa, sc, u, hsa, hsc, hca, hu, hac, hu'⟩ := hfree [] s a c hsub .nil hready hc
        rw [htake, Option.some.injEq] at hsc
        subst hsc
        obtain ⟨s', hs', hexec⟩ := ih (hfree.tail hc htake) hin hac
        rw [hu', Option.some.injEq] at hs'
        subst hs'
        refine ⟨sa, hsa, ?_⟩
        rw [List.erase_cons_tail (by simpa using heq)]
        exact .cons hca hu hexec

/-- Out of the ready steps of a list there is one with the least key. -/
theorem exists_least_ready [LinearOrder κ] (key : α → κ) {s : σ} {l : List α} {c : α} (hmem : c ∈ l)
    (hready : P.ready s c) :
    ∃ a ∈ l, P.ready s a ∧ ∀ b ∈ l, P.ready s b → key a ≤ key b := by
  induction l generalizing c with
  | nil => cases hmem
  | cons d l ih =>
      by_cases hrest : ∃ b ∈ l, P.ready s b
      · obtain ⟨b, hb, hbready⟩ := hrest
        obtain ⟨a, ha, haready, hleast⟩ := ih hb hbready
        by_cases hd : P.ready s d ∧ key d ≤ key a
        · refine ⟨d, List.mem_cons_self, hd.1, fun e he hready => ?_⟩
          rcases List.mem_cons.mp he with rfl | he
          · exact le_refl _
          · exact le_trans hd.2 (hleast e he hready)
        · refine ⟨a, List.mem_cons_of_mem d ha, haready, fun e he hready => ?_⟩
          rcases List.mem_cons.mp he with rfl | he
          · exact le_of_not_ge fun hle => hd ⟨hready, hle⟩
          · exact hleast e he hready
      · have heq : c = d := by
          rcases List.mem_cons.mp hmem with rfl | hin
          · rfl
          · exact absurd ⟨c, hin, hready⟩ hrest
        subst heq
        refine ⟨c, List.mem_cons_self, hready, fun e he hready => ?_⟩
        rcases List.mem_cons.mp he with rfl | he
        · exact le_refl _
        · exact absurd ⟨e, he, hready⟩ hrest

/-- An undisturbed execution can be reordered into the greedy one. -/
theorem exists_greedy [DecidableEq α] [LinearOrder κ] (key : α → κ) {s t : σ} {l : List α}
    (h : P.Executes s l t) (hfree : P.Undisturbed s l) :
    ∃ l', l'.Perm l ∧ P.Greedy key s l' t := by
  induction hlength : l.length generalizing s l with
  | zero =>
      obtain rfl := List.eq_nil_of_length_eq_zero hlength
      cases h
      exact ⟨[], List.Perm.refl [], .nil⟩
  | succ n ih =>
      obtain ⟨c, hc, hcready⟩ : ∃ c ∈ l, P.ready s c := by
        cases h with
        | nil => cases hlength
        | cons hready _ _ => exact ⟨_, List.mem_cons_self, hready⟩
      obtain ⟨a, ha, hready, hleast⟩ := exists_least_ready key hc hcready
      obtain ⟨s', htake, hexec⟩ := h.bring_forward hfree ha hready
      have hperm := List.perm_cons_erase ha
      have hshorter : (l.erase a).length = n := by
        rw [List.length_erase_of_mem ha, hlength]
        rfl
      obtain ⟨l', hl', hgreedy⟩ := ih hexec ((hfree.perm hperm).tail hready htake) hshorter
      refine ⟨a :: l', (hl'.cons a).trans hperm.symm, .cons hready htake ?_ hgreedy⟩
      exact fun b hb => hleast b (List.mem_of_mem_erase (hl'.subset hb))

end Planning
