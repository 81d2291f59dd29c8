import Mathlib

/-!
# Hash chains

A chain of records, each of which has a position, a hash and the hash of the record before it. Where
equal hashes mean equal content, the hash of the last record determines the content of the whole chain.
-/

structure HashChain (α H : Type*) where
  position : α → ℕ
  previous : α → Option H
  hash : α → H

namespace HashChain

variable {α H : Type*} (c : HashChain α H)

/-- Records at the positions from `n` on. Each names the hash of the one before it, the first names
`p`. -/
def Linked : ℕ → Option H → List α → Prop
  | _, _, [] => True
  | n, p, e :: l => c.position e = n ∧ c.previous e = p ∧ Linked (n + 1) (some (c.hash e)) l

variable {c} {n : ℕ} {p p' : Option H} {l l' : List α}

theorem Linked.position_mem (h : c.Linked n p l) {e : α} (he : e ∈ l) :
    n ≤ c.position e ∧ c.position e < n + l.length := by
  induction l generalizing n p with
  | nil => cases he
  | cons a l ih =>
      obtain ⟨ha, -, hl⟩ := h
      rw [List.length_cons]
      rcases List.mem_cons.mp he with rfl | he
      · omega
      · have hmem := ih hl he
        omega

/-- No two records of a chain have one position. -/
theorem Linked.nodup_position (h : c.Linked n p l) : (l.map c.position).Nodup := by
  induction l generalizing n p with
  | nil => exact List.nodup_nil
  | cons a l ih =>
      obtain ⟨ha, -, hl⟩ := h
      refine List.nodup_cons.mpr ⟨fun hmem => ?_, ih hl⟩
      obtain ⟨e, he, hposition⟩ := List.mem_map.mp hmem
      have hle := (hl.position_mem he).1
      omega

theorem Linked.position_getLast (h : c.Linked n p l) {e : α} (he : l.getLast? = some e) :
    c.position e + 1 = n + l.length := by
  induction l generalizing n p with
  | nil => cases he
  | cons a l ih =>
      obtain ⟨ha, -, hl⟩ := h
      cases l with
      | nil =>
          obtain rfl : a = e := Option.some.inj he
          rw [ha, List.length_singleton]
      | cons b l =>
          have hlast := ih hl he
          rw [List.length_cons]
          omega

/-- Chains of one length with the same last hash have the same content `R`, if the hash determines the
content and the content includes the hash of the record before. -/
theorem Linked.forall₂_of_length_eq {R : α → α → Prop} (h : c.Linked n p l) (h' : c.Linked n p' l')
    (hcontent : ∀ e ∈ l, ∀ e' ∈ l', c.hash e = c.hash e' → R e e')
    (hprevious : ∀ e e', R e e' → c.previous e = c.previous e') (hlength : l.length = l'.length)
    (hlast : l.getLast?.map c.hash = l'.getLast?.map c.hash) : List.Forall₂ R l l' := by
  induction l generalizing n p p' l' with
  | nil =>
      rw [List.eq_nil_of_length_eq_zero hlength.symm]
      exact .nil
  | cons a l ih =>
      cases l' with
      | nil => cases hlength
      | cons a' l' =>
          have hlengths : l.length = l'.length := Nat.add_right_cancel hlength
          have hheads := hcontent a List.mem_cons_self a' List.mem_cons_self
          cases l with
          | nil =>
              obtain rfl := List.eq_nil_of_length_eq_zero hlengths.symm
              exact .cons (hheads (Option.some.inj hlast)) .nil
          | cons b l =>
              cases l' with
              | nil => cases hlengths
              | cons b' l' =>
                  have hrest := ih h.2.2 h'.2.2 (fun e he e' he' =>
                    hcontent e (List.mem_cons_of_mem _ he) e' (List.mem_cons_of_mem _ he')) hlengths hlast
                  cases hrest with
                  | cons hb hrest =>
                      -- the second record names the hash of the first
                      have hnamed := hprevious b b' hb
                      rw [h.2.2.2.1, h'.2.2.2.1] at hnamed
                      exact .cons (hheads (Option.some.inj hnamed)) (.cons hb hrest)

/-- The last hash determines the length, if the content includes the position. -/
theorem Linked.forall₂_of_getLast_eq {R : α → α → Prop} (h : c.Linked n p l) (h' : c.Linked n p' l')
    (hcontent : ∀ e ∈ l, ∀ e' ∈ l', c.hash e = c.hash e' → R e e')
    (hposition : ∀ e e', R e e' → c.position e = c.position e')
    (hprevious : ∀ e e', R e e' → c.previous e = c.previous e') (hne : l ≠ [])
    (hlast : l.getLast?.map c.hash = l'.getLast?.map c.hash) : List.Forall₂ R l l' := by
  refine h.forall₂_of_length_eq h' hcontent hprevious ?_ hlast
  have he := List.getLast?_eq_some_getLast hne
  rw [he] at hlast
  obtain ⟨e', he', hhash⟩ := Option.map_eq_some_iff.mp hlast.symm
  have hsame := hcontent _ (List.getLast_mem hne) e' (List.mem_of_getLast? he') hhash.symm
  have hpositions := hposition _ _ hsame
  have hend := h.position_getLast he
  have hend' := h'.position_getLast he'
  omega

end HashChain
