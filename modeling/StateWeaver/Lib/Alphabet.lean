import Mathlib

/-!
# Texts over an alphabet

There are finitely many texts of bounded length over a finite alphabet, which bounds a list of such texts
without repetition.
-/

namespace Alphabet

variable {α : Type} [DecidableEq α]

/-- Distinct texts of at most `n` letters are at most as many as the ways to fill `n` places, each with a
letter or with nothing. -/
theorem length_le {l : List (List α)} {alphabet : Finset α} {n : ℕ} (hnodup : l.Nodup)
    (hlength : ∀ text ∈ l, text.length ≤ n) (hletters : ∀ text ∈ l, ∀ c ∈ text, c ∈ alphabet) :
    l.length ≤ (alphabet.card + 1) ^ n := by
  have hplaces : l.toFinset.card ≤
      (Fintype.piFinset fun _ : Fin n => alphabet.insertNone).card := by
    refine Finset.card_le_card_of_injOn (fun text i => text[i.val]?) ?_ ?_
    · intro text htext
      rw [Finset.mem_coe, List.mem_toFinset] at htext
      rw [Finset.mem_coe, Fintype.mem_piFinset]
      intro i
      rw [Finset.mem_insertNone]
      intro c hc
      exact hletters text htext c (List.mem_of_getElem? hc)
    · intro text htext text' htext' heq
      rw [Finset.mem_coe, List.mem_toFinset] at htext htext'
      refine List.ext_getElem? fun i => ?_
      by_cases hi : i < n
      · exact congrFun heq ⟨i, hi⟩
      · rw [List.getElem?_eq_none ((hlength text htext).trans (not_lt.mp hi)),
          List.getElem?_eq_none ((hlength text' htext').trans (not_lt.mp hi))]
  rw [List.toFinset_card_of_nodup hnodup, Fintype.card_piFinset, Finset.prod_const, Finset.card_univ,
    Fintype.card_fin, Finset.card_insertNone] at hplaces
  exact hplaces

end Alphabet
