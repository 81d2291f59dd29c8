import Mathlib

/-!
# Where a list first differs from its head

The keys of a list are all equal if none differs from the first. Otherwise the first that differs is found by
its position, or together with the element that it belongs to.
-/

namespace List

variable {α κ : Type}

theorem toFinset_card_eq_one [DecidableEq α] {l : List α} :
    l.toFinset.card = 1 ↔ l ≠ [] ∧ ∀ a ∈ l, ∀ b ∈ l, a = b := by
  rw [Finset.card_eq_one]
  constructor
  · rintro ⟨a, ha⟩
    have hall : ∀ b ∈ l, b = a := fun b hb => Finset.mem_singleton.mp (ha ▸ mem_toFinset.mpr hb)
    refine ⟨?_, fun b hb c hc => (hall b hb).trans (hall c hc).symm⟩
    rintro rfl
    exact absurd ha.symm (Finset.singleton_ne_empty a)
  · rintro ⟨hnonempty, hall⟩
    obtain ⟨a, ha⟩ := exists_mem_of_ne_nil l hnonempty
    refine ⟨a, Finset.ext fun b => ?_⟩
    rw [mem_toFinset, Finset.mem_singleton]
    exact ⟨fun hb => hall b hb a ha, fun hb => hb ▸ ha⟩

/-- The element with the first key of a kind, by the position of the key. -/
theorem find?_zip {q : κ → Bool} (l : List α) (keys : List κ) (h : l.length = keys.length) :
    ((l.zip keys).find? fun p => q p.2).map Prod.fst = (keys.findIdx? q).bind fun index => l[index]? := by
  induction l generalizing keys with
  | nil =>
      cases keys with
      | nil => rfl
      | cons key keys => cases h
  | cons a l ih =>
      cases keys with
      | nil => cases h
      | cons key keys =>
          rw [zip_cons_cons, findIdx?_cons, find?_cons]
          cases q key with
          | true => rfl
          | false =>
              have hrest := ih keys (Nat.succ.inj h)
              simp only [Bool.false_eq_true, if_false, hrest]
              cases keys.findIdx? q with
              | none => rfl
              | some index => rfl

/-- What belongs to the first element with a key of a kind, by the position of the key. -/
theorem findIdx?_map_bind {β : Type} {f : α → κ} {g : α → β} {q : κ → Bool} (l : List α) :
    (((l.map f).findIdx? q).bind fun index => (l.map g)[index]?) = (l.find? fun a => q (f a)).map g := by
  induction l with
  | nil => rfl
  | cons a l ih =>
      rw [map_cons, map_cons, findIdx?_cons, find?_cons]
      cases q (f a) with
      | true => rfl
      | false =>
          simp only [Bool.false_eq_true, if_false, ← ih]
          cases (l.map f).findIdx? q with
          | none => rfl
          | some index => rfl

/-- No key differs from the first exactly if there is at most one. -/
theorem findIdx?_ne_head_eq_none [DecidableEq κ] {keys : List κ} :
    (keys.findIdx? fun key => some key ≠ keys.head?) = none ↔ keys.isEmpty = true ∨ keys.toFinset.card = 1 := by
  rw [findIdx?_eq_none_iff]
  cases keys with
  | nil => exact iff_of_true (forall_mem_nil _) (.inl rfl)
  | cons key keys =>
      have hall : (∀ k ∈ key :: keys, decide (some k ≠ (key :: keys).head?) = false) ↔
          ∀ k ∈ key :: keys, k = key := by
        refine forall₂_congr fun k _ => ?_
        rw [decide_eq_false_iff_not, not_not, head?_cons, Option.some_inj]
      rw [hall, isEmpty_cons, or_iff_right Bool.false_ne_true, toFinset_card_eq_one,
        and_iff_right (cons_ne_nil _ _)]
      exact ⟨fun h a ha b hb => (h a ha).trans (h b hb).symm, fun h k hk => h k hk key mem_cons_self⟩

end List
