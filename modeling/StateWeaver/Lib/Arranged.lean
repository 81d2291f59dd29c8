import Mathlib
import StateWeaver.Lib.Imperative

/-!
# Collections in the order of a key

A collection whose members have distinct keys is kept in the order of the keys. Then its members determine it,
and it does not matter in which order they were given.
-/

/-- Members in the order of their keys. -/
structure Arranged {α κ : Type} [LinearOrder κ] (key : α → κ) where
  items : List α
  sorted : items.Pairwise fun a b => key a < key b

namespace Arranged

variable {α κ ε : Type} [LinearOrder κ] {key : α → κ} {l l' : List α} {e : ε}

theorem pairwise_insertionSort (h : (l.map key).Nodup) :
    (l.insertionSort fun a b => key a ≤ key b).Pairwise fun a b => key a < key b := by
  have htotal : Std.Total fun a b : α => key a ≤ key b := ⟨fun _ _ => le_total _ _⟩
  have htrans : IsTrans α fun a b => key a ≤ key b := ⟨fun _ _ _ => le_trans⟩
  have hnodup : ((l.insertionSort fun a b => key a ≤ key b).map key).Nodup :=
    ((List.perm_insertionSort _ _).map key).nodup_iff.mpr h
  exact (List.pairwise_insertionSort (fun a b => key a ≤ key b) l).imp₂ (fun _ _ => lt_of_le_of_ne)
    (List.pairwise_map.mp hnodup)

variable (key e l)

/-- Sort members by their keys, and raise if a key comes twice. -/
def create : Except ε (Arranged key) :=
  if h : (l.map key).Nodup then .ok ⟨l.insertionSort fun a b => key a ≤ key b, pairwise_insertionSort h⟩
  else .error e

variable {key e l} {c d : Arranged key} {a : α}

theorem mem_of_create (h : create key l e = .ok c) : a ∈ c.items ↔ a ∈ l := by
  rw [create] at h
  split_ifs at h
  obtain rfl := Except.ok.inj h
  exact List.mem_insertionSort _

theorem ext_of_items (h : c.items = d.items) : c = d := by
  cases c
  cases d
  cases h
  rfl

/-- The members determine the collection. -/
theorem ext_of_mem (h : ∀ a, a ∈ c.items ↔ a ∈ d.items) : c = d := by
  have hnodup : ∀ c : Arranged key, c.items.Nodup := fun c => c.sorted.imp fun hlt heq => by
    rw [heq] at hlt
    exact lt_irrefl _ hlt
  have hperm : c.items.Perm d.items := (List.perm_ext_iff_of_nodup (hnodup c) (hnodup d)).mpr h
  exact ext_of_items (List.Perm.eq_of_pairwise (fun _ _ _ _ hlt hlt' => absurd hlt' (lt_asymm hlt)) c.sorted
    d.sorted hperm)

/-- The order in which members are given does not matter. -/
theorem create_of_perm (h : l.Perm l') : create key l e = create key l' e := by
  have hnodup := (h.map key).nodup_iff
  cases hl : create key l e with
  | ok c =>
      cases hl' : create key l' e with
      | ok d => rw [ext_of_mem fun a => (mem_of_create hl).trans (h.mem_iff.trans (mem_of_create hl').symm)]
      | error e' =>
          rw [create] at hl hl'
          split_ifs at hl with hkeys
          rw [dif_pos (hnodup.mp hkeys)] at hl'
          cases hl'
  | error e' =>
      rw [create] at hl
      split_ifs at hl with hkeys
      rw [create, dif_neg (mt hnodup.mpr hkeys), ← hl]

/-- Collections in the order of their keys are in step if every member has a partner of its key. -/
theorem forall₂_of_pairwise {β : Type} {key' : β → κ} {R : α → β → Prop} {l : List α} {l' : List β}
    (h : l.Pairwise fun a b => key a < key b) (h' : l'.Pairwise fun a b => key' a < key' b)
    (hleft : ∀ a ∈ l, ∃ b ∈ l', key' b = key a ∧ R a b) (hright : ∀ b ∈ l', ∃ a ∈ l, key a = key' b) :
    List.Forall₂ R l l' := by
  induction l generalizing l' with
  | nil =>
      cases l' with
      | nil => exact .nil
      | cons b l' =>
          obtain ⟨a, ha, -⟩ := hright b List.mem_cons_self
          cases ha
  | cons a l ih =>
      cases l' with
      | nil =>
          obtain ⟨b, hb, -⟩ := hleft a List.mem_cons_self
          cases hb
      | cons b l' =>
          obtain ⟨hfirst, hl⟩ := List.pairwise_cons.mp h
          obtain ⟨hfirst', hl'⟩ := List.pairwise_cons.mp h'
          have hkey : key' b = key a := by
            obtain ⟨b₀, hb₀, hkey₀, -⟩ := hleft a List.mem_cons_self
            obtain ⟨a₀, ha₀, hkey₁⟩ := hright b List.mem_cons_self
            have hle : key' b ≤ key a := by
              rcases List.mem_cons.mp hb₀ with rfl | hb₀
              · exact le_of_eq hkey₀
              · exact hkey₀ ▸ le_of_lt (hfirst' b₀ hb₀)
            have hge : key a ≤ key' b := by
              rcases List.mem_cons.mp ha₀ with rfl | ha₀
              · exact le_of_eq hkey₁
              · exact hkey₁ ▸ le_of_lt (hfirst a₀ ha₀)
            exact le_antisymm hle hge
          refine .cons ?_ (ih hl hl' (fun c hc => ?_) fun c hc => ?_)
          · obtain ⟨b₀, hb₀, hkey₀, hR⟩ := hleft a List.mem_cons_self
            rcases List.mem_cons.mp hb₀ with rfl | hb₀
            · exact hR
            · exact absurd (hkey₀.trans hkey.symm) (ne_of_gt (hfirst' b₀ hb₀))
          · obtain ⟨d, hd, hkeyd, hR⟩ := hleft c (List.mem_cons_of_mem a hc)
            rcases List.mem_cons.mp hd with rfl | hd
            · exact absurd (hkeyd.symm.trans hkey) (ne_of_gt (hfirst c hc))
            · exact ⟨d, hd, hkeyd, hR⟩
          · obtain ⟨d, hd, hkeyd⟩ := hright c (List.mem_cons_of_mem b hc)
            rcases List.mem_cons.mp hd with rfl | hd
            · exact absurd (hkeyd.symm.trans hkey.symm) (ne_of_gt (hfirst' c hc))
            · exact ⟨d, hd, hkeyd⟩

end Arranged
