import Mathlib

/-!
# Records in bytes

A format that is read from its end finds a record by the last occurrence of a signature and takes its fields from
fixed places, the least significant byte first.
-/

namespace Records

/-! ## Signatures -/

section LastIndex

variable {α : Type} [DecidableEq α] {pattern l : List α} {i : ℕ}

/-- The last position at which a pattern occurs. -/
def lastIndex? (pattern : List α) : List α → Option ℕ
  | [] => if pattern = [] then some 0 else none
  | c :: rest =>
      match lastIndex? pattern rest with
      | some i => some (i + 1)
      | none => if pattern <+: c :: rest then some 0 else none

theorem lastIndex?_eq_none (h : lastIndex? pattern l = none) (j : ℕ) : ¬pattern <+: l.drop j := by
  induction l generalizing j with
  | nil =>
      rw [lastIndex?] at h
      split at h
      · cases h
      · next hne =>
          rw [List.drop_nil, List.prefix_nil]
          exact hne
  | cons c rest ih =>
      rw [lastIndex?] at h
      cases hrest : lastIndex? pattern rest with
      | some i =>
          rw [hrest] at h
          cases h
      | none =>
          simp only [hrest, ite_eq_right_iff, reduceCtorEq, imp_false] at h
          cases j with
          | zero => exact h
          | succ j => exact ih hrest j

theorem lastIndex?_eq_some (hpattern : pattern ≠ []) (h : lastIndex? pattern l = some i) :
    pattern <+: l.drop i ∧ ∀ j, i < j → ¬pattern <+: l.drop j := by
  induction l generalizing i with
  | nil =>
      rw [lastIndex?, if_neg hpattern] at h
      cases h
  | cons c rest ih =>
      rw [lastIndex?] at h
      cases hrest : lastIndex? pattern rest with
      | some k =>
          rw [hrest] at h
          cases h
          obtain ⟨hstart, hlater⟩ := ih hrest
          refine ⟨hstart, fun j hj => ?_⟩
          cases j with
          | zero => exact absurd hj (Nat.not_lt_zero _)
          | succ j => exact hlater j (Nat.lt_of_succ_lt_succ hj)
      | none =>
          simp only [hrest, Option.ite_none_right_eq_some, Option.some.injEq] at h
          obtain ⟨hstart, rfl⟩ := h
          refine ⟨hstart, fun j hj => ?_⟩
          cases j with
          | zero => exact absurd hj (lt_irrefl _)
          | succ j => exact lastIndex?_eq_none hrest j

/-- What occurs at the end of a list occurs there last. -/
theorem lastIndex?_append {ys : List α} (h : lastIndex? pattern ys = some i) (xs : List α) :
    lastIndex? pattern (xs ++ ys) = some (xs.length + i) := by
  induction xs with
  | nil => rw [List.nil_append, h, List.length_nil, Nat.zero_add]
  | cons c xs ih =>
      rw [List.cons_append, lastIndex?, ih, List.length_cons]
      exact congrArg some (by ring)

/-- `content.rfind(pattern, start)`. -/
def rfind (content pattern : List α) (start : ℕ) : Option ℕ :=
  (lastIndex? pattern (content.drop start)).map (start + ·)

theorem rfind_eq_some {content : List α} {start : ℕ} (hpattern : pattern ≠ [])
    (h : rfind content pattern start = some i) :
    start ≤ i ∧ pattern <+: content.drop i ∧ ∀ j, i < j → ¬pattern <+: content.drop j := by
  obtain ⟨k, hk, rfl⟩ := Option.map_eq_some_iff.mp h
  obtain ⟨hstart, hlater⟩ := lastIndex?_eq_some hpattern hk
  rw [List.drop_drop] at hstart
  refine ⟨Nat.le_add_right _ _, hstart, fun j hj => ?_⟩
  have hlater := hlater (j - start) (by omega)
  rwa [List.drop_drop, Nat.add_sub_cancel' (by omega)] at hlater

theorem rfind_append {ys : List α} {start : ℕ} (h : lastIndex? pattern ys = some i) (xs : List α)
    (hstart : start ≤ xs.length) : rfind (xs ++ ys) pattern start = some (xs.length + i) := by
  rw [rfind, List.drop_append_of_le_length hstart, lastIndex?_append h, List.length_drop, Option.map_some]
  exact congrArg some (by omega)

end LastIndex

/-! ## Fields -/

/-- A number whose least significant byte comes first. -/
def littleEndian (bytes : List UInt8) : ℕ := bytes.foldr (fun b n => b.toNat + 256 * n) 0

theorem littleEndian_lt (bytes : List UInt8) : littleEndian bytes < 256 ^ bytes.length := by
  induction bytes with
  | nil => exact Nat.one_pos
  | cons b bytes ih =>
      change b.toNat + 256 * littleEndian bytes < _
      have hb := b.toNat_lt
      rw [List.length_cons, pow_succ]
      omega

/-- The number in some bytes of a content. -/
def field (content : List UInt8) (offset width : ℕ) : ℕ := littleEndian ((content.drop offset).take width)

theorem field_lt (content : List UInt8) (offset width : ℕ) : field content offset width < 256 ^ width :=
  (littleEndian_lt _).trans_le (Nat.pow_le_pow_right (by decide) (List.length_take_le _ _))

theorem field_append (xs ys : List UInt8) (offset width : ℕ) :
    field (xs ++ ys) (xs.length + offset) width = field ys offset width := by
  rw [field, field, List.drop_append, List.drop_of_length_le (Nat.le_add_right _ _), List.nil_append,
    Nat.add_sub_cancel_left]

end Records
