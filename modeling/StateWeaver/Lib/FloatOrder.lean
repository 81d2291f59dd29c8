import Mathlib
import StateWeaver.Lib.FloatReading

/-!
# The order of floats

Floats other than NaN are compared like their ranks, so they are in a linear order up to the sign of zero
(`lt_iff_floatRank`, `beq_iff_floatRank`), which negation reverses (`float_neg_lt_neg`).
-/

namespace Py

open Float.Model

/-! ## Ranks -/

/-- What a float is compared by: its kind with the sign, its exponent and its mantissa. -/
def unpackedRank : UnpackedFloat → ℤ ×ₗ ℤ ×ₗ ℤ
  | .infinity .negative => toLex (-2, toLex (0, 0))
  | .finite .negative mantissa exponent _ => toLex (-1, toLex (-exponent, -mantissa))
  | .notANumber | .zero _ => toLex (0, toLex (0, 0))
  | .finite .positive mantissa exponent _ => toLex (1, toLex (exponent, mantissa))
  | .infinity .positive => toLex (2, toLex (0, 0))

def floatRank (x : Float) : ℤ ×ₗ ℤ ×ₗ ℤ := unpackedRank x.toModel.unpack

theorem then_eq_lt {a b : ℤ} {m n : ℕ} :
    (compare a b).then (compare m n) = .lt ↔ a < b ∨ a = b ∧ m < n := by
  rw [Ordering.then_eq_lt, compare_lt_iff_lt, compare_eq_iff_eq, compare_lt_iff_lt]

theorem then_eq_gt {a b : ℤ} {m n : ℕ} :
    (compare a b).then (compare m n) = .gt ↔ b < a ∨ a = b ∧ n < m := by
  rw [Ordering.then_eq_gt, compare_gt_iff_gt, compare_eq_iff_eq, compare_gt_iff_gt]

theorem then_eq_eq {a b : ℤ} {m n : ℕ} : (compare a b).then (compare m n) = .eq ↔ a = b ∧ m = n := by
  rw [Ordering.then_eq_eq, compare_eq_iff_eq, compare_eq_iff_eq]

/-- Comparing floats is comparing ranks. -/
theorem compare_unpackedRank {a b : UnpackedFloat} (ha : a ≠ .notANumber) (hb : b ≠ .notANumber) :
    (a.lt b = true ↔ unpackedRank a < unpackedRank b) ∧
      (a.beq b = true ↔ unpackedRank a = unpackedRank b) := by
  cases a with
  | notANumber => exact absurd rfl ha
  | infinity s =>
      cases b with
      | notANumber => exact absurd rfl hb
      | infinity s' => cases s <;> cases s' <;> decide
      | zero s' => cases s <;> cases s' <;> decide
      | finite s' m e h =>
          cases s <;> cases s' <;> simp [UnpackedFloat.lt, UnpackedFloat.beq, UnpackedFloat.compare,
            unpackedRank, Prod.Lex.toLex_lt_toLex]
  | zero s =>
      cases b with
      | notANumber => exact absurd rfl hb
      | infinity s' => cases s <;> cases s' <;> decide
      | zero s' => cases s <;> cases s' <;> decide
      | finite s' m e h =>
          cases s <;> cases s' <;> simp [UnpackedFloat.lt, UnpackedFloat.beq, UnpackedFloat.compare,
            unpackedRank, Prod.Lex.toLex_lt_toLex]
  | finite s m e h =>
      cases b with
      | notANumber => exact absurd rfl hb
      | infinity s' =>
          cases s <;> cases s' <;> simp [UnpackedFloat.lt, UnpackedFloat.beq, UnpackedFloat.compare,
            unpackedRank, Prod.Lex.toLex_lt_toLex]
      | zero s' =>
          cases s <;> cases s' <;> simp [UnpackedFloat.lt, UnpackedFloat.beq, UnpackedFloat.compare,
            unpackedRank, Prod.Lex.toLex_lt_toLex]
      | finite s' m' e' h' =>
          cases s <;> cases s' <;> simp [UnpackedFloat.lt, UnpackedFloat.beq, UnpackedFloat.compare,
            unpackedRank, Prod.Lex.toLex_lt_toLex, then_eq_lt, then_eq_gt]

variable {x y : Float}

theorem unpack_ne_notANumber (hx : x.isNaN = false) : x.toModel.unpack ≠ .notANumber := by
  intro h
  rw [Float.isNaN, Float.Model.isNaN, h] at hx
  cases hx

/-- Floats are ordered like their ranks. -/
theorem lt_iff_floatRank (hx : x.isNaN = false) (hy : y.isNaN = false) :
    x < y ↔ floatRank x < floatRank y := by
  refine Iff.trans ?_ (compare_unpackedRank (unpack_ne_notANumber hx) (unpack_ne_notANumber hy)).1
  change (decide (x.toModel < y.toModel) = true) ↔ _
  rw [decide_eq_true_eq]
  rfl

theorem beq_iff_floatRank (hx : x.isNaN = false) (hy : y.isNaN = false) :
    (x == y) = true ↔ floatRank x = floatRank y :=
  (compare_unpackedRank (unpack_ne_notANumber hx) (unpack_ne_notANumber hy)).2

/-- What is between two finite floats is finite. -/
theorem isFinite_of_between {z : Float} (hxy : x ≤ y) (hyz : y ≤ z) (hx : x.isFinite = true)
    (hz : z.isFinite = true) : y.isFinite = true := by
  have hle : ∀ {x y : Float}, x ≤ y → x.toModel.unpack.le y.toModel.unpack = true := by
    intro x y h
    change (decide (x.toModel ≤ y.toModel) = true) at h
    rw [decide_eq_true_eq] at h
    exact h
  have hlower := hle hxy
  have hupper := hle hyz
  rw [Float.isFinite, Float.Model.isFinite] at hx hz ⊢
  rw [UnpackedFloat.le] at hlower hupper
  cases hy : y.toModel.unpack with
  | zero s => rfl
  | finite s m e h => rfl
  | notANumber =>
      rw [hy] at hupper
      cases hupper
  | infinity s =>
      rw [hy] at hlower hupper
      cases s with
      | negative =>
          -- nothing finite is below the least float
          cases hx' : x.toModel.unpack with
          | notANumber | infinity s =>
              rw [hx'] at hx
              cases hx
          | zero s | finite s m e h =>
              rw [hx'] at hlower
              cases s <;> cases hlower
      | positive =>
          cases hz' : z.toModel.unpack with
          | notANumber | infinity s =>
              rw [hz'] at hz
              cases hz
          | zero s | finite s m e h =>
              rw [hz'] at hupper
              cases s <;> cases hupper

/-! ## Negation -/

/-- The rank with each part negated. -/
def negRank (r : ℤ ×ₗ ℤ ×ₗ ℤ) : ℤ ×ₗ ℤ ×ₗ ℤ :=
  toLex (-(ofLex r).1, toLex (-(ofLex (ofLex r).2).1, -(ofLex (ofLex r).2).2))

theorem negRank_lt_negRank {r r' : ℤ ×ₗ ℤ ×ₗ ℤ} : negRank r < negRank r' ↔ r' < r := by
  simp only [negRank, Prod.Lex.lt_iff, ofLex_toLex, neg_lt_neg_iff, neg_inj]
  constructor
  · rintro (h | ⟨heq, h | ⟨heq', h⟩⟩)
    · exact .inl h
    · exact .inr ⟨heq.symm, .inl h⟩
    · exact .inr ⟨heq.symm, .inr ⟨heq'.symm, h⟩⟩
  · rintro (h | ⟨heq, h | ⟨heq', h⟩⟩)
    · exact .inl h
    · exact .inr ⟨heq.symm, .inl h⟩
    · exact .inr ⟨heq.symm, .inr ⟨heq'.symm, h⟩⟩

theorem negRank_inj {r r' : ℤ ×ₗ ℤ ×ₗ ℤ} : negRank r = negRank r' ↔ r = r' := by
  rw [eq_iff_le_not_lt, eq_iff_le_not_lt, ← not_lt, ← not_lt, negRank_lt_negRank, negRank_lt_negRank]
  exact ⟨fun h => ⟨h.2, h.1⟩, fun h => ⟨h.2, h.1⟩⟩

theorem unpackedRank_neg (a : UnpackedFloat) : unpackedRank a.neg = negRank (unpackedRank a) := by
  cases a with
  | notANumber => rfl
  | infinity s => cases s <;> rfl
  | zero s => cases s <;> rfl
  | finite s m e h =>
      cases s with
      | negative =>
          change toLex (1, toLex (e, (m : ℤ))) = toLex (- -1, toLex (- -e, - -(m : ℤ)))
          rw [neg_neg, neg_neg, neg_neg]
      | positive => rfl

/-- The bit pattern with the other sign. -/
def flipSign (b : BitVec Format.binary64.numBits) : BitVec Format.binary64.numBits :=
  UnpackedFloat.packComponents .binary64 (-UnpackedFloat.Sign.ofBitVec (UnpackedFloat.unpackSign b))
    (UnpackedFloat.unpackExponent b) (UnpackedFloat.unpackMantissa b)

theorem ofBitVec_toBitVec (s : UnpackedFloat.Sign) : UnpackedFloat.Sign.ofBitVec s.toBitVec = s := by
  cases s <;> rfl

theorem unpack_flipSign (b : BitVec Format.binary64.numBits) :
    UnpackedFloat.unpack .binary64 (flipSign b) = (UnpackedFloat.unpack .binary64 b).neg := by
  have hsign : UnpackedFloat.unpackSign (flipSign b) =
      (-UnpackedFloat.Sign.ofBitVec (UnpackedFloat.unpackSign b)).toBitVec := unpackSign_packComponents
  have hexponent : UnpackedFloat.unpackExponent (flipSign b) = UnpackedFloat.unpackExponent b :=
    UnpackedFloat.unpackExponent_packComponents
  have hmantissa : UnpackedFloat.unpackMantissa (flipSign b) = UnpackedFloat.unpackMantissa b :=
    UnpackedFloat.unpackMantissa_packComponents
  rw [UnpackedFloat.unpack, UnpackedFloat.unpack]
  simp only [hsign, hexponent, hmantissa, ofBitVec_toBitVec]
  split_ifs <;> rfl

theorem isFinite_neg {a : UnpackedFloat} : a.neg.isFinite = a.isFinite := by
  cases a <;> rfl

/-- Negating a finite float flips its sign. -/
theorem unpack_neg (hx : x.isFinite = true) : (-x).toModel.unpack = x.toModel.unpack.neg := by
  rw [Float.isFinite, Float.Model.isFinite, Float.Model.unpack] at hx
  rw [← isFinite_neg, ← unpack_flipSign] at hx
  have hflip := pack_unpack hx
  rw [unpack_flipSign] at hflip
  change UnpackedFloat.unpack .binary64 (UnpackedFloat.pack .binary64 x.toModel.unpack.neg) = _
  rw [Float.Model.unpack, hflip, unpack_flipSign]

theorem isNaN_of_isFinite (hx : x.isFinite = true) : x.isNaN = false := by
  rw [Float.isFinite, Float.Model.isFinite] at hx
  rw [Float.isNaN, Float.Model.isNaN]
  cases h : x.toModel.unpack with
  | notANumber =>
      rw [h] at hx
      cases hx
  | _ => rfl

theorem isNaN_neg (hx : x.isFinite = true) : (-x).isNaN = false := by
  have hnumber := isNaN_of_isFinite hx
  rw [Float.isNaN, Float.Model.isNaN] at hnumber ⊢
  rw [unpack_neg hx]
  cases h : x.toModel.unpack with
  | notANumber =>
      rw [h] at hnumber
      cases hnumber
  | _ => rfl

theorem floatRank_neg (hx : x.isFinite = true) : floatRank (-x) = negRank (floatRank x) := by
  rw [floatRank, unpack_neg hx, unpackedRank_neg, floatRank]

/-- Negation reverses the order. -/
theorem float_neg_lt_neg (hx : x.isFinite = true) (hy : y.isFinite = true) : -x < -y ↔ y < x := by
  rw [lt_iff_floatRank (isNaN_neg hx) (isNaN_neg hy), floatRank_neg hx, floatRank_neg hy,
    negRank_lt_negRank, ← lt_iff_floatRank (isNaN_of_isFinite hy) (isNaN_of_isFinite hx)]

theorem float_neg_beq_neg (hx : x.isFinite = true) (hy : y.isFinite = true) :
    (-x == -y) = true ↔ (x == y) = true := by
  rw [beq_iff_floatRank (isNaN_neg hx) (isNaN_neg hy), floatRank_neg hx, floatRank_neg hy, negRank_inj,
    ← beq_iff_floatRank (isNaN_of_isFinite hx) (isNaN_of_isFinite hy)]

end Py
