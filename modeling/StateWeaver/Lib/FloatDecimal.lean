import Mathlib
import StateWeaver.Lib.Binary64

/-!
# Floats as binary64 numbers

Lean's floats are bit patterns that unpack into a sign, a mantissa and an exponent. `magnitude?` is the
positive number behind a finite float other than zero, and `decimal` the value of the text that `repr`
prints. The order of the floats is the order of these values.
-/

namespace Py

open Binary64 Float.Model

/-- The number that a finite float other than zero is, up to its sign. -/
def magnitude? (x : Float) : Option Magnitude :=
  match x.toModel.unpack with
  | .finite _ mantissa exponent _ =>
      if h : Canonical mantissa exponent then some ⟨mantissa, exponent, h⟩ else none
  | _ => none

/-- Whether the sign of a number is negative. -/
def isNegative (x : Float) : Bool :=
  match x.toModel.unpack with
  | .finite .negative _ _ _ | .zero .negative | .infinity .negative => true
  | _ => false

/-- `Decimal(str(x))` of a finite number. -/
def decimal (x : Float) : ℚ :=
  match magnitude? x with
  | some m => if isNegative x then -m.shortest.value else m.shortest.value
  | none => 0

theorem canonical_subnormal {M : BitVec 52} (hM : 0 < M.toNat) : Canonical M.toNat (-1074) := by
  have hmantissa := M.isLt
  exact ⟨hM, by omega, le_refl _, Or.inr rfl⟩

theorem toNat_one_append (M : BitVec 52) : (1#1 ++ M).toNat = 2 ^ 52 + M.toNat := by
  rw [BitVec.toNat_append, ← Nat.shiftLeft_add_eq_or_of_lt M.isLt]
  rfl

theorem canonical_normal {E : BitVec 11} {M : BitVec 52} (hE : E ≠ 0#11) :
    Canonical (1#1 ++ M).toNat (E.toNat - 1075) := by
  have hmantissa := M.isLt
  have hpositive : E.toNat ≠ 0 := fun hzero => hE (BitVec.eq_of_toNat_eq hzero)
  rw [toNat_one_append]
  exact ⟨by omega, by omega, by omega, Or.inl (by omega)⟩

/-- Floats are stored in canonical form. -/
theorem canonical_of_unpack {x : Float} {sign : UnpackedFloat.Sign} {mantissa : ℕ} {exponent : ℤ}
    {hpos : 0 < mantissa} (h : x.toModel.unpack = .finite sign mantissa exponent hpos) :
    Canonical mantissa exponent := by
  rw [Float.Model.unpack, UnpackedFloat.unpack] at h
  split at h
  · split at h <;> cases h
  · split at h
    · next hzero =>
        split at h
        · cases h
        · cases h
          rw [hzero]
          exact canonical_subnormal hpos
    · next hnonzero =>
        cases h
        exact canonical_normal hnonzero

/-- A finite float other than zero is a number. -/
theorem magnitude?_of_unpack {x : Float} {sign : UnpackedFloat.Sign} {mantissa : ℕ} {exponent : ℤ}
    {hpos : 0 < mantissa} (h : x.toModel.unpack = .finite sign mantissa exponent hpos) :
    magnitude? x = some ⟨mantissa, exponent, canonical_of_unpack h⟩ := by
  rw [magnitude?, h]
  exact dif_pos (canonical_of_unpack h)

/-! ## Order -/

theorem lt_iff_unpack {x y : Float} : x < y ↔ x.toModel.unpack.lt y.toModel.unpack = true := by
  show Float.lt x y = true ↔ _
  rw [Float.lt, decide_eq_true_eq]
  rfl

theorem le_iff_unpack {x y : Float} : x ≤ y ↔ x.toModel.unpack.le y.toModel.unpack = true := by
  show Float.le x y = true ↔ _
  rw [Float.le, decide_eq_true_eq]
  rfl

/-- A positive finite float is a number. -/
theorem exists_magnitude {x : Float} (hpos : 0 < x) (hfinite : x.isFinite = true) :
    ∃ mantissa exponent h, x.toModel.unpack = .finite .positive mantissa exponent h := by
  rw [lt_iff_unpack, UnpackedFloat.lt,
    show (0 : Float).toModel.unpack = .zero .positive from rfl] at hpos
  rw [Float.isFinite, Float.Model.isFinite] at hfinite
  cases hunpack : x.toModel.unpack with
  | notANumber =>
      rw [hunpack] at hpos
      cases hpos
  | infinity sign =>
      rw [hunpack] at hfinite
      cases hfinite
  | zero sign =>
      rw [hunpack] at hpos
      cases hpos
  | finite sign mantissa exponent h =>
      cases sign with
      | positive => exact ⟨mantissa, exponent, h, rfl⟩
      | negative =>
          rw [hunpack] at hpos
          cases hpos

/-- A positive number up to a finite bound is finite. -/
theorem isFinite_of_le {x y : Float} (hpos : 0 < x) (hle : x ≤ y) (hy : y.isFinite = true) :
    x.isFinite = true := by
  rw [lt_iff_unpack, UnpackedFloat.lt,
    show (0 : Float).toModel.unpack = .zero .positive from rfl] at hpos
  rw [le_iff_unpack, UnpackedFloat.le] at hle
  rw [Float.isFinite, Float.Model.isFinite] at hy ⊢
  cases hx : x.toModel.unpack with
  | notANumber =>
      rw [hx] at hpos
      cases hpos
  | infinity sign =>
      rw [hx] at hpos hle
      cases sign with
      | negative => cases hpos
      | positive =>
          cases hunpack : y.toModel.unpack with
          | notANumber =>
              rw [hunpack] at hy
              cases hy
          | infinity sign' =>
              rw [hunpack] at hy
              cases hy
          | zero sign' =>
              rw [hunpack] at hle
              cases hle
          | finite sign' mantissa exponent h =>
              rw [hunpack] at hle
              cases hle
  | zero sign => rfl
  | finite sign mantissa exponent h => rfl

/-- What `repr` prints of positive numbers is in the order of the numbers. -/
theorem decimal_mono {x y : Float} (hx : 0 < x) (hxFinite : x.isFinite = true) (hy : 0 < y)
    (hyFinite : y.isFinite = true) (h : x ≤ y) : decimal x ≤ decimal y := by
  obtain ⟨m, e, hm, hunpack⟩ := exists_magnitude hx hxFinite
  obtain ⟨m', e', hm', hunpack'⟩ := exists_magnitude hy hyFinite
  rw [decimal, decimal, magnitude?_of_unpack hunpack, magnitude?_of_unpack hunpack', isNegative,
    isNegative, hunpack, hunpack']
  refine Magnitude.shortest_mono (le_of_not_gt fun hgt => ?_)
  rw [le_iff_unpack, hunpack, hunpack', UnpackedFloat.le, UnpackedFloat.compare, Option.any_some]
    at h
  rcases Magnitude.value_lt_iff.mp hgt with hlt | ⟨heq, hlt⟩
  · have hcompare : compare e e' = .gt := compare_gt_iff_gt.mpr hlt
    rw [hcompare] at h
    cases h
  · have hcompare : compare e e' = .eq := compare_eq_iff_eq.mpr heq.symm
    have hcompare' : compare m m' = .gt := compare_gt_iff_gt.mpr hlt
    rw [hcompare, hcompare'] at h
    cases h

/-! ## Parts -/

/-- The three parts of a bit pattern tell the pattern. -/
theorem eq_of_parts_eq {b b' : BitVec Format.binary64.numBits}
    (hsign : UnpackedFloat.unpackSign b = UnpackedFloat.unpackSign b')
    (hexponent : UnpackedFloat.unpackExponent b = UnpackedFloat.unpackExponent b')
    (hmantissa : UnpackedFloat.unpackMantissa b = UnpackedFloat.unpackMantissa b') : b = b' := by
  refine BitVec.eq_of_getLsbD_eq fun i hi => ?_
  rcases lt_or_ge i 52 with h | h
  · have hbit := congrArg (·.getLsbD i) hmantissa
    simpa [UnpackedFloat.unpackMantissa, h, show i < 52 from h] using hbit
  · rcases lt_or_ge i 63 with h' | h'
    · have hbit := congrArg (·.getLsbD (i - 52)) hexponent
      have hadd : 52 + (i - 52) = i := by omega
      have hlt : i - 52 < 11 := by omega
      have hle : i - 52 ≤ 10 := by omega
      simpa [UnpackedFloat.unpackExponent, hadd, hlt, hle] using hbit
    · have hlast : i = 63 := by
        change i < 64 at hi
        omega
      have hbit := congrArg (·.getLsbD 0) hsign
      simpa [UnpackedFloat.unpackSign, hlast] using hbit

theorem ofBitVec_inj {s s' : BitVec 1}
    (h : UnpackedFloat.Sign.ofBitVec s = UnpackedFloat.Sign.ofBitVec s') : s = s' := by
  rcases BitVec.eq_zero_or_eq_one s with rfl | rfl <;>
    rcases BitVec.eq_zero_or_eq_one s' with rfl | rfl <;> first | rfl | cases h

/-- What a bit pattern with some parts unpacks to, if that is a finite number. -/
inductive Unpacks (s : BitVec 1) : BitVec 11 → BitVec 52 → UnpackedFloat → Prop
  | zero : Unpacks s 0#11 0#52 (.zero (.ofBitVec s))
  | subnormal {M : BitVec 52} (hpos : 0 < M.toNat) :
      Unpacks s 0#11 M (.finite (.ofBitVec s) M.toNat (-1074) hpos)
  | normal {E : BitVec 11} {M : BitVec 52} {mantissa : ℕ} (hE : E ≠ 0#11)
      (hmantissa : mantissa = 2 ^ 52 + M.toNat) (hpos : 0 < mantissa) :
      Unpacks s E M (.finite (.ofBitVec s) mantissa (E.toNat - 1075) hpos)

theorem unpacks {b : BitVec Format.binary64.numBits}
    (h : UnpackedFloat.isFinite (UnpackedFloat.unpack .binary64 b) = true) :
    Unpacks (UnpackedFloat.unpackSign b) (UnpackedFloat.unpackExponent b)
      (UnpackedFloat.unpackMantissa b) (UnpackedFloat.unpack .binary64 b) := by
  rw [UnpackedFloat.unpack] at h ⊢
  simp only at h ⊢
  split at h
  · split at h <;> cases h
  · next hfinite =>
      rw [if_neg hfinite]
      split
      · next hzero =>
          rw [hzero]
          split
          · next hM =>
              rw [hM]
              exact .zero
          · next hM => exact .subnormal _
      · next hnonzero => exact .normal hnonzero (toNat_one_append _) _

theorem Unpacks.parts_eq {s s' : BitVec 1} {E E' : BitVec 11} {M M' : BitVec 52} {u u' : UnpackedFloat}
    (h : Unpacks s E M u) (h' : Unpacks s' E' M' u') (heq : u = u') : s = s' ∧ E = E' ∧ M = M' := by
  have hM := M.isLt
  have hM' := M'.isLt
  cases h with
  | zero =>
      cases h' with
      | zero => exact ⟨ofBitVec_inj (UnpackedFloat.zero.inj heq), rfl, rfl⟩
      | subnormal hpos => cases heq
      | normal hE hmantissa hpos => cases heq
  | subnormal hpos =>
      cases h' with
      | zero => cases heq
      | subnormal hpos' =>
          obtain ⟨hsign, hmantissa, -⟩ := UnpackedFloat.finite.inj heq
          exact ⟨ofBitVec_inj hsign, rfl, BitVec.eq_of_toNat_eq hmantissa⟩
      | normal hE' hmantissa' hpos' =>
          obtain ⟨-, hmantissa, -⟩ := UnpackedFloat.finite.inj heq
          omega
  | normal hE hmantissa hpos =>
      cases h' with
      | zero => cases heq
      | subnormal hpos' =>
          obtain ⟨-, hmantissa', -⟩ := UnpackedFloat.finite.inj heq
          omega
      | normal hE' hmantissa' hpos' =>
          obtain ⟨hsign, hmantissas, hexponents⟩ := UnpackedFloat.finite.inj heq
          refine ⟨ofBitVec_inj hsign, BitVec.eq_of_toNat_eq ?_, BitVec.eq_of_toNat_eq ?_⟩
          · omega
          · omega

/-- A finite float is the only one with its sign, mantissa and exponent. -/
theorem eq_of_unpack_eq {x y : Float} (hx : x.isFinite = true)
    (h : x.toModel.unpack = y.toModel.unpack) : x = y := by
  rw [Float.isFinite, Float.Model.isFinite] at hx
  have hy := hx
  rw [h] at hy
  rw [Float.Model.unpack] at hx hy
  rw [Float.Model.unpack, Float.Model.unpack] at h
  obtain ⟨hsign, hexponent, hmantissa⟩ := (unpacks hx).parts_eq (unpacks hy) h
  have hbits := eq_of_parts_eq hsign hexponent hmantissa
  obtain ⟨⟨bits, hvalid⟩⟩ := x
  obtain ⟨⟨bits', hvalid'⟩⟩ := y
  have heq : bits = bits' := UInt64.toBitVec_inj.mp hbits
  subst heq
  rfl

end Py
