import StateWeaver.Lib.FloatOrder

/-!
# Orders of magnitude of products and quotients

A float spans `a` to `b` if it is at least `2 ^ a` and less than `2 ^ (b + 1)`. Rounding moves a number up
to the next power of two at most, so the span of a product or a quotient follows from those of its parts.
-/

namespace Py

open Float.Model Float.Model.UnpackedFloat

/-! ## Rounding -/

theorem mantissa_shiftRight (em : ExtendedMantissa) (k : ℕ) : (em >>> k).mantissa = em.mantissa / 2 ^ k := by
  induction k with
  | zero => exact (Nat.div_one _).symm
  | succ k ih =>
      change ((em >>> k).mantissa) / 2 = _
      rw [ih, Nat.div_div_eq_div_mul, Nat.pow_succ]

/-- Rounding keeps the mantissa or adds one. -/
theorem roundedMantissa_eq (em : ExtendedMantissa) :
    em.roundedMantissa = em.mantissa ∨ em.roundedMantissa = em.mantissa + 1 := by
  obtain ⟨m, roundBit, stickyBit⟩ := em
  cases roundBit <;> cases stickyBit
  · exact .inl rfl
  · exact .inl rfl
  · change m + m % 2 = m ∨ m + m % 2 = m + 1
    omega
  · exact .inr rfl

theorem mantissa_ofMantissaAndAccuracy (m : ℕ) (accuracy : Accuracy) :
    (ExtendedMantissa.ofMantissaAndAccuracy m accuracy).mantissa = m := by
  cases accuracy with
  | exact => rfl
  | inexact order => cases order <;> rfl

theorem targetExponent_eq {m : ℕ} {e : ℤ} (h : -1022 ≤ m.log2 + e) :
    Format.binary64.targetExponent (totalExponent m e) = m.log2 + e - 52 := by
  have hmin : Format.binary64.minExponent = -1074 := by decide
  have hbits : Format.binary64.mantissaBits = 53 := rfl
  rw [Format.targetExponent, totalExponent, hmin, hbits]
  omega

theorem shiftToTargetExponent_eq {m : ℕ} {e : ℤ} (accuracy : Accuracy) (h : -1022 ≤ m.log2 + e)
    (hm : 52 ≤ m.log2) :
    shiftToTargetExponent .binary64 m e accuracy =
      (ExtendedMantissa.ofMantissaAndAccuracy m accuracy >>> (m.log2 - 52), m.log2 + e - 52) := by
  rw [shiftToTargetExponent, shiftToExponent, targetExponent_eq h]
  have hshift : (↑m.log2 + e - 52 - e).toNat = m.log2 - 52 := by omega
  rw [hshift]
  refine Prod.ext rfl ?_
  change e + ((m.log2 - 52 : ℕ) : ℤ) = _
  omega

theorem log2_eq {m k : ℕ} (hlower : 2 ^ k ≤ m) (hupper : m < 2 ^ (k + 1)) : m.log2 = k := by
  have hne : m ≠ 0 := (lt_of_lt_of_le (Nat.two_pow_pos k) hlower).ne'
  exact le_antisymm (Nat.lt_succ_iff.mp ((Nat.log2_lt hne).mpr hupper)) ((Nat.le_log2 hne).mpr hlower)

theorem log2_bounds {m k : ℕ} (h : m.log2 = k) (hm : 0 < m) : 2 ^ k ≤ m ∧ m < 2 ^ (k + 1) :=
  ⟨(Nat.le_log2 hm.ne').mp h.ge, (Nat.log2_lt hm.ne').mp (Nat.lt_succ_of_le h.le)⟩

/-- A number with enough digits is rounded to a normal one of its order of magnitude or the next. -/
theorem roundWithAccuracy_eq (sign : Sign) {m : ℕ} {e : ℤ} (accuracy : Accuracy) (hpos : 0 < m)
    (hm : 52 ≤ m.log2) (h : -1022 ≤ m.log2 + e) :
    ∃ m' e' h', roundWithAccuracy .binary64 sign m e accuracy = .finite sign m' e' h' ∧ m'.log2 = 52 ∧
      m.log2 + e ≤ e' + 52 ∧ e' + 52 ≤ m.log2 + e + 1 := by
  set em := ExtendedMantissa.ofMantissaAndAccuracy m accuracy >>> (m.log2 - 52) with hem
  have hmantissa : em.mantissa = m / 2 ^ (m.log2 - 52) := by
    rw [hem, mantissa_shiftRight, mantissa_ofMantissaAndAccuracy]
  have hsplit : 2 ^ m.log2 = 2 ^ 52 * 2 ^ (m.log2 - 52) := by
    rw [← Nat.pow_add, Nat.add_sub_cancel' hm]
  obtain ⟨hge, hlt⟩ := log2_bounds rfl hpos
  have hlower : 2 ^ 52 ≤ em.mantissa := by
    rw [hmantissa, Nat.le_div_iff_mul_le (Nat.two_pow_pos _), ← hsplit]
    exact hge
  have hupper : em.mantissa < 2 ^ 53 := by
    rw [hmantissa, Nat.div_lt_iff_lt_mul (Nat.two_pow_pos _)]
    refine lt_of_lt_of_eq hlt ?_
    rw [Nat.pow_succ, hsplit, Nat.mul_right_comm, ← Nat.pow_succ]
  have hrounded : 2 ^ 52 ≤ em.roundedMantissa ∧ em.roundedMantissa ≤ 2 ^ 53 := by
    rcases roundedMantissa_eq em with hrounded | hrounded <;> omega
  have hbits : em.roundedMantissa.log2 = 52 ∨ em.roundedMantissa = 2 ^ 53 := by
    rcases hrounded.2.lt_or_eq with hsmall | hcarry
    · exact .inl (log2_eq hrounded.1 hsmall)
    · exact .inr hcarry
  have hround : ∀ {m' : ℕ} {e' : ℤ}, 0 < m' →
      (shiftToTargetExponent .binary64 em.roundedMantissa (m.log2 + e - 52) .exact).1.mantissa = m' →
      (shiftToTargetExponent .binary64 em.roundedMantissa (m.log2 + e - 52) .exact).2 = e' →
      ∃ h', roundWithAccuracy .binary64 sign m e accuracy = .finite sign m' e' h' := by
    rintro m' e' hpos' rfl rfl
    refine ⟨hpos', ?_⟩
    rw [roundWithAccuracy, shiftToTargetExponent_eq accuracy h hm]
    exact dif_neg hpos'.ne'
  rcases hbits with hbits | hcarry
  · have hshift := shiftToTargetExponent_eq (e := m.log2 + e - 52) .exact
      (by rw [hbits]; omega) hbits.ge
    rw [hbits] at hshift
    obtain ⟨h', heq⟩ := hround (lt_of_lt_of_le (Nat.two_pow_pos 52) hrounded.1)
      (by rw [hshift, mantissa_shiftRight]; exact Nat.div_one _) (by rw [hshift])
    exact ⟨_, _, h', heq, hbits, by omega, by omega⟩
  · have hlog : em.roundedMantissa.log2 = 53 := by rw [hcarry, Nat.log2_two_pow]
    have hshift := shiftToTargetExponent_eq (e := m.log2 + e - 52) .exact
      (by rw [hlog]; omega) (by omega)
    rw [hlog] at hshift
    obtain ⟨h', heq⟩ := hround (Nat.two_pow_pos 52)
      (by rw [hshift, mantissa_shiftRight, mantissa_ofMantissaAndAccuracy, hcarry]; rfl)
      (by rw [hshift])
    exact ⟨_, _, h', heq, Nat.log2_two_pow, by omega, by omega⟩

/-! ## Packing -/

/-- A normal number of the format is packed and unpacked without a change. -/
theorem unpack_pack {sign : Sign} {m : ℕ} {e : ℤ} {h : 0 < m} (hm : m.log2 = 52)
    (hlower : -1022 ≤ e + 52) (hupper : e + 52 ≤ 1023) :
    (Float.Model.pack (.finite sign m e h)).unpack = .finite sign m e h := by
  obtain ⟨hge, hlt⟩ := log2_bounds hm h
  obtain ⟨biased, hbiased⟩ : ∃ biased : ℕ, (biased : ℤ) = e + 1023 + 52 := ⟨(e + 1075).toNat, by omega⟩
  have hpack : UnpackedFloat.pack .binary64 (.finite sign m e h) =
      packComponents .binary64 sign (BitVec.ofNat 11 biased) (BitVec.ofNat 52 m) := by
    have hexponent : (e + (Format.binary64.exponentBias : ℤ) +
        (Format.binary64.mantissaBitsWithoutImplicit : ℤ)).toNat = biased := by
      change (e + 1023 + 52).toNat = biased
      omega
    rw [UnpackedFloat.pack]
    simp only [hexponent]
    rw [if_neg (by change ¬2048 ≤ biased + 1; omega), if_pos (by rw [hm]; rfl)]
  have htoNat : (BitVec.ofNat 11 biased).toNat = biased := by
    rw [BitVec.toNat_ofNat, Nat.mod_eq_of_lt (by omega)]
  have hzero : BitVec.ofNat 11 biased ≠ 0#11 := fun heq => by
    have hnat := congrArg BitVec.toNat heq
    rw [htoNat] at hnat
    change biased = 0 at hnat
    omega
  have hones : BitVec.ofNat 11 biased ≠ -1#11 := fun heq => by
    have hnat := congrArg BitVec.toNat heq
    rw [htoNat] at hnat
    change biased = 2047 at hnat
    omega
  have hmantissa : (1#1 ++ BitVec.ofNat 52 m).toNat = m := by
    rw [toNat_one_append, BitVec.toNat_ofNat]
    omega
  change UnpackedFloat.unpack .binary64 (UnpackedFloat.pack .binary64 (.finite sign m e h)) = _
  rw [hpack, UnpackedFloat.unpack]
  simp only [unpackExponent_packComponents, unpackMantissa_packComponents, unpackSign_packComponents,
    ofBitVec_toBitVec]
  rw [if_neg hones, if_neg hzero]
  have hexponent : ((BitVec.ofNat 11 biased).toNat : ℤ) -
      (Format.binary64.exponentBias + Format.binary64.mantissaBitsWithoutImplicit) = e := by
    rw [htoNat]
    change (biased : ℤ) - (1023 + 52) = e
    omega
  simp only [UnpackedFloat.finite.injEq]
  exact ⟨trivial, hmantissa, hexponent⟩

/-! ## Spans -/

/-- A positive float that is at least `2 ^ a` and less than `2 ^ (b + 1)`. -/
def Spans (x : Float) (a b : ℤ) : Prop :=
  match x.toModel.unpack with
  | .finite .positive m e _ => m.log2 = 52 ∧ a ≤ e + 52 ∧ e + 52 ≤ b
  | _ => False

instance (x : Float) (a b : ℤ) : Decidable (Spans x a b) := by
  unfold Spans
  split <;> infer_instance

variable {a b c d : ℤ}

theorem spans_iff : Spans x a b ↔ ∃ m e h, x.toModel.unpack = .finite .positive m e h ∧ m.log2 = 52 ∧
    a ≤ e + 52 ∧ e + 52 ≤ b := by
  rw [Spans]
  constructor
  · intro h
    split at h
    · next m e hpos heq => exact ⟨m, e, hpos, heq, h⟩
    · cases h
  · rintro ⟨m, e, h, heq, hspan⟩
    rw [heq]
    exact hspan

theorem Spans.mono (h : Spans x a b) (ha : c ≤ a) (hb : b ≤ d) : Spans x c d := by
  obtain ⟨m, e, hpos, heq, hm, hlower, hupper⟩ := spans_iff.mp h
  exact spans_iff.mpr ⟨m, e, hpos, heq, hm, ha.trans hlower, hupper.trans hb⟩

/-- What is rounded and packed has a span. -/
theorem spans_of_round {m : ℕ} {e : ℤ} (accuracy : Accuracy)
    (hx : x.toModel = Float.Model.pack (roundWithAccuracy .binary64 .positive m e accuracy)) (hpos : 0 < m)
    (hm : 52 ≤ m.log2) (hlower : a ≤ m.log2 + e) (hupper : m.log2 + e + 1 ≤ b) (ha : -1022 ≤ a)
    (hb : b ≤ 1023) : Spans x a b := by
  obtain ⟨m', e', h', hround, hm', hge, hle⟩ := roundWithAccuracy_eq .positive accuracy hpos hm (ha.trans hlower)
  refine spans_iff.mpr ⟨m', e', h', ?_, hm', by omega, by omega⟩
  rw [hx, hround, unpack_pack hm' (by omega) (by omega)]

theorem Spans.mul (hx : Spans x a b) (hy : Spans y c d) (ha : -1022 ≤ a + c) (hb : b + d + 2 ≤ 1023) :
    Spans (x * y) (a + c) (b + d + 2) := by
  obtain ⟨m, e, h, hxe, hm, hlower, hupper⟩ := spans_iff.mp hx
  obtain ⟨m', e', h', hye, hm', hlower', hupper'⟩ := spans_iff.mp hy
  obtain ⟨hge, hlt⟩ := log2_bounds hm h
  obtain ⟨hge', hlt'⟩ := log2_bounds hm' h'
  have hproduct : 2 ^ 52 * 2 ^ 52 ≤ m * m' ∧ m * m' < 2 ^ 53 * 2 ^ 53 :=
    ⟨Nat.mul_le_mul hge hge', Nat.mul_lt_mul'' hlt hlt'⟩
  rw [← Nat.pow_add, ← Nat.pow_add] at hproduct
  have hpos := Nat.mul_pos h h'
  have hlog : 104 ≤ (m * m').log2 ∧ (m * m').log2 ≤ 105 :=
    ⟨(Nat.le_log2 hpos.ne').mpr hproduct.1, Nat.lt_succ_iff.mp ((Nat.log2_lt hpos.ne').mpr hproduct.2)⟩
  refine spans_of_round (m := m * m') (e := e + e') .exact ?_ hpos (by omega) (by omega) (by omega) ha hb
  change Float.Model.pack (UnpackedFloat.mul .binary64 x.toModel.unpack y.toModel.unpack) = _
  rw [hxe, hye]
  rfl

theorem Spans.div (hx : Spans x a b) (hy : Spans y c d) (ha : -1022 ≤ a - d - 1) (hb : b - c + 1 ≤ 1023) :
    Spans (x / y) (a - d - 1) (b - c + 1) := by
  obtain ⟨m, e, h, hxe, hm, hlower, hupper⟩ := spans_iff.mp hx
  obtain ⟨m', e', h', hye, hm', hlower', hupper'⟩ := spans_iff.mp hy
  obtain ⟨hge, hlt⟩ := log2_bounds hm h
  obtain ⟨hge', hlt'⟩ := log2_bounds hm' h'
  -- the quotient is computed with 53 more bits
  have hcore : divCore .binary64 m e m' e' =
      (m * 2 ^ 53 / m', e - e' - 53, accuracyOfFraction (m * 2 ^ 53 % m') m') := by
    have htarget : min (e - e') (Format.binary64.targetExponent (totalExponent m e - totalExponent m' e')) =
        e - e' - 53 := by
      have hmin : Format.binary64.minExponent = -1074 := by decide
      have hbits : Format.binary64.mantissaBits = 53 := rfl
      rw [Format.targetExponent, totalExponent, totalExponent, hmin, hbits, hm, hm']
      omega
    have hshift : (e - e' - (e - e' - 53)).toNat = 53 := by omega
    rw [divCore]
    simp only [htarget, hshift, Nat.shiftLeft_eq]
  have hquotient : 2 ^ 52 ≤ m * 2 ^ 53 / m' ∧ m * 2 ^ 53 / m' < 2 ^ 54 := by
    rw [Nat.le_div_iff_mul_le h', Nat.div_lt_iff_lt_mul h']
    omega
  have hpos : 0 < m * 2 ^ 53 / m' := lt_of_lt_of_le (Nat.two_pow_pos 52) hquotient.1
  have hlog : 52 ≤ (m * 2 ^ 53 / m').log2 ∧ (m * 2 ^ 53 / m').log2 ≤ 53 :=
    ⟨(Nat.le_log2 hpos.ne').mpr hquotient.1, Nat.lt_succ_iff.mp ((Nat.log2_lt hpos.ne').mpr hquotient.2)⟩
  refine spans_of_round (m := m * 2 ^ 53 / m') (e := e - e' - 53)
    (accuracyOfFraction (m * 2 ^ 53 % m') m') ?_ hpos (by omega) (by omega) (by omega) ha hb
  change Float.Model.pack (UnpackedFloat.div .binary64 x.toModel.unpack y.toModel.unpack) = _
  rw [hxe, hye]
  simp only [UnpackedFloat.div, hcore]
  rfl

theorem le_finite {m m' : ℕ} {e e' : ℤ} {h : 0 < m} {h' : 0 < m'} :
    (UnpackedFloat.finite .positive m e h).le (.finite .positive m' e' h') = true ↔
      e < e' ∨ e = e' ∧ m ≤ m' := by
  change Ordering.isLE ((compare e e').then (compare m m')) = true ↔ _
  rw [Ordering.isLE_iff_ne_gt, then_eq_gt]
  omega

theorem Spans.isFinite (hx : Spans x a b) : x.isFinite = true := by
  obtain ⟨m, e, h, hxe, -⟩ := spans_iff.mp hx
  rw [Float.isFinite, Float.Model.isFinite, hxe]
  rfl

/-- What is between two floats that have spans has a span. -/
theorem Spans.between {l u : Float} (hl : Spans l a c) (hlx : l ≤ x) (hxu : x ≤ u) (hu : Spans u d b) :
    Spans x a b := by
  have hfinite := isFinite_of_between hlx hxu hl.isFinite hu.isFinite
  obtain ⟨m, e, h, hle, hm, ha, -⟩ := spans_iff.mp hl
  obtain ⟨m', e', h', hue, hm', -, hb⟩ := spans_iff.mp hu
  rw [le_iff_unpack, hle] at hlx
  rw [le_iff_unpack, hue] at hxu
  rw [Float.isFinite, Float.Model.isFinite] at hfinite
  cases hx : x.toModel.unpack with
  | notANumber | infinity s =>
      rw [hx] at hfinite
      cases hfinite
  | zero s =>
      rw [hx] at hlx
      cases hlx
  | finite s m'' e'' h'' =>
      rw [hx] at hlx hxu
      cases s with
      | negative => cases hlx
      | positive =>
          have hlower := le_finite.mp hlx
          have hupper := le_finite.mp hxu
          obtain ⟨-, hlt, hmin, hnormal⟩ := canonical_of_unpack hx
          obtain ⟨-, -, hmin', -⟩ := canonical_of_unpack hle
          obtain ⟨hge, -⟩ := log2_bounds hm h
          refine spans_iff.mpr ⟨m'', e'', h'', hx, log2_eq ?_ hlt, by omega, by omega⟩
          omega

theorem Spans.le (hx : Spans x a b) (hy : Spans y c d) (h : b < c) : x ≤ y := by
  obtain ⟨m, e, hm, hxe, -, -, hb⟩ := spans_iff.mp hx
  obtain ⟨m', e', hm', hye, -, hc, -⟩ := spans_iff.mp hy
  rw [le_iff_unpack, hxe, hye, le_finite]
  omega

theorem float_le_of_lt {x y : Float} (h : x < y) : x ≤ y := by
  rw [lt_iff_unpack, UnpackedFloat.lt, beq_iff_eq] at h
  rw [le_iff_unpack, UnpackedFloat.le, h]
  rfl

theorem Spans.nonneg (hx : Spans x a b) : 0.0 ≤ x := by
  obtain ⟨m, e, hm, hxe, -⟩ := spans_iff.mp hx
  have hzero : (0.0 : Float).toModel.unpack = .zero .positive := rfl
  rw [le_iff_unpack, hxe, hzero]
  rfl

end Py
