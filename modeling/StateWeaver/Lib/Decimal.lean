import Mathlib

/-!
# Decimal rounding

Rounding of rationals to a number of significant decimal digits, ties to the even neighbour. Rounding
is monotone, which is all that a comparison of rounded values needs.
-/

namespace Decimal

/-! ## Rounding to an integer -/

/-- The nearest integer; of two nearest, the even one. -/
def halfEven (x : ℚ) : ℤ :=
  if x - ⌊x⌋ < 1 / 2 then ⌊x⌋
  else if 1 / 2 < x - ⌊x⌋ then ⌊x⌋ + 1
  else if ⌊x⌋ % 2 = 0 then ⌊x⌋ else ⌊x⌋ + 1

theorem floor_le_halfEven (x : ℚ) : ⌊x⌋ ≤ halfEven x := by
  rw [halfEven]
  split_ifs <;> omega

theorem halfEven_le_floor_add_one (x : ℚ) : halfEven x ≤ ⌊x⌋ + 1 := by
  rw [halfEven]
  split_ifs <;> omega

/-- A rounded number is at most a half away. -/
theorem abs_halfEven_sub_le (x : ℚ) : |(halfEven x : ℚ) - x| ≤ 1 / 2 := by
  have hfloor := Int.floor_le x
  have hlt := Int.lt_floor_add_one x
  rw [abs_le, halfEven]
  split_ifs with h₁ h₂ h₃
  · constructor <;> linarith
  · push_cast
    constructor <;> linarith
  · constructor <;> linarith
  · push_cast
    constructor <;> linarith

theorem halfEven_intCast (n : ℤ) : halfEven n = n := by
  rw [halfEven, Int.floor_intCast, sub_self, if_pos (by norm_num)]

theorem halfEven_mono {x y : ℚ} (h : x ≤ y) : halfEven x ≤ halfEven y := by
  rcases (Int.floor_le_floor h).lt_or_eq with hlt | heq
  · calc halfEven x ≤ ⌊x⌋ + 1 := halfEven_le_floor_add_one x
      _ ≤ ⌊y⌋ := hlt
      _ ≤ halfEven y := floor_le_halfEven y
  · rw [halfEven, halfEven, heq]
    have hfraction : x - ⌊y⌋ ≤ y - ⌊y⌋ := sub_le_sub_right h _
    split_ifs <;> first | omega | (exfalso; linarith)

/-! ## Rounding to significant digits -/

/-- The exponent of the last of `digits` significant digits of a positive number. -/
def lastExponent (digits : ℕ) (x : ℚ) : ℤ := Int.log 10 x + 1 - digits

/-- A positive number rounded to `digits` significant digits; what is not positive becomes zero. -/
def roundTo (digits : ℕ) (x : ℚ) : ℚ :=
  if 0 < x then halfEven (x / 10 ^ lastExponent digits x) * 10 ^ lastExponent digits x else 0

theorem zpow_ten_pos (e : ℤ) : (0 : ℚ) < 10 ^ e := zpow_pos (by norm_num) e

/-- Rounding to a multiple of a power of ten moves a number by at most half of that power. -/
theorem abs_halfEven_mul_sub_le (x : ℚ) (e : ℤ) :
    |(halfEven (x / 10 ^ e) : ℚ) * 10 ^ e - x| ≤ 10 ^ e / 2 := by
  have hpos := zpow_ten_pos e
  have hdist := abs_halfEven_sub_le (x / 10 ^ e)
  have hscale : (halfEven (x / 10 ^ e) : ℚ) * 10 ^ e - x =
      ((halfEven (x / 10 ^ e) : ℚ) - x / 10 ^ e) * 10 ^ e := by
    rw [sub_mul, div_mul_cancel₀ x (ne_of_gt hpos)]
  rw [hscale, abs_mul, abs_of_pos hpos]
  nlinarith

theorem pow_log_le {x : ℚ} (h : 0 < x) : (10 : ℚ) ^ Int.log 10 x ≤ x := by
  have hle := Int.zpow_log_le_self (b := 10) (by norm_num) h
  exact_mod_cast hle

theorem lt_pow_log {x : ℚ} : x < (10 : ℚ) ^ (Int.log 10 x + 1) := by
  have hlt := Int.lt_zpow_succ_log_self (b := 10) (by norm_num) x
  exact_mod_cast hlt

/-- A number that an integer power of ten bounds is rounded within that bound. -/
theorem halfEven_mul_le {x : ℚ} {e : ℤ} {n : ℕ} (h : x ≤ 10 ^ (e + n)) :
    (halfEven (x / 10 ^ e) : ℚ) * 10 ^ e ≤ 10 ^ (e + n) := by
  have hpos := zpow_ten_pos e
  have hsplit : (10 : ℚ) ^ (e + n) = ((10 ^ n : ℤ) : ℚ) * 10 ^ e := by
    rw [zpow_add₀ (by norm_num), zpow_natCast, mul_comm]
    push_cast
    rfl
  have hquotient : x / 10 ^ e ≤ ((10 ^ n : ℤ) : ℚ) := by
    rw [div_le_iff₀ hpos, ← hsplit]
    exact h
  have hround := halfEven_mono hquotient
  rw [halfEven_intCast] at hround
  rw [hsplit]
  exact mul_le_mul_of_nonneg_right (by exact_mod_cast hround) (le_of_lt hpos)

theorem le_halfEven_mul {x : ℚ} {e : ℤ} {n : ℕ} (h : 10 ^ (e + n) ≤ x) :
    10 ^ (e + n) ≤ (halfEven (x / 10 ^ e) : ℚ) * 10 ^ e := by
  have hpos := zpow_ten_pos e
  have hsplit : (10 : ℚ) ^ (e + n) = ((10 ^ n : ℤ) : ℚ) * 10 ^ e := by
    rw [zpow_add₀ (by norm_num), zpow_natCast, mul_comm]
    push_cast
    rfl
  have hquotient : ((10 ^ n : ℤ) : ℚ) ≤ x / 10 ^ e := by
    rw [le_div_iff₀ hpos, ← hsplit]
    exact h
  have hround := halfEven_mono hquotient
  rw [halfEven_intCast] at hround
  rw [hsplit]
  exact mul_le_mul_of_nonneg_right (by exact_mod_cast hround) (le_of_lt hpos)

theorem roundTo_nonneg (digits : ℕ) (x : ℚ) : 0 ≤ roundTo digits x := by
  rw [roundTo]
  split
  · next h =>
      refine mul_nonneg ?_ (le_of_lt (zpow_ten_pos _))
      have hquotient : (0 : ℚ) ≤ x / 10 ^ lastExponent digits x :=
        div_nonneg (le_of_lt h) (le_of_lt (zpow_ten_pos _))
      exact_mod_cast le_trans (Int.floor_nonneg.mpr hquotient) (floor_le_halfEven _)
  · exact le_refl 0

/-- Rounding to significant digits is monotone. -/
theorem roundTo_mono {digits : ℕ} (hdigits : 0 < digits) {x y : ℚ} (h : x ≤ y) :
    roundTo digits x ≤ roundTo digits y := by
  by_cases hx : 0 < x
  swap
  · rw [roundTo, if_neg hx]
    exact roundTo_nonneg digits y
  have hy : 0 < y := lt_of_lt_of_le hx h
  rw [roundTo, roundTo, if_pos hx, if_pos hy]
  rcases (Int.log_mono_right (b := 10) hx h).lt_or_eq with hlt | heq
  · -- A power of ten lies between the two.
    obtain ⟨n, rfl⟩ : ∃ n, digits = n + 1 := ⟨digits - 1, by omega⟩
    have hbelow : x ≤ 10 ^ (lastExponent (n + 1) x + (n + 1 : ℕ)) := by
      refine le_trans (le_of_lt lt_pow_log) (le_of_eq ?_)
      rw [lastExponent]
      congr 1
      omega
    have habove : 10 ^ (lastExponent (n + 1) y + n) ≤ y := by
      refine le_trans (le_of_eq ?_) (pow_log_le hy)
      rw [lastExponent]
      congr 1
      push_cast
      omega
    refine le_trans (halfEven_mul_le hbelow) (le_trans ?_ (le_halfEven_mul habove))
    refine zpow_le_zpow_right₀ (by norm_num) ?_
    rw [lastExponent, lastExponent]
    push_cast
    omega
  · have hexponent : lastExponent digits x = lastExponent digits y := by
      rw [lastExponent, lastExponent, heq]
    rw [hexponent]
    have hpos := zpow_ten_pos (lastExponent digits y)
    refine mul_le_mul_of_nonneg_right ?_ (le_of_lt hpos)
    exact_mod_cast halfEven_mono (div_le_div_of_nonneg_right h (le_of_lt hpos))

end Decimal
