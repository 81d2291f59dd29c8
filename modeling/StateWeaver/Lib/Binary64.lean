import StateWeaver.Lib.Decimal

/-!
# Decimal texts of floats

A positive binary64 number is read back from every decimal that is nearer to it than to its
neighbours. `shortest` is the decimal that `repr` prints: it has as few digits as any decimal that is
read back, and of those it is the nearest one. Neighbours share no decimal, so the printed decimals
determine the numbers (`eq_of_readsAs`) and are in the same order as they are (`shortest_mono`).
-/

namespace Binary64

open Decimal

/-! ## Magnitudes -/

/-- Whether a mantissa and an exponent are in the form that binary64 stores. -/
def Canonical (mantissa : ℕ) (exponent : ℤ) : Prop :=
  0 < mantissa ∧ mantissa < 2 ^ 53 ∧ -1074 ≤ exponent ∧ (2 ^ 52 ≤ mantissa ∨ exponent = -1074)

instance (mantissa : ℕ) (exponent : ℤ) : Decidable (Canonical mantissa exponent) :=
  inferInstanceAs (Decidable (_ ∧ _))

/-- A positive binary64 number. -/
@[ext]
structure Magnitude where
  mantissa : ℕ
  exponent : ℤ
  canonical : Canonical mantissa exponent
  deriving DecidableEq

namespace Magnitude

variable (x y : Magnitude)

/-- The distance to the next larger number. -/
def ulp : ℚ := 2 ^ x.exponent

def value : ℚ := x.mantissa * x.ulp

/-- How far, in units of `ulp`, the numbers below that are read as `x` reach: half of the distance to
the next smaller number. -/
def reach : ℚ := if x.mantissa = 2 ^ 52 ∧ x.exponent ≠ -1074 then 1 / 4 else 1 / 2

def lower : ℚ := (x.mantissa - x.reach) * x.ulp

def upper : ℚ := (x.mantissa + 1 / 2) * x.ulp

/-- Whether a number is read as `x`: it lies between the midpoints, or on one if the mantissa is
even. -/
def ReadsAs (d : ℚ) : Prop :=
  x.lower ≤ d ∧ d ≤ x.upper ∧ (x.mantissa % 2 = 1 → x.lower ≠ d ∧ d ≠ x.upper)

instance (d : ℚ) : Decidable (x.ReadsAs d) := inferInstanceAs (Decidable (_ ∧ _))

variable {x y}

theorem ulp_pos : 0 < x.ulp := zpow_pos (by norm_num) _

theorem value_pos : 0 < x.value :=
  mul_pos (by exact_mod_cast x.canonical.1) ulp_pos

theorem mantissa_lt : (x.mantissa : ℚ) + 1 ≤ 2 ^ 53 := by
  have h := x.canonical.2.1
  exact_mod_cast h

/-- Only the numbers of the least exponent have a small mantissa. -/
theorem mantissa_ge (h : x.exponent ≠ -1074) : (2 : ℚ) ^ 52 ≤ x.mantissa := by
  have h' := x.canonical.2.2.2.resolve_right h
  exact_mod_cast h'

theorem two_mul_ulp_le (h : x.exponent < y.exponent) : 2 * x.ulp ≤ y.ulp := by
  have hpow : (2 : ℚ) * x.ulp = 2 ^ (x.exponent + 1) := by
    rw [ulp, zpow_add_one₀ (by norm_num), mul_comm]
  rw [hpow, ulp]
  exact zpow_le_zpow_right₀ (by norm_num) h

theorem reach_le : x.reach ≤ 1 / 2 := by
  rw [reach]
  split <;> norm_num

/-! ## Neighbours -/

/-- Numbers are in the order of their exponents, and then of their mantissas. -/
theorem value_lt_of_exponent_lt (h : x.exponent < y.exponent) : x.value < y.value := by
  have hy : (2 : ℚ) ^ 52 ≤ y.mantissa := mantissa_ge (by have := x.canonical.2.2.1; omega)
  have hx := x.mantissa_lt
  have hulp := two_mul_ulp_le h
  have hpos := x.ulp_pos
  calc x.value < 2 ^ 53 * x.ulp := by
        rw [value]
        nlinarith
    _ = 2 ^ 52 * (2 * x.ulp) := by ring
    _ ≤ 2 ^ 52 * y.ulp := by nlinarith
    _ ≤ y.value := by
        rw [value]
        exact mul_le_mul_of_nonneg_right hy (le_of_lt y.ulp_pos)

/-- What a smaller number and a larger one can look like. -/
theorem value_lt_iff :
    x.value < y.value ↔
      x.exponent < y.exponent ∨ x.exponent = y.exponent ∧ x.mantissa < y.mantissa := by
  constructor
  · intro h
    rcases lt_trichotomy x.exponent y.exponent with hlt | heq | hgt
    · exact Or.inl hlt
    · refine Or.inr ⟨heq, ?_⟩
      rw [value, value, ulp, ulp, heq] at h
      have hmantissa := lt_of_mul_lt_mul_right h (le_of_lt (zpow_pos (by norm_num) _))
      exact_mod_cast hmantissa
    · exact absurd h (not_lt_of_gt (value_lt_of_exponent_lt hgt))
  · rintro (hlt | ⟨heq, hlt⟩)
    · exact value_lt_of_exponent_lt hlt
    · rw [value, value, ulp, ulp, heq]
      exact mul_lt_mul_of_pos_right (by exact_mod_cast hlt) (zpow_pos (by norm_num) _)

theorem eq_of_value_eq (h : x.value = y.value) : x = y := by
  have hxy := mt value_lt_iff.mpr (not_lt_of_ge (le_of_eq h.symm))
  have hyx := mt value_lt_iff.mpr (not_lt_of_ge (le_of_eq h))
  push Not at hxy hyx
  have hexponent : x.exponent = y.exponent := le_antisymm hyx.1 hxy.1
  exact Magnitude.ext (le_antisymm (hyx.2 hexponent.symm) (hxy.2 hexponent)) hexponent

/-- The mantissas of neighbours that meet in a midpoint are not both even. -/
theorem upper_le_lower (h : x.value < y.value) :
    x.upper ≤ y.lower ∧ (x.upper = y.lower → x.mantissa % 2 = 1 ∨ y.mantissa % 2 = 1) := by
  have hx := x.mantissa_lt
  have hpos := x.ulp_pos
  rcases value_lt_iff.mp h with hexponent | ⟨hexponent, hmantissa⟩
  · have hulp := two_mul_ulp_le hexponent
    have hy : y.exponent ≠ -1074 := by
      have := x.canonical.2.2.1
      omega
    have hreach : (2 : ℚ) ^ 52 - 1 / 4 ≤ y.mantissa - y.reach := by
      rw [reach]
      split
      · next hleast =>
          rw [hleast.1]
          norm_num
      · next hleast =>
          have hge := y.canonical.2.2.2.resolve_right hy
          have hne : y.mantissa ≠ 2 ^ 52 := fun heq => hleast ⟨heq, hy⟩
          have hmore : (2 : ℚ) ^ 52 + 1 ≤ y.mantissa := by exact_mod_cast hge.lt_of_ne hne.symm
          linarith
    have hlow : (2 ^ 53 - 1 / 2) * x.ulp ≤ y.lower := by
      calc (2 ^ 53 - 1 / 2 : ℚ) * x.ulp = (2 ^ 52 - 1 / 4) * (2 * x.ulp) := by ring
        _ ≤ (2 ^ 52 - 1 / 4) * y.ulp := mul_le_mul_of_nonneg_left hulp (by norm_num)
        _ ≤ y.lower := by
            rw [lower]
            exact mul_le_mul_of_nonneg_right hreach (le_of_lt y.ulp_pos)
    refine ⟨le_trans ?_ hlow, fun heq => Or.inl ?_⟩
    · rw [upper]
      nlinarith
    · have hmax : (2 : ℚ) ^ 53 ≤ x.mantissa + 1 := by
        rw [← heq, upper] at hlow
        have hle := le_of_mul_le_mul_right hlow hpos
        linarith
      have hmax' : 2 ^ 53 ≤ x.mantissa + 1 := by exact_mod_cast hmax
      have := x.canonical.2.1
      omega
  · have hreach : y.reach = 1 / 2 := by
      rw [reach, if_neg]
      rintro ⟨hleast, hne⟩
      have := x.canonical.2.2.2.resolve_right (hexponent ▸ hne)
      omega
    have hulp : x.ulp = y.ulp := by rw [ulp, ulp, hexponent]
    have hnext : (x.mantissa : ℚ) + 1 ≤ y.mantissa := by exact_mod_cast hmantissa
    rw [upper, lower, hreach, hulp]
    refine ⟨mul_le_mul_of_nonneg_right (by linarith) (le_of_lt y.ulp_pos), fun heq => ?_⟩
    have hmid := mul_right_cancel₀ (ne_of_gt y.ulp_pos) heq
    have hsucc : (x.mantissa : ℚ) + 1 = y.mantissa := by linarith
    have hsucc' : x.mantissa + 1 = y.mantissa := by exact_mod_cast hsucc
    omega

/-- No number is read in two ways. -/
theorem eq_of_readsAs {d : ℚ} (hx : x.ReadsAs d) (hy : y.ReadsAs d) : x = y := by
  rcases lt_trichotomy x.value y.value with hlt | heq | hgt
  · obtain ⟨hle, hodd⟩ := upper_le_lower hlt
    have hmid : x.upper = y.lower := le_antisymm hle (le_trans hy.1 hx.2.1)
    have hd : d = x.upper := le_antisymm hx.2.1 (hmid ▸ hy.1)
    rcases hodd hmid with hodd | hodd
    · exact absurd hd (hx.2.2 hodd).2
    · exact absurd (hmid.symm.trans hd.symm) (hy.2.2 hodd).1
  · exact eq_of_value_eq heq
  · obtain ⟨hle, hodd⟩ := upper_le_lower hgt
    have hmid : y.upper = x.lower := le_antisymm hle (le_trans hx.1 hy.2.1)
    have hd : d = y.upper := le_antisymm hy.2.1 (hmid ▸ hx.1)
    rcases hodd hmid with hodd | hodd
    · exact absurd hd (hy.2.2 hodd).2
    · exact absurd (hmid.symm.trans hd.symm) (hx.2.2 hodd).1

/-- Numbers are read in order. -/
theorem le_of_readsAs {d d' : ℚ} (h : x.value < y.value) (hx : x.ReadsAs d) (hy : y.ReadsAs d') :
    d ≤ d' :=
  le_trans hx.2.1 (le_trans (upper_le_lower h).1 hy.1)

end Magnitude

/-! ## The shortest decimal -/

/-- A coefficient times a power of ten. -/
@[ext]
structure Decimal where
  coefficient : ℕ
  exponent : ℤ
  deriving DecidableEq

def Decimal.value (d : Decimal) : ℚ := d.coefficient * 10 ^ d.exponent

namespace Magnitude

variable (x y : Magnitude)

/-- The decimal with a number of digits that is nearest. -/
def nearest (digits : ℕ) : Decimal :=
  ⟨(halfEven (x.value / 10 ^ lastExponent digits x.value)).toNat, lastExponent digits x.value⟩

/-- The next decimal with as many digits, on the other side. -/
def otherSide (digits : ℕ) : Decimal :=
  if (x.nearest digits).value ≤ x.value then
    ⟨(x.nearest digits).coefficient + 1, (x.nearest digits).exponent⟩
  else ⟨(x.nearest digits).coefficient - 1, (x.nearest digits).exponent⟩

/-- The nearest decimal with a number of digits that is read back. -/
def candidate (digits : ℕ) : Option Decimal :=
  if x.ReadsAs (x.nearest digits).value then some (x.nearest digits)
  else if x.ReadsAs (x.otherSide digits).value then some (x.otherSide digits)
  else none

/-- The decimal that is printed; seventeen digits are always enough. -/
def shortest : Decimal :=
  ((List.range 17).findSome? fun n => x.candidate (n + 1)).getD (x.nearest 17)

variable {x y}

theorem readsAs_of_candidate {digits : ℕ} {d : Decimal} (h : x.candidate digits = some d) :
    x.ReadsAs d.value := by
  rw [candidate] at h
  split at h
  · next hreads =>
      cases h
      exact hreads
  · split at h
    · next hreads =>
        cases h
        exact hreads
    · cases h

theorem abs_nearest_sub_le (digits : ℕ) :
    |(x.nearest digits).value - x.value| ≤ 10 ^ lastExponent digits x.value / 2 := by
  have hquotient : (0 : ℚ) ≤ x.value / 10 ^ lastExponent digits x.value :=
    div_nonneg (le_of_lt value_pos) (le_of_lt (zpow_ten_pos _))
  have hnonneg : 0 ≤ halfEven (x.value / 10 ^ lastExponent digits x.value) :=
    le_trans (Int.floor_nonneg.mpr hquotient) (floor_le_halfEven _)
  have hcast : ((halfEven (x.value / 10 ^ lastExponent digits x.value)).toNat : ℚ) =
      halfEven (x.value / 10 ^ lastExponent digits x.value) := by
    exact_mod_cast Int.toNat_of_nonneg hnonneg
  rw [Decimal.value, nearest, hcast]
  exact abs_halfEven_mul_sub_le _ _

/-- With seventeen digits, the nearest decimal lies strictly between the midpoints. -/
theorem readsAs_nearest : x.ReadsAs (x.nearest 17).value := by
  have hdist := x.abs_nearest_sub_le 17
  have hpower : (10 : ℚ) ^ lastExponent 17 x.value * 10 ^ 16 ≤ x.value := by
    refine le_trans (le_of_eq ?_) (pow_log_le x.value_pos)
    rw [lastExponent, ← zpow_natCast (10 : ℚ) 16, ← zpow_add₀ (by norm_num)]
    congr 1
    push_cast
    ring
  have hvalue : x.value ≤ (2 ^ 53 - 1) * x.ulp := by
    rw [value]
    have := x.mantissa_lt
    exact mul_le_mul_of_nonneg_right (by linarith) (le_of_lt x.ulp_pos)
  have hpos := x.ulp_pos
  -- Half of a unit in the seventeenth digit is less than the reach.
  have hsmall : (10 : ℚ) ^ lastExponent 17 x.value / 2 < x.reach * x.ulp := by
    rw [reach]
    split
    · next hleast =>
        have hexact : x.value = 2 ^ 52 * x.ulp := by
          rw [value, hleast.1]
          norm_num
        linarith
    · linarith
  have hhalf : x.reach * x.ulp ≤ 1 / 2 * x.ulp := mul_le_mul_of_nonneg_right reach_le (le_of_lt hpos)
  obtain ⟨hlow, hhigh⟩ := abs_le.mp hdist
  have hlower : x.lower < (x.nearest 17).value := by
    have hsplit : x.lower = x.value - x.reach * x.ulp := by
      rw [lower, value]
      ring
    rw [hsplit]
    linarith
  have hupper : (x.nearest 17).value < x.upper := by
    have hsplit : x.upper = x.value + 1 / 2 * x.ulp := by
      rw [upper, value]
      ring
    rw [hsplit]
    linarith
  exact ⟨le_of_lt hlower, le_of_lt hupper, fun _ => ⟨ne_of_lt hlower, ne_of_lt hupper⟩⟩

/-- The decimal that is printed is read back. -/
theorem readsAs_shortest : x.ReadsAs x.shortest.value := by
  rw [shortest]
  cases hfound : (List.range 17).findSome? fun n => x.candidate (n + 1) with
  | none => exact readsAs_nearest
  | some d =>
      obtain ⟨n, -, hcandidate⟩ := List.exists_of_findSome?_eq_some hfound
      exact readsAs_of_candidate hcandidate

/-- Different numbers are printed differently. -/
theorem eq_of_shortest_eq (h : x.shortest.value = y.shortest.value) : x = y :=
  eq_of_readsAs readsAs_shortest (h ▸ readsAs_shortest)

/-- Numbers are printed in order. -/
theorem shortest_mono (h : x.value ≤ y.value) : x.shortest.value ≤ y.shortest.value := by
  rcases h.lt_or_eq with hlt | heq
  · exact le_of_readsAs hlt readsAs_shortest readsAs_shortest
  · rw [eq_of_value_eq heq]

end Magnitude

end Binary64
