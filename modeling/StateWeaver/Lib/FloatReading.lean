import StateWeaver.Lib.JsonReader

/-!
# Floats are read back

`json.loads` reads the text of a finite float back as the same float: the decimal that `repr` prints is
nearer to the float than to its neighbours, so rounding it to 53 bits gives the bits of the float.
-/

namespace Py

open Binary64 Decimal Float.Model

/-! ## Rounding to an integer -/

/-- An integer that is at most a half away is the rounded number, and on a tie if it is even. -/
theorem halfEven_eq {q : ℚ} {n : ℤ} (hlower : n - 1 / 2 ≤ q) (hupper : q ≤ n + 1 / 2)
    (htie : n % 2 = 1 → (n : ℚ) - 1 / 2 ≠ q ∧ q ≠ n + 1 / 2) : halfEven q = n := by
  have hfloor := Int.floor_le q
  have hlt := Int.lt_floor_add_one q
  have hfloorLe : ⌊q⌋ ≤ n := Int.floor_le_iff.mpr (by linarith)
  have hfloorGe : n - 1 ≤ ⌊q⌋ := Int.le_floor.mpr (by push_cast; linarith)
  rcases (show ⌊q⌋ = n ∨ ⌊q⌋ = n - 1 by omega) with heq | heq
  · rw [halfEven, heq]
    rw [heq] at hfloor hlt
    split_ifs with h₁ h₂ h₃
    · rfl
    · linarith
    · rfl
    · exact absurd (show q = n + 1 / 2 by linarith) (htie (by omega)).2
  · rw [halfEven, heq]
    rw [heq] at hfloor hlt
    push_cast at hfloor hlt ⊢
    split_ifs with h₁ h₂ h₃
    · linarith
    · omega
    · exact absurd (show (n : ℚ) - 1 / 2 = q by linarith) (htie (by omega)).1
    · omega

/-! ## Rounding to 53 bits -/

/-- The exponent of the last bit of a decimal. -/
def lastBit (d : ℚ) : ℤ := max (Int.log 2 d - 52) (-1074)

theorem two_pow_log_le {d : ℚ} (h : 0 < d) : (2 : ℚ) ^ Int.log 2 d ≤ d := by
  exact_mod_cast Int.zpow_log_le_self (b := 2) (by decide) h

theorem log_eq {d : ℚ} {e : ℤ} (hlower : (2 : ℚ) ^ e ≤ d) (hupper : d < (2 : ℚ) ^ (e + 1)) :
    Int.log 2 d = e := by
  have hpos : 0 < d := lt_of_lt_of_le (zpow_pos (by norm_num) e) hlower
  have hle : e ≤ Int.log 2 d := (Int.zpow_le_iff_le_log (b := 2) (by decide) hpos).mp (by exact_mod_cast hlower)
  have hlt : Int.log 2 d < e + 1 := (Int.lt_zpow_iff_log_lt (b := 2) (by decide) hpos).mp (by exact_mod_cast hupper)
  omega

variable {m : Magnitude} {d : ℚ}

theorem lower_pos : 0 < m.lower := by
  have hone : (1 : ℚ) ≤ m.mantissa := by exact_mod_cast m.canonical.1
  have hreach := m.reach_le
  exact mul_pos (by linarith) m.ulp_pos

theorem lt_two_pow (h : m.ReadsAs d) : d < 2 ^ (m.exponent + 53) := by
  have hupper := h.2.1
  have hmantissa := m.mantissa_lt
  rw [Magnitude.upper, Magnitude.ulp] at hupper
  rw [zpow_add₀ (by norm_num)]
  have hpos : (0 : ℚ) < 2 ^ m.exponent := m.ulp_pos
  norm_num at hmantissa ⊢
  nlinarith

/-- A decimal is rounded to the mantissa in units of the last place. -/
theorem halfEven_of_readsAs (h : m.ReadsAs d) : halfEven (d / 2 ^ m.exponent) = m.mantissa := by
  have hpos : (0 : ℚ) < 2 ^ m.exponent := m.ulp_pos
  obtain ⟨hlower, hupper, hodd⟩ := h
  have hreach := m.reach_le
  rw [Magnitude.lower, Magnitude.ulp, ← le_div_iff₀ hpos] at hlower
  rw [Magnitude.upper, Magnitude.ulp, ← div_le_iff₀ hpos] at hupper
  refine halfEven_eq (by push_cast; linarith) (by push_cast; exact hupper) fun htie => ⟨fun heq => ?_, fun heq => ?_⟩
  · refine (hodd (by omega)).1 ?_
    rw [Magnitude.lower, Magnitude.ulp, ← eq_div_iff (ne_of_gt hpos)]
    push_cast at heq
    linarith
  · refine (hodd (by omega)).2 ?_
    rw [Magnitude.upper, Magnitude.ulp, ← div_eq_iff (ne_of_gt hpos)]
    push_cast at heq
    exact heq

/-- Below the least mantissa of its exponent, a number has the next smaller exponent and twice that
mantissa. -/
theorem halfEven_of_lt (h : m.ReadsAs d) (hne : m.exponent ≠ -1074) (hlt : d < 2 ^ (m.exponent + 52)) :
    m.mantissa = 2 ^ 52 ∧ Int.log 2 d = m.exponent + 51 ∧ halfEven (d / 2 ^ (m.exponent - 1)) = 2 ^ 53 := by
  have hpos : (0 : ℚ) < 2 ^ m.exponent := m.ulp_pos
  obtain ⟨hlower, -, -⟩ := h
  have hge := m.mantissa_ge hne
  rw [Magnitude.lower, Magnitude.ulp] at hlower
  rw [zpow_add₀ (by norm_num)] at hlt
  have hreach := m.reach_le
  have hmantissa : m.mantissa = 2 ^ 52 := by
    by_contra hnot
    have hnext : 2 ^ 52 + 1 ≤ m.mantissa := by
      have := m.canonical.2.2.2.resolve_right hne
      omega
    have hnext' : (2 : ℚ) ^ 52 + 1 ≤ m.mantissa := by exact_mod_cast hnext
    have hmul : (2 ^ 52 : ℚ) * 2 ^ m.exponent ≤ (m.mantissa - m.reach) * 2 ^ m.exponent :=
      mul_le_mul_of_nonneg_right (by linarith) (le_of_lt hpos)
    norm_num at hlt hmul
    linarith
  have hquarter : m.reach = 1 / 4 := if_pos ⟨hmantissa, hne⟩
  rw [hquarter, hmantissa] at hlower
  push_cast at hlower
  have hhalf : (2 : ℚ) ^ m.exponent = 2 ^ (m.exponent - 1) * 2 := by
    rw [← zpow_add_one₀ (by norm_num), sub_add_cancel]
  have hpos' : (0 : ℚ) < 2 ^ (m.exponent - 1) := zpow_pos (by norm_num) _
  refine ⟨hmantissa, log_eq ?_ ?_, ?_⟩
  · rw [zpow_add₀ (by norm_num)]
    norm_num at hlower ⊢
    nlinarith
  · rw [add_assoc, zpow_add₀ (by norm_num)]
    exact hlt
  · rw [hhalf] at hlower hlt
    have hlow : (2 : ℚ) ^ 53 - 1 / 2 ≤ d / 2 ^ (m.exponent - 1) := by
      rw [le_div_iff₀ hpos']
      norm_num at hlower ⊢
      linarith
    have hhigh : d / 2 ^ (m.exponent - 1) ≤ (2 : ℚ) ^ 53 + 1 / 2 := by
      rw [div_le_iff₀ hpos']
      norm_num at hlt ⊢
      linarith
    refine halfEven_eq (by push_cast; exact hlow) (by push_cast; exact hhigh) fun htie => ?_
    exact absurd htie (by decide)

/-- The bits of a number, without the sign, round every decimal that is read as the number. -/
theorem bits_of_readsAs (h : m.ReadsAs d) :
    (lastBit d + 1074).toNat * 2 ^ 52 + (halfEven (d / 2 ^ lastBit d)).toNat =
      (m.exponent + 1074).toNat * 2 ^ 52 + m.mantissa := by
  have hpos : 0 < d := lt_of_lt_of_le lower_pos h.1
  have hlog : Int.log 2 d < m.exponent + 53 :=
    (Int.lt_zpow_iff_log_lt (b := 2) (by decide) hpos).mp (by exact_mod_cast lt_two_pow h)
  have hsame : lastBit d = m.exponent → (lastBit d + 1074).toNat * 2 ^ 52 +
      (halfEven (d / 2 ^ lastBit d)).toNat = (m.exponent + 1074).toNat * 2 ^ 52 + m.mantissa := by
    intro heq
    rw [heq, halfEven_of_readsAs h]
    omega
  have hleast := m.canonical.2.2.1
  by_cases hexponent : m.exponent = -1074
  · exact hsame (by rw [lastBit]; omega)
  · by_cases hlt : d < 2 ^ (m.exponent + 52)
    · obtain ⟨hmantissa, hlogEq, hround⟩ := halfEven_of_lt h hexponent hlt
      have hbit : lastBit d = m.exponent - 1 := by
        rw [lastBit]
        omega
      rw [hbit, hround, hmantissa]
      omega
    · have hge : m.exponent + 52 ≤ Int.log 2 d :=
        (Int.zpow_le_iff_le_log (b := 2) (by decide) hpos).mp (by exact_mod_cast not_lt.mp hlt)
      exact hsame (by rw [lastBit]; omega)

/-! ## Bits -/

section

variable (b : BitVec Format.binary64.numBits)

theorem toNat_unpackMantissa : (UnpackedFloat.unpackMantissa b).toNat = b.toNat % 2 ^ 52 := by
  simp [UnpackedFloat.unpackMantissa]

theorem toNat_unpackExponent : (UnpackedFloat.unpackExponent b).toNat = b.toNat / 2 ^ 52 % 2 ^ 11 := by
  simp [UnpackedFloat.unpackExponent, Nat.shiftRight_eq_div_pow]

theorem toNat_unpackSign : (UnpackedFloat.unpackSign b).toNat = b.toNat / 2 ^ 63 := by
  have hlt : b.toNat < 2 ^ 64 := b.isLt
  simp [UnpackedFloat.unpackSign, Nat.shiftRight_eq_div_pow]
  omega

/-- A bit pattern is its three parts. -/
theorem toNat_eq_parts : b.toNat = (UnpackedFloat.unpackSign b).toNat * 2 ^ 63 +
    (UnpackedFloat.unpackExponent b).toNat * 2 ^ 52 + (UnpackedFloat.unpackMantissa b).toNat := by
  have hlt : b.toNat < 2 ^ 64 := b.isLt
  rw [toNat_unpackMantissa, toNat_unpackExponent, toNat_unpackSign]
  omega

end

theorem unpackSign_packComponents {sign : UnpackedFloat.Sign} {E : BitVec 11} {M : BitVec 52} :
    UnpackedFloat.unpackSign (UnpackedFloat.packComponents .binary64 sign E M) = sign.toBitVec := by
  refine BitVec.eq_of_getLsbD_eq fun i hi => ?_
  obtain rfl : i = 0 := by omega
  have hhigh := BitVec.getLsbD_append (x := sign.toBitVec ++ E) (y := M) (i := 63)
  have hnext := BitVec.getLsbD_append (x := sign.toBitVec) (y := E) (i := 11)
  rw [if_neg (by decide)] at hhigh hnext
  have hbit : (sign.toBitVec ++ E ++ M).getLsbD 63 = sign.toBitVec.getLsbD 0 := hhigh.trans hnext
  simp only [UnpackedFloat.unpackSign, UnpackedFloat.packComponents, BitVec.getLsbD_cast,
    BitVec.getLsbD_extractLsb]
  rw [Nat.add_zero, hbit]
  rfl

theorem toBitVec_ofBitVec (s : BitVec 1) : (UnpackedFloat.Sign.ofBitVec s).toBitVec = s := by
  rcases BitVec.eq_zero_or_eq_one s with rfl | rfl <;> rfl

/-- A finite bit pattern is what it unpacks to. -/
theorem pack_unpack {b : BitVec Format.binary64.numBits}
    (h : UnpackedFloat.isFinite (UnpackedFloat.unpack .binary64 b) = true) :
    UnpackedFloat.pack .binary64 (UnpackedFloat.unpack .binary64 b) = b := by
  have hparts : ∀ {E : BitVec 11} {M : BitVec 52}, E = UnpackedFloat.unpackExponent b →
      M = UnpackedFloat.unpackMantissa b →
        UnpackedFloat.packComponents .binary64 (.ofBitVec (UnpackedFloat.unpackSign b)) E M = b := by
    rintro E M hE hM
    refine eq_of_parts_eq ?_ ?_ ?_
    · rw [unpackSign_packComponents, toBitVec_ofBitVec]
    · rw [UnpackedFloat.unpackExponent_packComponents, hE]
    · rw [UnpackedFloat.unpackMantissa_packComponents, hM]
  have hE : (UnpackedFloat.unpackExponent b).toNat < 2 ^ 11 := (UnpackedFloat.unpackExponent b).isLt
  have hbias : Format.exponentBias .binary64 = 1023 := rfl
  have hbits : Format.mantissaBits .binary64 = 53 := rfl
  rw [UnpackedFloat.unpack] at h ⊢
  simp only at h ⊢
  split at h
  · split at h <;> cases h
  · next hfinite =>
      rw [if_neg hfinite]
      split
      · next hzero =>
          split
          · next hM => exact hparts hzero.symm hM.symm
          · next hM =>
              have hpos : 0 < (UnpackedFloat.unpackMantissa b).toNat :=
                Nat.pos_of_ne_zero fun heq => hM (BitVec.eq_of_toNat_eq heq)
              have hlog : (UnpackedFloat.unpackMantissa b).toNat.log2 < 52 :=
                (Nat.log2_lt (by omega)).mpr (UnpackedFloat.unpackMantissa b).isLt
              rw [UnpackedFloat.pack]
              simp only [hzero, hbias, hbits]
              rw [if_neg (by decide), if_neg (by omega)]
              refine hparts hzero.symm (BitVec.eq_of_toNat_eq ?_)
              rw [BitVec.toNat_ofNat]
              exact Nat.mod_eq_of_lt (UnpackedFloat.unpackMantissa b).isLt
      · next hnonzero =>
          have hmantissa := toNat_one_append (UnpackedFloat.unpackMantissa b)
          have hlt : (UnpackedFloat.unpackMantissa b).toNat < 2 ^ 52 := (UnpackedFloat.unpackMantissa b).isLt
          have hlog : (2 ^ 52 + (UnpackedFloat.unpackMantissa b).toNat).log2 = 52 :=
            (Nat.log2_eq_iff (by omega)).mpr ⟨by omega, by omega⟩
          have hlast : (UnpackedFloat.unpackExponent b).toNat ≠ 2047 := fun heq =>
            hfinite (BitVec.eq_of_toNat_eq heq)
          rw [UnpackedFloat.pack]
          simp only [hbias, hbits, hmantissa, hlog]
          rw [if_neg (by omega), if_pos trivial]
          refine hparts (BitVec.eq_of_toNat_eq ?_) (BitVec.eq_of_toNat_eq ?_)
          · rw [BitVec.toNat_ofNat]
            omega
          · rw [BitVec.toNat_ofNat]
            omega

theorem ofBits_toBits {x : Float} (hx : x.isFinite = true) : Float.ofBits x.toBits = x := by
  rw [Float.isFinite, Float.Model.isFinite, Float.Model.unpack] at hx
  obtain ⟨⟨bits, hvalid⟩⟩ := x
  have hbits : UInt64.ofBitVec (UnpackedFloat.pack .binary64 (UnpackedFloat.unpack .binary64 bits.toBitVec)) = bits :=
    congrArg UInt64.ofBitVec (pack_unpack hx)
  simp only [Float.ofBits, Float.toBits, Float.Model.ofBits, Float.Model.pack, hbits]

/-- The number that the sign bit stands for. -/
def signBit : UnpackedFloat.Sign → ℕ
  | .negative => 2 ^ 63
  | .positive => 0

theorem toNat_sign (s : BitVec 1) : s.toNat * 2 ^ 63 = signBit (.ofBitVec s) := by
  rcases BitVec.eq_zero_or_eq_one s with rfl | rfl <;> rfl

/-- The bits of what a finite pattern unpacks to. -/
def unpackedBits : UnpackedFloat → ℕ
  | .zero sign => signBit sign
  | .finite sign mantissa exponent _ => signBit sign + ((exponent + 1074).toNat * 2 ^ 52 + mantissa)
  | _ => 0

theorem Unpacks.bits {s : BitVec 1} {E : BitVec 11} {M : BitVec 52} {u : UnpackedFloat} (h : Unpacks s E M u) :
    s.toNat * 2 ^ 63 + E.toNat * 2 ^ 52 + M.toNat = unpackedBits u := by
  rw [toNat_sign]
  cases h with
  | zero => rfl
  | subnormal hpos =>
      rw [unpackedBits, BitVec.toNat_ofNat]
      omega
  | normal hE hmantissa hpos =>
      have hne : E.toNat ≠ 0 := fun hzero => hE (BitVec.eq_of_toNat_eq hzero)
      rw [unpackedBits]
      omega

/-- The bits of a finite float are its sign, its exponent and its mantissa. -/
theorem toBits_eq {x : Float} (hx : x.isFinite = true) : x.toBits.toNat =
    (if isNegative x then 2 ^ 63 else 0) + (magnitude? x).elim 0 fun m =>
      (m.exponent + 1074).toNat * 2 ^ 52 + m.mantissa := by
  have hbits : x.toBits.toNat = unpackedBits x.toModel.unpack := by
    rw [Float.isFinite, Float.Model.isFinite, Float.Model.unpack] at hx
    exact (toNat_eq_parts x.toModel.toBits.toBitVec).trans (unpacks hx).bits
  rw [Float.isFinite, Float.Model.isFinite] at hx
  rw [hbits]
  cases hunpack : x.toModel.unpack with
  | notANumber =>
      rw [hunpack] at hx
      cases hx
  | infinity s =>
      rw [hunpack] at hx
      cases hx
  | zero s =>
      rw [isNegative, magnitude?, hunpack]
      cases s <;> rfl
  | finite s mantissa exponent hpos =>
      rw [magnitude?_of_unpack hunpack, isNegative, hunpack]
      cases s <;> rfl

/-- The exponent of a finite float is not the last one. -/
theorem Unpacks.size_lt {s : BitVec 1} {E : BitVec 11} {M : BitVec 52} {sign : UnpackedFloat.Sign}
    {mantissa : ℕ} {exponent : ℤ} {hpos : 0 < mantissa}
    (h : Unpacks s E M (.finite sign mantissa exponent hpos)) (hE : E.toNat < 2047) :
    (exponent + 1074).toNat * 2 ^ 52 + mantissa < 2047 * 2 ^ 52 := by
  have hM := M.isLt
  cases h with
  | subnormal => omega
  | normal hne hmantissa => omega

theorem unpackExponent_lt {b : BitVec Format.binary64.numBits}
    (h : UnpackedFloat.isFinite (UnpackedFloat.unpack .binary64 b) = true) :
    (UnpackedFloat.unpackExponent b).toNat < 2047 := by
  have hE : (UnpackedFloat.unpackExponent b).toNat < 2 ^ 11 := (UnpackedFloat.unpackExponent b).isLt
  have hne : (UnpackedFloat.unpackExponent b).toNat ≠ 2047 := by
    intro heq
    have hlast : UnpackedFloat.unpackExponent b = -1#11 := BitVec.eq_of_toNat_eq heq
    rw [UnpackedFloat.unpack] at h
    simp only [if_pos hlast] at h
    split at h <;> cases h
  omega

theorem size_lt {x : Float} (hx : x.isFinite = true) {m : Magnitude} (h : magnitude? x = some m) :
    (m.exponent + 1074).toNat * 2 ^ 52 + m.mantissa < 2047 * 2 ^ 52 := by
  rw [Float.isFinite, Float.Model.isFinite] at hx
  cases hunpack : x.toModel.unpack with
  | finite s mantissa exponent hpos =>
      rw [magnitude?_of_unpack hunpack] at h
      obtain rfl := Option.some.inj h
      rw [Float.Model.unpack] at hx hunpack
      exact (hunpack ▸ unpacks hx).size_lt (unpackExponent_lt hx)
  | _ =>
      rw [magnitude?, hunpack] at h
      cases h

/-- A decimal that is read as a float gives the float. -/
theorem nearestFloat_eq {x : Float} (hx : x.isFinite = true) {d : ℚ}
    (hzero : magnitude? x = none → d = 0) (hreads : ∀ m, magnitude? x = some m → m.ReadsAs d) :
    nearestFloat (isNegative x) d = x := by
  have hbits := toBits_eq hx
  have hlt : x.toBits.toNat < 2 ^ 64 := x.toBits.toNat_lt
  have hsize : (if d = 0 then 0 else
      min ((lastBit d + 1074).toNat * 2 ^ 52 + (halfEven (d / 2 ^ lastBit d)).toNat) (2047 * 2 ^ 52)) =
        (magnitude? x).elim 0 fun m => (m.exponent + 1074).toNat * 2 ^ 52 + m.mantissa := by
    cases hmagnitude : magnitude? x with
    | none => exact if_pos (hzero hmagnitude)
    | some m =>
        have hread := hreads m hmagnitude
        rw [if_neg (ne_of_gt (lt_of_lt_of_le lower_pos hread.1)), bits_of_readsAs hread]
        exact Nat.min_eq_left (le_of_lt (size_lt hx hmagnitude))
  rw [nearestFloat]
  refine Eq.trans (congrArg Float.ofBits (UInt64.toNat_inj.mp ?_)) (ofBits_toBits hx)
  rw [UInt64.toNat_ofNat']
  change ((if isNegative x = true then 2 ^ 63 else 0) + if d = 0 then 0 else
    min ((lastBit d + 1074).toNat * 2 ^ 52 + (halfEven (d / 2 ^ lastBit d)).toNat) (2047 * 2 ^ 52)) % 2 ^ 64 = _
  rw [hsize, ← hbits]
  exact Nat.mod_eq_of_lt hlt

/-! ## Texts of floats -/

/-- What ends the digits of a number ends them where they stand. -/
theorem takeWhile_isDigit_of_head {digits rest : List Char} (hdigits : ∀ c ∈ digits, c.isDigit = true)
    (hrest : ∀ c ∈ rest.head?, c.isDigit = false) : (digits ++ rest).takeWhile Char.isDigit = digits := by
  rw [List.takeWhile_append_of_pos hdigits]
  cases rest with
  | nil => rw [List.takeWhile_nil, List.append_nil]
  | cons c rest =>
      rw [List.takeWhile_cons_of_neg (Bool.not_eq_true _ ▸ hrest c rfl), List.append_nil]

theorem isDigit_of_ends {rest : List Char} (hrest : Json.Ends rest) :
    ∀ c ∈ rest.head?, c.isDigit = false := by
  intro c hc
  rcases hrest c hc with rfl | rfl | rfl <;> decide

theorem isDigit_exponentText (e : ℤ) : ∃ sign digits, exponentText e = sign :: digits ∧
    (sign = if e < 0 then '-' else '+') ∧ (∀ c ∈ digits, c.isDigit = true) ∧ digits ≠ [] := by
  refine ⟨_, _, rfl, rfl, List.forall_mem_append.mpr ⟨?_, fun c hc => isDigit_of_mem hc⟩, fun hnil => ?_⟩
  · split <;> exact List.all_eq_true.mp (by decide)
  · exact Nat.toDigits_ne_nil (List.append_eq_nil_iff.mp hnil).2

/-- The parts of a number that is written with a point or an exponent. -/
structure FloatParts where
  whole : List Char
  fraction : List Char
  exponent : Option ℤ
  wholeDigit : ∀ c ∈ whole, c.isDigit = true
  wholeNe : whole ≠ []
  wholeZero : whole.head? = some '0' → whole = ['0']
  fractionDigit : ∀ c ∈ fraction, c.isDigit = true
  marked : fraction ≠ [] ∨ exponent ≠ none

namespace FloatParts

variable (p : FloatParts)

def point : List Char := if p.fraction = [] then [] else '.' :: p.fraction

def tail : List Char := p.exponent.elim [] fun e => 'e' :: exponentText e

def text : List Char := p.whole ++ p.point ++ p.tail

def value : ℚ := digitsValue (p.whole ++ p.fraction) * 10 ^ (p.exponent.getD 0 - p.fraction.length)

theorem readDecimal_text : readDecimal p.text = p.value := by
  refine readDecimal_append p.whole p.fraction p.point p.tail p.wholeDigit p.fractionDigit ?_ ?_
  · rw [point]
    split
    · next hnil => exact Or.inr ⟨rfl, hnil⟩
    · exact Or.inl rfl
  · rw [tail]
    cases p.exponent with
    | none => exact Or.inr ⟨rfl, rfl⟩
    | some e => exact Or.inl rfl

theorem head_point : ∀ c ∈ p.point.head?, c = '.' := by
  rw [point]
  split
  · exact nofun
  · intro c hc
    exact (Option.some.inj hc).symm

theorem head_tail : ∀ c ∈ p.tail.head?, c = 'e' := by
  rw [tail]
  cases p.exponent with
  | none => exact nofun
  | some e =>
      intro c hc
      exact (Option.some.inj hc).symm

variable {rest : List Char}

/-- Behind the fraction there is no digit. -/
theorem head_tail_append (hrest : Json.Ends rest) :
    ∀ c ∈ (p.tail ++ rest).head?, c.isDigit = false ∧ c ≠ '.' := by
  intro c hc
  rw [List.head?_append] at hc
  cases htail : p.tail with
  | nil =>
      rw [htail] at hc
      rcases hrest c hc with rfl | rfl | rfl <;> decide
  | cons d tail =>
      rw [htail] at hc
      obtain rfl : d = 'e' := p.head_tail d (by rw [htail]; rfl)
      obtain rfl : 'e' = c := Option.some.inj hc
      decide

theorem wholeDigits_text (hrest : Json.Ends rest) :
    wholeDigits (p.whole ++ (p.point ++ (p.tail ++ rest))) = p.whole := by
  obtain ⟨c, digits, hcons⟩ := List.exists_cons_of_ne_nil p.wholeNe
  rw [wholeDigits]
  split
  · next hzero =>
      rw [hcons] at hzero
      exact (p.wholeZero (by rw [hcons]; exact hzero)).symm
  · refine takeWhile_isDigit_of_head p.wholeDigit fun c hc => ?_
    rw [List.head?_append] at hc
    cases hpoint : p.point with
    | nil =>
        rw [hpoint] at hc
        exact (p.head_tail_append hrest c hc).1
    | cons d point =>
        rw [hpoint] at hc
        obtain rfl : d = '.' := p.head_point d (by rw [hpoint]; rfl)
        obtain rfl : '.' = c := Option.some.inj hc
        decide

theorem fractionDigits_text (hrest : Json.Ends rest) :
    fractionDigits (p.point ++ (p.tail ++ rest)) = p.fraction := by
  rw [point]
  split
  · next hnil =>
      rw [hnil, List.nil_append]
      cases htext : p.tail ++ rest with
      | nil => rfl
      | cons c text =>
          have hc := (p.head_tail_append hrest c (by rw [htext]; rfl)).2
          rw [fractionDigits]
          exact fun _ heq => hc (List.cons.inj heq).1
  · rw [List.cons_append, fractionDigits]
    exact takeWhile_isDigit_of_head p.fractionDigit fun c hc => (p.head_tail_append hrest c hc).1

theorem drop_point : (if p.fraction = [] then p.point ++ (p.tail ++ rest)
    else (p.point ++ (p.tail ++ rest)).drop (p.fraction.length + 1)) = p.tail ++ rest := by
  rw [point]
  split
  · rw [List.nil_append]
  · rw [List.cons_append, List.drop_succ_cons, List.drop_left]

theorem readExponentPart_exponentText (e : ℤ) (hrest : Json.Ends rest) :
    ∃ negative digits, readExponentPart ('e' :: exponentText e ++ rest) = some (negative, digits, rest) ∧
      (if negative then -(digitsValue digits : ℤ) else digitsValue digits) = e := by
  obtain ⟨sign, digits, htext, hsign, hdigits, hne⟩ := isDigit_exponentText e
  have htake : (digits ++ rest).takeWhile Char.isDigit = digits :=
    takeWhile_isDigit_of_head hdigits (isDigit_of_ends hrest)
  have hvalue := readExponent_exponentText e
  rw [htext] at hvalue ⊢
  by_cases hneg : e < 0
  · rw [if_pos hneg] at hsign
    subst hsign
    refine ⟨true, digits, ?_, hvalue⟩
    simp only [List.cons_append, readExponentPart, List.head?_cons, true_or, if_true, List.drop_succ_cons,
      List.drop_zero, htake, ne_eq, hne, not_false_eq_true, and_self, List.drop_left, decide_true]
  · rw [if_neg hneg] at hsign
    subst hsign
    refine ⟨false, digits, ?_, hvalue⟩
    simp [readExponentPart, htake, hne]

/-- A number with a point or an exponent is read as the nearest float. -/
theorem readUnsigned_text (negative : Bool) (hrest : Json.Ends rest) :
    readUnsigned negative (p.text ++ rest) = .ok (.float (nearestFloat negative p.value), rest) := by
  rw [text, List.append_assoc, List.append_assoc, readUnsigned]
  simp only [p.wholeDigits_text hrest, List.drop_left, p.fractionDigits_text hrest, p.drop_point, if_neg p.wholeNe]
  have hmarked := p.marked
  rw [value]
  cases hexponent : p.exponent with
  | none =>
      rw [tail, hexponent, Option.elim_none, List.nil_append, readExponentPart_of_ends hrest]
      rw [if_pos (hmarked.resolve_right fun hne => hne hexponent), Option.getD_none, zero_sub]
  | some e =>
      obtain ⟨negativeExponent, digits, hread, hvalue⟩ := readExponentPart_exponentText e hrest
      rw [tail, hexponent, Option.elim_some, hread, Option.getD_some, ← hvalue]

end FloatParts

theorem head?_significant {d : Decimal} (hd : significant d ≠ []) : (significant d).head? ≠ some '0' := by
  obtain ⟨n, hn⟩ := exists_significant_append d
  have hpos : 0 < d.coefficient := by
    refine Nat.pos_of_ne_zero fun hzero => hd ?_
    rw [significant, hzero]
    rfl
  have hhead := head?_toDigits_ne hpos
  rw [hn, List.head?_append, Option.or_of_isSome (List.isSome_head?.mpr hd)] at hhead
  exact hhead

/-- The text of a decimal has a point or an exponent. -/
theorem exists_parts_decimalText {d : Decimal} (hd : significant d ≠ []) :
    ∃ p : FloatParts, decimalText d = p.text := by
  have hsignificant : ∀ c ∈ significant d, c.isDigit = true := fun c => isDigit_significant
  have hhead := head?_significant hd
  have hlength := List.length_pos_iff.mpr hd
  rw [decimalText]
  split
  · next hnear =>
      split
      · next hsmall =>
          refine ⟨⟨['0'], List.replicate (-pointPosition d).toNat '0' ++ significant d, none,
            List.all_eq_true.mp (by decide), List.cons_ne_nil _ _, fun _ => rfl,
            List.forall_mem_append.mpr ⟨fun c => isDigit_replicate, hsignificant⟩,
            Or.inl (List.append_ne_nil_of_right_ne_nil _ hd)⟩, ?_⟩
          rw [FloatParts.text, FloatParts.point, if_neg (List.append_ne_nil_of_right_ne_nil _ hd),
            FloatParts.tail, Option.elim_none, List.append_nil]
          rfl
      · next hlarge =>
          obtain ⟨k, hk⟩ : ∃ k, (pointPosition d).toNat = k + 1 := ⟨(pointPosition d).toNat - 1, by omega⟩
          split
          · next hinside =>
              have hne : (significant d).drop (pointPosition d).toNat ≠ [] := by
                rw [ne_eq, List.drop_eq_nil_iff]
                omega
              refine ⟨⟨(significant d).take (pointPosition d).toNat,
                (significant d).drop (pointPosition d).toNat, none,
                fun c hc => hsignificant c (List.mem_of_mem_take hc), ?_, fun hzero => absurd ?_ hhead,
                fun c hc => hsignificant c (List.mem_of_mem_drop hc), Or.inl hne⟩, ?_⟩
              · rw [ne_eq, List.take_eq_nil_iff]
                rintro (hzero | hnil)
                · omega
                · exact hd hnil
              · rwa [List.head?_take, if_neg (by omega)] at hzero
              · rw [FloatParts.text, FloatParts.point, if_neg hne, FloatParts.tail, Option.elim_none,
                  List.append_nil]
          · next hinside =>
              refine ⟨⟨significant d ++ List.replicate (pointPosition d - (significant d).length).toNat '0', ['0'],
                none, List.forall_mem_append.mpr ⟨hsignificant, fun c => isDigit_replicate⟩,
                List.append_ne_nil_of_left_ne_nil hd _, fun hzero => absurd ?_ hhead,
                List.all_eq_true.mp (by decide), Or.inl (List.cons_ne_nil _ _)⟩, ?_⟩
              · rwa [List.head?_append, Option.or_of_isSome (List.isSome_head?.mpr hd)] at hzero
              · rw [FloatParts.text, FloatParts.point, if_neg (List.cons_ne_nil _ _), FloatParts.tail,
                  Option.elim_none, List.append_nil]
  · next hfar =>
      refine ⟨⟨(significant d).take 1, (significant d).drop 1, some (pointPosition d - 1),
        fun c hc => hsignificant c (List.mem_of_mem_take hc), ?_, fun hzero => absurd ?_ hhead,
        fun c hc => hsignificant c (List.mem_of_mem_drop hc), Or.inr (Option.some_ne_none _)⟩, ?_⟩
      · rw [ne_eq, List.take_eq_nil_iff]
        rintro (hzero | hnil)
        · cases hzero
        · exact hd hnil
      · rwa [List.head?_take, if_neg (by decide)] at hzero
      · rw [FloatParts.text, FloatParts.point, FloatParts.tail, Option.elim_some]
        refine congrArg₂ _ (congrArg₂ _ rfl ?_) rfl
        by_cases hone : (significant d).length ≤ 1
        · rw [if_pos hone, if_pos (List.drop_eq_nil_of_le hone)]
        · rw [if_neg hone, if_neg (by rw [List.drop_eq_nil_iff]; exact hone)]

/-- A finite float is a sign and a number with a point or an exponent, which is read as the float. -/
theorem exists_parts_floatText {x : Float} (hx : x.isFinite = true) : ∃ p : FloatParts,
    floatText x = (if isNegative x then ['-'] else []) ++ p.text ∧ nearestFloat (isNegative x) p.value = x := by
  have hzero : ∀ {sign}, x.toModel.unpack = .zero sign →
      nearestFloat (isNegative x) 0 = x := fun hunpack => nearestFloat_eq hx (fun _ => rfl) fun m hm => by
    rw [magnitude?, hunpack] at hm
    cases hm
  let zero : FloatParts := ⟨['0'], ['0'], none, List.all_eq_true.mp (by decide), List.cons_ne_nil _ _,
    fun _ => rfl, List.all_eq_true.mp (by decide), Or.inl (List.cons_ne_nil _ _)⟩
  have hvalue : zero.value = 0 := by decide +kernel
  have hfinite := hx
  rw [Float.isFinite, Float.Model.isFinite] at hfinite
  cases hunpack : x.toModel.unpack with
  | notANumber =>
      rw [hunpack] at hfinite
      cases hfinite
  | infinity s =>
      rw [hunpack] at hfinite
      cases hfinite
  | zero s =>
      refine ⟨zero, ?_, hvalue.symm ▸ hzero hunpack⟩
      rw [floatText, isNegative, hunpack]
      cases s <;> rfl
  | finite s mantissa exponent hpos =>
      have hmagnitude := magnitude?_of_unpack hunpack
      have hne := significant_shortest_ne_nil ⟨mantissa, exponent, canonical_of_unpack hunpack⟩
      obtain ⟨p, hp⟩ := exists_parts_decimalText hne
      refine ⟨p, ?_, ?_⟩
      · rw [floatText, hunpack]
        simp only
        rw [hmagnitude, ← hp]
      · rw [← p.readDecimal_text, ← hp, readDecimal_decimalText hne]
        refine nearestFloat_eq hx (fun hnone => ?_) fun m hm => ?_
        · rw [hnone] at hmagnitude
          cases hmagnitude
        · rw [hmagnitude] at hm
          obtain rfl := Option.some.inj hm
          exact Magnitude.readsAs_shortest

/-- The text of a finite float is read back. -/
theorem readNumber_floatText {x : Float} (hx : x.isFinite = true) {rest : List Char} (hrest : Json.Ends rest) :
    readNumber (floatText x ++ rest) = .ok (.float x, rest) := by
  obtain ⟨p, htext, hvalue⟩ := exists_parts_floatText hx
  rw [htext]
  cases hsign : isNegative x with
  | true =>
      rw [hsign] at hvalue
      rw [if_pos rfl, List.singleton_append, List.cons_append, readNumber, p.readUnsigned_text true hrest, hvalue]
  | false =>
      rw [hsign] at hvalue
      obtain ⟨c, digits, hcons⟩ := List.exists_cons_of_ne_nil p.wholeNe
      have hc : c ≠ '-' := by
        rintro rfl
        exact absurd (p.wholeDigit '-' (hcons ▸ List.mem_cons_self)) (by decide)
      have hread := p.readUnsigned_text false hrest
      rw [FloatParts.text, hcons, List.cons_append, List.cons_append, List.cons_append] at hread
      rw [if_neg (by decide), List.nil_append, FloatParts.text, hcons, List.cons_append, List.cons_append,
        List.cons_append, readNumber, hread, hvalue]
      exact fun _ heq => hc (List.cons.inj heq).1

end Py
