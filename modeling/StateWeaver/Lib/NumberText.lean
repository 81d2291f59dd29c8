import Mathlib
import StateWeaver.Lib.FloatDecimal

/-!
# The numbers that Python writes

Integers are written with their digits and floats as `repr` does: the shortest decimal that is read
back, with an exponent if the point is far away. Reading a decimal gives its value, so different floats
have different texts; an integer has neither a point nor an exponent.
-/

namespace Py

open Binary64

/-! ## Numbers -/

/-- A character that numbers are written with. -/
def isNumeric (c : Char) : Bool := c.isDigit || ['-', '+', '.', 'e'].contains c

def intText (n : Int) : List Char :=
  if n < 0 then '-' :: Nat.toDigits 10 n.natAbs else Nat.toDigits 10 n.natAbs

/-- The digits of a number tell the number. -/
theorem toDigits_inj {m n : ℕ} (h : Nat.toDigits 10 m = Nat.toDigits 10 n) : m = n := by
  rw [← Nat.ofDigitChars_ten_toDigits (n := m), h, Nat.ofDigitChars_ten_toDigits]

theorem isDigit_of_mem {n : ℕ} {c : Char} (h : c ∈ Nat.toDigits 10 n) : c.isDigit = true :=
  Nat.isDigit_of_mem_toDigits (by decide) (by decide) h

theorem exists_toDigits_eq_cons (n : ℕ) : ∃ c rest, Nat.toDigits 10 n = c :: rest ∧ c.isDigit = true := by
  obtain ⟨c, rest, h⟩ := List.exists_cons_of_ne_nil (Nat.toDigits_ne_nil (n := n) (b := 10))
  exact ⟨c, rest, h, isDigit_of_mem (h ▸ List.mem_cons_self)⟩

theorem intText_inj {m n : Int} (h : intText m = intText n) : m = n := by
  rw [intText, intText] at h
  split_ifs at h with hm hn hn
  · have habs := toDigits_inj (List.cons.inj h).2
    omega
  · obtain ⟨c, rest, hcons, hdigit⟩ := exists_toDigits_eq_cons n.natAbs
    rw [hcons] at h
    rw [← (List.cons.inj h).1] at hdigit
    cases hdigit
  · obtain ⟨c, rest, hcons, hdigit⟩ := exists_toDigits_eq_cons m.natAbs
    rw [hcons] at h
    rw [(List.cons.inj h).1] at hdigit
    cases hdigit
  · have habs := toDigits_inj h
    omega

/-! ## Decimals -/

/-- The digits of a decimal without the zeros at the end. -/
def significant (d : Decimal) : List Char :=
  ((Nat.toDigits 10 d.coefficient).reverse.dropWhile (· == '0')).reverse

/-- Where the point stands, counted from the first digit. -/
def pointPosition (d : Decimal) : ℤ := (Nat.toDigits 10 d.coefficient).length + d.exponent

/-- An exponent with a sign and at least two digits. -/
def exponentText (e : ℤ) : List Char :=
  (if e < 0 then '-' else '+') ::
    ((if e.natAbs < 10 then ['0'] else []) ++ Nat.toDigits 10 e.natAbs)

/-- A positive decimal, with an exponent if the point is far away. -/
def decimalText (d : Decimal) : List Char :=
  let digits := significant d
  let point := pointPosition d
  if -4 < point ∧ point ≤ 16 then
    if point ≤ 0 then '0' :: '.' :: (List.replicate (-point).toNat '0' ++ digits)
    else if point < digits.length then digits.take point.toNat ++ '.' :: digits.drop point.toNat
    else digits ++ List.replicate (point - digits.length).toNat '0' ++ ['.', '0']
  else
    digits.take 1 ++ (if digits.length ≤ 1 then [] else '.' :: digits.drop 1) ++
      'e' :: exponentText (point - 1)

/-- The number that some digits are. -/
def digitsValue (digits : List Char) : ℕ := Nat.ofDigitChars 10 digits 0

/-- Read an exponent with its sign. -/
def readExponent : List Char → ℤ
  | '-' :: digits => -digitsValue digits
  | '+' :: digits => digitsValue digits
  | _ => 0

/-- Read a decimal. -/
def readDecimal (text : List Char) : ℚ :=
  let mantissa := text.takeWhile (· != 'e')
  let whole := mantissa.takeWhile (· != '.')
  let fraction := (mantissa.dropWhile (· != '.')).drop 1
  digitsValue (whole ++ fraction) *
    10 ^ (readExponent ((text.dropWhile (· != 'e')).drop 1) - fraction.length)

theorem digitsValue_zeros_append (n : ℕ) (digits : List Char) :
    digitsValue (List.replicate n '0' ++ digits) = digitsValue digits := by
  rw [digitsValue, Nat.ofDigitChars_append, Nat.ofDigitChars_replicate_zero, Nat.mul_zero,
    digitsValue]

theorem digitsValue_append_zeros (n : ℕ) (digits : List Char) :
    digitsValue (digits ++ List.replicate n '0') = 10 ^ n * digitsValue digits := by
  rw [digitsValue, Nat.ofDigitChars_append, Nat.ofDigitChars_replicate_zero, digitsValue]

theorem readExponent_exponentText (e : ℤ) : readExponent (exponentText e) = e := by
  have hdigits : ∀ n : ℕ, digitsValue ((if n < 10 then ['0'] else []) ++ Nat.toDigits 10 n) = n := by
    intro n
    have hzeros : (if n < 10 then ['0'] else []) =
        List.replicate (if n < 10 then 1 else 0) '0' := by split <;> rfl
    rw [hzeros, digitsValue_zeros_append, digitsValue, Nat.ofDigitChars_ten_toDigits]
  rw [exponentText]
  split
  · rw [readExponent, hdigits]
    omega
  · rw [readExponent, hdigits]
    omega

/-- Read a decimal that is written with a point or an exponent. -/
theorem readDecimal_append (whole fraction mid tail : List Char) {e : ℤ}
    (hwhole : ∀ c ∈ whole, c.isDigit = true) (hfraction : ∀ c ∈ fraction, c.isDigit = true)
    (hmid : mid = '.' :: fraction ∨ mid = [] ∧ fraction = [])
    (htail : tail = 'e' :: exponentText e ∨ tail = [] ∧ e = 0) :
    readDecimal (whole ++ mid ++ tail) =
      digitsValue (whole ++ fraction) * 10 ^ (e - fraction.length) := by
  have hdigit : ∀ {c : Char}, c.isDigit = true → c ≠ 'e' ∧ c ≠ '.' := by
    rintro c hc
    constructor <;>
    · rintro rfl
      cases hc
  have hmantissa : ∀ c ∈ whole ++ mid, (c != 'e') = true := by
    intro c hc
    rw [bne_iff_ne]
    rcases List.mem_append.mp hc with hc | hc
    · exact (hdigit (hwhole c hc)).1
    · rcases hmid with rfl | ⟨rfl, -⟩
      · rcases List.mem_cons.mp hc with rfl | hc
        · decide
        · exact (hdigit (hfraction c hc)).1
      · cases hc
  have hpoint : ∀ c ∈ whole, (c != '.') = true := fun c hc => bne_iff_ne.mpr (hdigit (hwhole c hc)).2
  have htake : (whole ++ mid ++ tail).takeWhile (· != 'e') = whole ++ mid := by
    rw [List.takeWhile_append_of_pos hmantissa]
    rcases htail with rfl | ⟨rfl, -⟩
    · rw [List.takeWhile_cons_of_neg (by decide), List.append_nil]
    · rw [List.takeWhile_nil, List.append_nil]
  have hdrop : readExponent (((whole ++ mid ++ tail).dropWhile (· != 'e')).drop 1) = e := by
    rw [List.dropWhile_append_of_pos hmantissa]
    rcases htail with rfl | ⟨rfl, rfl⟩
    · rw [List.dropWhile_cons_of_neg (by decide), List.drop_one, List.tail_cons,
        readExponent_exponentText]
    · rfl
  have hwholeTake : (whole ++ mid).takeWhile (· != '.') = whole := by
    rw [List.takeWhile_append_of_pos hpoint]
    rcases hmid with rfl | ⟨rfl, -⟩
    · rw [List.takeWhile_cons_of_neg (by decide), List.append_nil]
    · rw [List.takeWhile_nil, List.append_nil]
  have hfractionDrop : ((whole ++ mid).dropWhile (· != '.')).drop 1 = fraction := by
    rw [List.dropWhile_append_of_pos hpoint]
    rcases hmid with rfl | ⟨rfl, rfl⟩
    · rw [List.dropWhile_cons_of_neg (by decide), List.drop_one, List.tail_cons]
    · rfl
  simp only [readDecimal]
  rw [htake, hdrop, hwholeTake, hfractionDrop]

/-- Digits are what is left without the zeros at the end, and the zeros. -/
theorem exists_significant_append (d : Decimal) :
    ∃ n, Nat.toDigits 10 d.coefficient = significant d ++ List.replicate n '0' := by
  rw [significant]
  generalize Nat.toDigits 10 d.coefficient = l
  have hzeros : l.reverse.takeWhile (· == '0') =
      List.replicate (l.reverse.takeWhile (· == '0')).length '0' :=
    List.eq_replicate_length.mpr fun c hc => by simpa using List.mem_takeWhile_imp hc
  refine ⟨(l.reverse.takeWhile (· == '0')).length, ?_⟩
  calc l = (l.reverse.takeWhile (· == '0') ++ l.reverse.dropWhile (· == '0')).reverse := by
        rw [List.takeWhile_append_dropWhile, List.reverse_reverse]
    _ = (l.reverse.dropWhile (· == '0')).reverse ++ (l.reverse.takeWhile (· == '0')).reverse :=
        List.reverse_append
    _ = _ := congrArg _ (by conv_lhs => rw [hzeros, List.reverse_replicate])

/-- A decimal is its significant digits, shifted. -/
theorem value_eq_significant (d : Decimal) :
    d.value = digitsValue (significant d) * 10 ^ (pointPosition d - (significant d).length) := by
  obtain ⟨n, hn⟩ := exists_significant_append d
  have hcoefficient : d.coefficient = 10 ^ n * digitsValue (significant d) := by
    rw [← digitsValue_append_zeros, ← hn, digitsValue, Nat.ofDigitChars_ten_toDigits]
  have hposition : pointPosition d - (significant d).length = n + d.exponent := by
    rw [pointPosition, hn, List.length_append, List.length_replicate]
    push_cast
    ring
  rw [Decimal.value, hcoefficient, hposition, zpow_add₀ (by norm_num), zpow_natCast]
  push_cast
  ring

theorem isDigit_significant {d : Decimal} {c : Char} (h : c ∈ significant d) : c.isDigit = true := by
  obtain ⟨n, hn⟩ := exists_significant_append d
  refine isDigit_of_mem (n := d.coefficient) ?_
  rw [hn]
  exact List.mem_append_left _ h

theorem isDigit_replicate {n : ℕ} {c : Char} (h : c ∈ List.replicate n '0') : c.isDigit = true := by
  rw [List.eq_of_mem_replicate h]
  decide

/-- What is written is read back. -/
theorem readDecimal_decimalText {d : Decimal} (hd : significant d ≠ []) :
    readDecimal (decimalText d) = d.value := by
  have hlength := List.length_pos_iff.mpr hd
  have hsignificant : ∀ c ∈ significant d, c.isDigit = true := fun c => isDigit_significant
  rw [value_eq_significant, decimalText]
  split
  · next hnear =>
      split
      · next hsmall =>
          have hread := readDecimal_append ['0']
            (List.replicate (-pointPosition d).toNat '0' ++ significant d) _ [] (List.all_eq_true.mp (by decide))
            (List.forall_mem_append.mpr ⟨fun c => isDigit_replicate, hsignificant⟩)
            (Or.inl rfl) (Or.inr ⟨rfl, rfl⟩)
          rw [List.append_nil] at hread
          rw [show ∀ l, '0' :: '.' :: l = ['0'] ++ '.' :: l from fun _ => rfl, hread]
          have hzeros := digitsValue_zeros_append ((-pointPosition d).toNat + 1) (significant d)
          rw [List.replicate_succ, List.cons_append] at hzeros
          rw [List.singleton_append, hzeros, List.length_append, List.length_replicate]
          congr 2
          push_cast
          omega
      · next hlarge =>
          split
          · next hinside =>
              have hread := readDecimal_append ((significant d).take (pointPosition d).toNat)
                ((significant d).drop (pointPosition d).toNat) _ []
                (fun c hc => hsignificant c (List.mem_of_mem_take hc))
                (fun c hc => hsignificant c (List.mem_of_mem_drop hc)) (Or.inl rfl)
                (Or.inr ⟨rfl, rfl⟩)
              rw [List.append_nil] at hread
              rw [hread, List.take_append_drop, List.length_drop]
              congr 2
              omega
          · next hinside =>
              have hread := readDecimal_append (significant d ++
                  List.replicate (pointPosition d - (significant d).length).toNat '0') ['0'] _ []
                (List.forall_mem_append.mpr ⟨hsignificant, fun c => isDigit_replicate⟩)
                (List.all_eq_true.mp (by decide)) (Or.inl rfl) (Or.inr ⟨rfl, rfl⟩)
              rw [List.append_nil] at hread
              have hzeros := digitsValue_append_zeros
                ((pointPosition d - (significant d).length).toNat + 1) (significant d)
              rw [List.replicate_succ', ← List.append_assoc] at hzeros
              have hexponent : pointPosition d - (significant d).length =
                  ((pointPosition d - (significant d).length).toNat + 1 : ℕ) + (0 - (1 : ℕ)) := by
                omega
              rw [hread, hzeros, List.length_singleton, hexponent, zpow_add₀ (by norm_num),
                zpow_natCast, ← hexponent]
              push_cast
              ring
  · next hfar =>
      have hread := readDecimal_append ((significant d).take 1) ((significant d).drop 1)
        (if (significant d).length ≤ 1 then [] else '.' :: (significant d).drop 1)
        ('e' :: exponentText (pointPosition d - 1))
        (fun c hc => hsignificant c (List.mem_of_mem_take hc))
        (fun c hc => hsignificant c (List.mem_of_mem_drop hc))
        (by
          split
          · next hone => exact Or.inr ⟨rfl, List.drop_eq_nil_of_le hone⟩
          · exact Or.inl rfl)
        (Or.inl rfl)
      rw [hread, List.take_append_drop, List.length_drop]
      congr 2
      omega

theorem isNumeric_of_isDigit {c : Char} (h : c.isDigit = true) : isNumeric c = true := by
  rw [isNumeric, h, Bool.true_or]

theorem isNumeric_exponentText (e : ℤ) : ∀ c ∈ exponentText e, isNumeric c = true := by
  rw [exponentText]
  refine List.forall_mem_cons.mpr ⟨by split <;> decide, List.forall_mem_append.mpr ⟨?_, ?_⟩⟩
  · split <;> exact List.all_eq_true.mp (by decide)
  · exact fun c hc => isNumeric_of_isDigit (isDigit_of_mem hc)

/-- What a number that is not an integer is written with: it starts with a digit, and has a point or an
exponent. -/
structure IsDecimalText (text : List Char) : Prop where
  start : ∃ c rest, text = c :: rest ∧ c.isDigit = true
  numeric : ∀ c ∈ text, isNumeric c = true
  marked : ∃ c ∈ text, c = '.' ∨ c = 'e'

theorem isDecimalText {d : Decimal} (hd : significant d ≠ []) : IsDecimalText (decimalText d) := by
  have hsignificant : ∀ c ∈ significant d, isNumeric c = true :=
    fun c hc => isNumeric_of_isDigit (isDigit_significant hc)
  have hzeros : ∀ n, ∀ c ∈ List.replicate n '0', isNumeric c = true :=
    fun n c hc => isNumeric_of_isDigit (isDigit_replicate hc)
  obtain ⟨c, rest, hcons⟩ := List.exists_cons_of_ne_nil hd
  have hdigit : c.isDigit = true := isDigit_significant (d := d) (hcons ▸ List.mem_cons_self)
  rw [decimalText]
  split
  · next hnear =>
      split
      · next hsmall =>
          refine ⟨⟨_, _, rfl, by decide⟩, ?_, '.', ?_, Or.inl rfl⟩
          · refine List.forall_mem_cons.mpr ⟨by decide, List.forall_mem_cons.mpr ⟨by decide, ?_⟩⟩
            exact List.forall_mem_append.mpr ⟨hzeros _, hsignificant⟩
          · exact List.mem_cons_of_mem _ List.mem_cons_self
      · next hlarge =>
          split
          · next hinside =>
              refine ⟨⟨c, rest.take ((pointPosition d).toNat - 1) ++
                '.' :: (significant d).drop (pointPosition d).toNat, ?_, hdigit⟩, ?_, '.', ?_,
                Or.inl rfl⟩
              · have hpos : (pointPosition d).toNat = (pointPosition d).toNat - 1 + 1 := by omega
                rw [← List.cons_append]
                congr 1
                rw [hcons, hpos, List.take_succ_cons]
                rfl
              · refine List.forall_mem_append.mpr
                  ⟨fun c hc => hsignificant c (List.mem_of_mem_take hc), ?_⟩
                exact List.forall_mem_cons.mpr
                  ⟨by decide, fun c hc => hsignificant c (List.mem_of_mem_drop hc)⟩
              · exact List.mem_append_right _ List.mem_cons_self
          · next hinside =>
              refine ⟨⟨c, rest ++ List.replicate _ '0' ++ ['.', '0'], by rw [hcons]; rfl, hdigit⟩, ?_,
                '.', ?_, Or.inl rfl⟩
              · exact List.forall_mem_append.mpr
                  ⟨List.forall_mem_append.mpr ⟨hsignificant, hzeros _⟩, List.all_eq_true.mp (by decide)⟩
              · exact List.mem_append_right _ List.mem_cons_self
  · next hfar =>
      refine ⟨⟨c, (if (significant d).length ≤ 1 then [] else '.' :: (significant d).drop 1) ++
        'e' :: exponentText (pointPosition d - 1), by rw [hcons]; rfl, hdigit⟩, ?_, 'e', ?_,
        Or.inr rfl⟩
      · refine List.forall_mem_append.mpr ⟨List.forall_mem_append.mpr
          ⟨fun c hc => hsignificant c (List.mem_of_mem_take hc), ?_⟩, ?_⟩
        · split
          · exact nofun
          · exact List.forall_mem_cons.mpr
              ⟨by decide, fun c hc => hsignificant c (List.mem_of_mem_drop hc)⟩
        · exact List.forall_mem_cons.mpr ⟨by decide, isNumeric_exponentText _⟩
      · exact List.mem_append_right _ List.mem_cons_self

/-- The number that is printed is positive. -/
theorem significant_shortest_ne_nil (m : Magnitude) : significant m.shortest ≠ [] := by
  intro hnil
  have hreads := m.readsAs_shortest
  have hlower : 0 < m.lower := by
    have hone : (1 : ℚ) ≤ m.mantissa := by exact_mod_cast m.canonical.1
    have hreach := m.reach_le
    exact mul_pos (by linarith) m.ulp_pos
  have hvalue := value_eq_significant m.shortest
  rw [hnil] at hvalue
  have hzero : m.shortest.value = 0 := by
    rw [hvalue]
    exact zero_mul _
  have hle := hreads.1
  rw [hzero] at hle
  exact absurd hlower (not_lt_of_ge hle)

/-! ## Floats -/

/-- `repr` of a finite float; `json.dumps` writes the others as it does if they are allowed. -/
def floatText (x : Float) : List Char :=
  match x.toModel.unpack with
  | .notANumber => ['N', 'a', 'N']
  | .infinity .positive => ['I', 'n', 'f', 'i', 'n', 'i', 't', 'y']
  | .infinity .negative => ['-', 'I', 'n', 'f', 'i', 'n', 'i', 't', 'y']
  | .zero .positive => ['0', '.', '0']
  | .zero .negative => ['-', '0', '.', '0']
  | .finite _ _ _ _ =>
      match magnitude? x with
      | some m => (if isNegative x then ['-'] else []) ++ decimalText m.shortest
      | none => []

theorem shortest_value_ne_zero (m : Magnitude) : m.shortest.value ≠ 0 := by
  have hlower : 0 < m.lower := by
    have hone : (1 : ℚ) ≤ m.mantissa := by exact_mod_cast m.canonical.1
    have hreach := m.reach_le
    exact mul_pos (by linarith) m.ulp_pos
  exact ne_of_gt (lt_of_lt_of_le hlower m.readsAs_shortest.1)

/-- The sign of a number and its size tell what it unpacks to. -/
theorem unpack_eq_of_parts {x y : Float} (hx : x.isFinite = true) (hy : y.isFinite = true)
    (hsign : isNegative x = isNegative y) (hsize : magnitude? x = magnitude? y) :
    x.toModel.unpack = y.toModel.unpack := by
  rw [Float.isFinite, Float.Model.isFinite] at hx hy
  rw [isNegative, isNegative] at hsign
  cases hunpack : x.toModel.unpack with
  | notANumber =>
      rw [hunpack] at hx
      cases hx
  | infinity s =>
      rw [hunpack] at hx
      cases hx
  | zero s =>
      cases hunpack' : y.toModel.unpack with
      | notANumber =>
          rw [hunpack'] at hy
          cases hy
      | infinity s' =>
          rw [hunpack'] at hy
          cases hy
      | zero s' =>
          rw [hunpack, hunpack'] at hsign
          cases s <;> cases s' <;> first | rfl | cases hsign
      | finite s' mantissa exponent hpos =>
          rw [magnitude?_of_unpack hunpack', magnitude?, hunpack] at hsize
          cases hsize
  | finite s mantissa exponent hpos =>
      cases hunpack' : y.toModel.unpack with
      | notANumber =>
          rw [hunpack'] at hy
          cases hy
      | infinity s' =>
          rw [hunpack'] at hy
          cases hy
      | zero s' =>
          rw [magnitude?_of_unpack hunpack, magnitude?, hunpack'] at hsize
          cases hsize
      | finite s' mantissa' exponent' hpos' =>
          rw [magnitude?_of_unpack hunpack, magnitude?_of_unpack hunpack', Option.some.injEq,
            Magnitude.mk.injEq] at hsize
          obtain ⟨rfl, rfl⟩ := hsize
          rw [hunpack, hunpack'] at hsign
          cases s <;> cases s' <;> first | rfl | cases hsign

/-- A finite float is written with its sign and its size. -/
theorem exists_floatText_eq {x : Float} (hx : x.isFinite = true) :
    ∃ body, floatText x = (if isNegative x then ['-'] else []) ++ body ∧ IsDecimalText body ∧
      readDecimal body = (magnitude? x).elim 0 fun m => m.shortest.value := by
  have hzero : IsDecimalText ['0', '.', '0'] :=
    ⟨⟨'0', ['.', '0'], rfl, by decide⟩, List.all_eq_true.mp (by decide), '.', by decide, Or.inl rfl⟩
  have hread : readDecimal ['0', '.', '0'] = 0 := by decide +kernel
  have hfinite := hx
  rw [Float.isFinite, Float.Model.isFinite] at hfinite
  cases hunpack : x.toModel.unpack with
  | notANumber =>
      rw [hunpack] at hfinite
      cases hfinite
  | infinity s =>
      rw [hunpack] at hfinite
      cases hfinite
  | zero s =>
      rw [floatText, isNegative, magnitude?, hunpack]
      cases s with
      | positive => exact ⟨_, rfl, hzero, hread⟩
      | negative => exact ⟨_, rfl, hzero, hread⟩
  | finite s mantissa exponent hpos =>
      rw [floatText, hunpack]
      simp only
      rw [magnitude?_of_unpack hunpack]
      have hne := significant_shortest_ne_nil ⟨mantissa, exponent, canonical_of_unpack hunpack⟩
      exact ⟨_, rfl, isDecimalText hne, readDecimal_decimalText hne⟩

/-- Different finite floats are written differently. -/
theorem floatText_inj {x y : Float} (hx : x.isFinite = true) (hy : y.isFinite = true)
    (h : floatText x = floatText y) : x = y := by
  obtain ⟨body, hbody, ⟨⟨c, rest, hcons, hdigit⟩, -, -⟩, hread⟩ := exists_floatText_eq hx
  obtain ⟨body', hbody', ⟨⟨c', rest', hcons', hdigit'⟩, -, -⟩, hread'⟩ := exists_floatText_eq hy
  rw [hbody, hbody', hcons, hcons'] at h
  have hne : ∀ {c : Char}, c.isDigit = true → c ≠ '-' := by
    rintro c hc rfl
    cases hc
  have hsame : isNegative x = isNegative y ∧ body = body' := by
    rw [hcons, hcons']
    cases hx' : isNegative x <;> cases hy' : isNegative y <;> rw [hx', hy'] at h
    · exact ⟨rfl, h⟩
    · exact absurd (List.cons.inj h).1 (hne hdigit)
    · exact absurd (List.cons.inj h).1.symm (hne hdigit')
    · exact ⟨rfl, (List.cons.inj h).2⟩
  obtain ⟨hsign, rfl⟩ := hsame
  refine eq_of_unpack_eq hx (unpack_eq_of_parts hx hy hsign ?_)
  rw [hread] at hread'
  cases hm : magnitude? x with
  | none =>
      cases hm' : magnitude? y with
      | none => rfl
      | some m' =>
          rw [hm, hm'] at hread'
          exact absurd hread'.symm (shortest_value_ne_zero m')
  | some m =>
      cases hm' : magnitude? y with
      | none =>
          rw [hm, hm'] at hread'
          exact absurd hread' (shortest_value_ne_zero m)
      | some m' =>
          rw [hm, hm'] at hread'
          rw [Magnitude.eq_of_shortest_eq hread']

theorem isNumeric_intText (n : Int) : ∀ c ∈ intText n, isNumeric c = true := by
  have hdigits : ∀ c ∈ Nat.toDigits 10 n.natAbs, isNumeric c = true :=
    fun c hc => isNumeric_of_isDigit (isDigit_of_mem hc)
  rw [intText]
  split
  · exact List.forall_mem_cons.mpr ⟨by decide, hdigits⟩
  · exact hdigits

theorem isNumeric_floatText {x : Float} (hx : x.isFinite = true) :
    ∀ c ∈ floatText x, isNumeric c = true := by
  obtain ⟨body, hbody, hdecimal, -⟩ := exists_floatText_eq hx
  rw [hbody]
  refine List.forall_mem_append.mpr ⟨?_, hdecimal.numeric⟩
  split <;> exact List.all_eq_true.mp (by decide)

/-- An integer is not written like a float. -/
theorem intText_ne_floatText {n : Int} {x : Float} (hx : x.isFinite = true) :
    intText n ≠ floatText x := by
  obtain ⟨body, hbody, hdecimal, -⟩ := exists_floatText_eq hx
  obtain ⟨c, hc, hmark⟩ := hdecimal.marked
  intro h
  have hmem : c ∈ intText n := by
    rw [h, hbody]
    exact List.mem_append_right _ hc
  have hdigit : c.isDigit = true ∨ c = '-' := by
    rw [intText] at hmem
    split at hmem
    · rcases List.mem_cons.mp hmem with rfl | hmem
      · exact Or.inr rfl
      · exact Or.inl (isDigit_of_mem hmem)
    · exact Or.inl (isDigit_of_mem hmem)
  rcases hmark with rfl | rfl <;> revert hdigit <;> decide

end Py
