import Mathlib

/-!
# Decimal numbers in bytes

`int` on bytes takes more than a minus sign and decimal digits: white space around the number, a plus sign, and
underscores between digits. It refuses more than 4300 digits.
-/

namespace Py

def isSpaceByte (b : UInt8) : Bool := b == 32 || (9 ≤ b && b ≤ 13)

def isDigitByte (b : UInt8) : Bool := 48 ≤ b && b ≤ 57

/-- The number that decimal digits stand for. -/
def digitsNumber (digits : List UInt8) : ℕ := digits.foldl (fun n b => 10 * n + (b.toNat - 48)) 0

/-- Decimal digits with single underscores between them, at most 4300 of them. -/
def underscoredNumber (digits : List UInt8) : Option ℕ :=
  let plain := digits.filter (· ≠ 95)
  if digits ≠ [] ∧ plain.all isDigitByte ∧ digits.head? ≠ some 95 ∧ digits.getLast? ≠ some 95 ∧
      ¬[95, 95] <:+: digits ∧ plain.length ≤ 4300 then
    some (digitsNumber plain)
  else none

/-- `int(content)`, nothing for `ValueError`. -/
def intOfBytes (content : List UInt8) : Option ℤ :=
  match (content.dropWhile isSpaceByte).rdropWhile isSpaceByte with
  | 43 :: digits => (underscoredNumber digits).map Int.ofNat
  | 45 :: digits => (underscoredNumber digits).map fun n => -Int.ofNat n
  | digits => (underscoredNumber digits).map Int.ofNat

/-- An optional minus sign and decimal digits, for a number. -/
inductive IsDecimal : List UInt8 → ℤ → Prop
  | plain {digits : List UInt8} : digits ≠ [] → digits.all isDigitByte → IsDecimal digits (digitsNumber digits)
  | minus {digits : List UInt8} : digits ≠ [] → digits.all isDigitByte →
      IsDecimal (45 :: digits) (-(digitsNumber digits : ℤ))

/-- The decimal digits among some bytes. -/
def digitCount (content : List UInt8) : ℕ := (content.filter isDigitByte).length

theorem isSpaceByte_of_isDigitByte {b : UInt8} (h : isDigitByte b) : isSpaceByte b = false := by
  rw [isDigitByte, Bool.and_eq_true, decide_eq_true_iff, decide_eq_true_iff, UInt8.le_iff_toNat_le,
    UInt8.le_iff_toNat_le] at h
  simp only [isSpaceByte, Bool.or_eq_false_iff, beq_eq_false_iff_ne, Bool.and_eq_false_iff, decide_eq_false_iff_not,
    UInt8.le_iff_toNat_le]
  refine ⟨?_, Or.inr ?_⟩
  · rintro rfl
    exact absurd h.1 (by decide)
  · have hthirteen : (13 : UInt8).toNat = 13 := rfl
    have hfortyEight : (48 : UInt8).toNat = 48 := rfl
    omega

theorem ne_of_isDigitByte {b c : UInt8} (h : isDigitByte b) (hc : isDigitByte c = false) : b ≠ c := by
  rintro rfl
  rw [h] at hc
  cases hc

section Digits

variable {digits : List UInt8} (hne : digits ≠ []) (hdigits : digits.all isDigitByte)
include hdigits

theorem filter_digits : digits.filter (· ≠ 95) = digits :=
  List.filter_eq_self.mpr fun _ hb =>
    decide_eq_true (ne_of_isDigitByte (List.all_eq_true.mp hdigits _ hb) (by decide))

theorem not_mem_underscore : 95 ∉ digits := fun h =>
  ne_of_isDigitByte (List.all_eq_true.mp hdigits _ h) (by decide) rfl

/-- Nothing is stripped from a number. -/
theorem strip_eq_self {front : List UInt8} (hfront : ∀ b ∈ front, isSpaceByte b = false) :
    ((front ++ digits).dropWhile isSpaceByte).rdropWhile isSpaceByte = front ++ digits := by
  have hall : ∀ b ∈ front ++ digits, isSpaceByte b = false := by
    intro b hb
    rcases List.mem_append.mp hb with hb | hb
    · exact hfront b hb
    · exact isSpaceByte_of_isDigitByte (List.all_eq_true.mp hdigits b hb)
  have hdrop : (front ++ digits).dropWhile isSpaceByte = front ++ digits := by
    refine List.dropWhile_eq_self_iff.mpr fun hpos => ?_
    rw [hall _ (List.getElem_mem hpos)]
    exact Bool.false_ne_true
  rw [hdrop]
  exact List.rdropWhile_eq_self_iff.mpr fun hl => by
    rw [hall _ (List.getLast_mem hl)]
    exact Bool.false_ne_true

include hne

theorem underscoredNumber_of_digits :
    underscoredNumber digits = if digits.length ≤ 4300 then some (digitsNumber digits) else none := by
  have hnot := not_mem_underscore hdigits
  have hhead : digits.head? ≠ some 95 := fun h => hnot (List.mem_of_head? h)
  have hlast : digits.getLast? ≠ some 95 := fun h => hnot (List.mem_of_getLast? h)
  have hdouble : ¬[95, 95] <:+: digits := fun h => hnot (h.subset List.mem_cons_self)
  rw [underscoredNumber, filter_digits hdigits]
  exact if_congr (by tauto) rfl rfl

end Digits

/-- `int` reads a decimal number unless it has too many digits. -/
theorem intOfBytes_of_isDecimal {content : List UInt8} {n : ℤ} (h : IsDecimal content n) :
    intOfBytes content = if digitCount content ≤ 4300 then some n else none := by
  cases h with
  | @plain digits hne hdigits =>
      have hcount : digitCount content = content.length :=
        congrArg List.length (List.filter_eq_self.mpr (List.all_eq_true.mp hdigits))
      have hstrip := @strip_eq_self content hdigits [] nofun
      rw [List.nil_append] at hstrip
      rw [intOfBytes, hstrip]
      split
      · next rest heq => exact absurd (List.all_eq_true.mp hdigits 43 List.mem_cons_self) (by decide)
      · next rest heq => exact absurd (List.all_eq_true.mp hdigits 45 List.mem_cons_self) (by decide)
      · rw [underscoredNumber_of_digits hne hdigits, hcount]
        split <;> rfl
  | @minus digits hne hdigits =>
      have hcount : digitCount (45 :: digits) = digits.length :=
        congrArg List.length (List.filter_eq_self.mpr (List.all_eq_true.mp hdigits))
      have hstrip := @strip_eq_self digits hdigits [45] (by decide +kernel)
      rw [List.singleton_append] at hstrip
      rw [intOfBytes, hstrip]
      change (underscoredNumber digits).map _ = _
      rw [underscoredNumber_of_digits hne hdigits, hcount]
      split <;> rfl

end Py
