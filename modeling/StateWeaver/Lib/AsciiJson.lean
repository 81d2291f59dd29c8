import Mathlib
import StateWeaver.Lib.Json
import StateWeaver.Lib.NumberText
import StateWeaver.Lib.Python

/-!
# JSON in ASCII

How `json.dumps` writes a value with its default of escaping everything beyond ASCII. A text of Python
is a list of code points, which may be surrogates; a code point beyond the basic plane is written as
the escapes of two surrogates.
-/

namespace Py

/-- A code point. -/
abbrev CodePoint := Fin 0x110000

/-- A text of Python. -/
abbrev Text := List CodePoint

instance instNeZeroCodePoints : NeZero 0x110000 := ⟨by decide⟩

instance instLawfulBEqText : LawfulBEq Text := inferInstance

/-- A character is a code point. -/
def CodePoint.ofChar (c : Char) : CodePoint :=
  ⟨c.toNat, by
    rcases c.valid with h | h
    · exact Nat.lt_trans h (by decide)
    · exact h.2⟩

/-- A literal text. -/
def text (s : String) : Text := s.toList.map CodePoint.ofChar

theorem CodePoint.ofChar_injective : Function.Injective CodePoint.ofChar := fun _ _ h =>
  Char.toNat_inj.mp (Fin.mk.inj h)

theorem text_injective : Function.Injective text := fun _ _ h =>
  String.toList_injective (List.map_injective_iff.mpr CodePoint.ofChar_injective h)

/-- A scalar of JSON. -/
inductive Literal where
  | null
  | bool (b : Bool)
  | int (n : Int)
  | float (x : Float)
  | str (s : Text)
  deriving DecidableEq

/-- A JSON value, as `json.loads` returns it. -/
abbrev Tree := Json Literal Text

/-! ## Equality -/

/-- Where a number lies; a `bool` is a number. -/
def Literal.position? : Literal → Option Position
  | .bool b => some (intPosition (if b then 1 else 0))
  | .int n => some (intPosition n)
  | .float x => some (floatPosition x)
  | .null | .str _ => none

/-- `a == b`. A NaN is not equal to itself. -/
def Literal.eq (a b : Literal) : Bool :=
  match a, b with
  | .null, .null => true
  | .str s, .str t => s = t
  | a, b => a.position?.isSome ∧ a.position? = b.position? ∧ a.position? ≠ some .nowhere

mutual

/-- `a == b`; the entries of a mapping are compared in any order. -/
def equal : Tree → Tree → Bool
  | .scalar a, .scalar b => a.eq b
  | .arr items, .arr items' => equalItems items items'
  | .obj entries, .obj entries' => entries.length = entries'.length && equalEntries entries entries'
  | _, _ => false

def equalItems : List Tree → List Tree → Bool
  | [], [] => true
  | v :: items, w :: items' => equal v w && equalItems items items'
  | _, _ => false

/-- Whether every entry is also in another mapping. -/
def equalEntries : List (Text × Tree) → List (Text × Tree) → Bool
  | [], _ => true
  | (key, v) :: entries, entries' =>
      (match entries'.lookup key with
        | some w => equal v w
        | none => false) && equalEntries entries entries'

end

/-! ## Surrogates -/

def isHighSurrogate (c : CodePoint) : Bool := 0xd800 ≤ c.val && c.val < 0xdc00

def isLowSurrogate (c : CodePoint) : Bool := 0xdc00 ≤ c.val && c.val < 0xe000

def isSurrogate (c : CodePoint) : Bool := isHighSurrogate c || isLowSurrogate c

/-- The code point that two surrogates stand for. -/
def combine (high low : CodePoint) : CodePoint :=
  Fin.ofNat 0x110000 (0x10000 + (high.val - 0xd800) * 0x400 + (low.val - 0xdc00))

/-- A code point as it is written: by itself or by two surrogates. -/
def units (c : CodePoint) : Text :=
  if c.val < 0x10000 then [c]
  else
    [Fin.ofNat 0x110000 (0xd800 + (c.val - 0x10000) / 0x400),
      Fin.ofNat 0x110000 (0xdc00 + (c.val - 0x10000) % 0x400)]

/-- A text with every high surrogate joined to a low one that follows it. -/
def joinSurrogates : Text → Text
  | high :: low :: rest =>
      if isHighSurrogate high && isLowSurrogate low then combine high low :: joinSurrogates rest
      else high :: joinSurrogates (low :: rest)
  | short => short

/-- What is read of a text that was written. -/
def normalize (s : Text) : Text := joinSurrogates (s.flatMap units)

/-! ## Writing -/

/-- A number below `65536` with four hexadecimal digits. -/
def hex4 (n : ℕ) : List Char :=
  [Nat.digitChar (n / 0x1000 % 16), Nat.digitChar (n / 0x100 % 16), Nat.digitChar (n / 0x10 % 16),
    Nat.digitChar (n % 16)]

/-- A code point of the basic plane between quotes. -/
def escapeUnit (c : CodePoint) : List Char :=
  if c.val = 34 then ['\\', '"']
  else if c.val = 92 then ['\\', '\\']
  else if c.val = 10 then ['\\', 'n']
  else if c.val = 13 then ['\\', 'r']
  else if c.val = 9 then ['\\', 't']
  else if c.val = 8 then ['\\', 'b']
  else if c.val = 12 then ['\\', 'f']
  else if 32 ≤ c.val ∧ c.val ≤ 126 then [Char.ofNat c.val]
  else '\\' :: 'u' :: hex4 c.val

/-- A text between quotes. -/
def quoteAscii (s : Text) : List Char := '"' :: (s.flatMap units).flatMap escapeUnit ++ ['"']

/-- A scalar as `json.dumps` writes it. -/
def literalText : Literal → List Char
  | .null => ['n', 'u', 'l', 'l']
  | .bool true => ['t', 'r', 'u', 'e']
  | .bool false => ['f', 'a', 'l', 's', 'e']
  | .int n => intText n
  | .float x => floatText x
  | .str s => quoteAscii s

/-- The syntax of JSON in ASCII. -/
def asciiSyntax : Json.Syntax Literal Text := ⟨literalText, quoteAscii⟩

/-- Why `json.dumps` does not write a scalar: it is not finite, or an integer has more digits than
Python converts. -/
def literalError : Literal → Option String
  | .float x => if x.isFinite then none else some "Out of range float values are not JSON compliant"
  | .int n =>
      if (Nat.toDigits 10 n.natAbs).length ≤ 4300 then none
      else some "Exceeds the limit (4300 digits) for integer string conversion"
  | _ => none

/-- The text of a value with sorted keys and without blanks. -/
def canonicalText (v : Tree) : List Char := Json.text asciiSyntax v.sort

/-- `json.dumps` with sorted keys, without blanks and without infinities. -/
def dumpsAscii (v : Tree) : Except String (List Char) :=
  match v.sort.scalars.findSome? literalError with
  | some e => .error e
  | none => .ok (canonicalText v)

theorem dumpsAscii_eq_ok {v : Tree} {t : List Char} :
    dumpsAscii v = .ok t ↔ (∀ s ∈ v.scalars, literalError s = none) ∧ t = canonicalText v := by
  rw [dumpsAscii]
  cases hfind : v.sort.scalars.findSome? literalError with
  | none =>
      have hnone : ∀ s ∈ v.scalars, literalError s = none := fun s hs =>
        List.findSome?_eq_none_iff.mp hfind s ((Json.mem_scalars_sort v s).mpr hs)
      rw [Except.ok.injEq, eq_comm]
      exact (and_iff_right hnone).symm
  | some e =>
      refine iff_of_false nofun fun h => ?_
      obtain ⟨s, hs, herror⟩ := List.exists_of_findSome?_eq_some hfind
      rw [h.1 s ((Json.mem_scalars_sort v s).mp hs)] at herror
      cases herror

/-! ## What is written of surrogates -/

/-- Whether a code point is written as a single escape or character. -/
def InPlane (c : CodePoint) : Prop := c.val < 0x10000

theorem inPlane_of_mem_units {c u : CodePoint} (h : u ∈ units c) : InPlane u := by
  have hc := c.isLt
  rw [units] at h
  split at h
  · next hplane =>
      rw [List.mem_singleton] at h
      rw [h]
      exact hplane
  · simp only [List.mem_cons, List.not_mem_nil, or_false] at h
    rcases h with rfl | rfl
    · rw [InPlane, Fin.val_ofNat]
      omega
    · rw [InPlane, Fin.val_ofNat]
      omega

theorem inPlane_of_mem_flatMap {s : Text} : ∀ u ∈ s.flatMap units, InPlane u := by
  intro u hu
  obtain ⟨c, -, hc⟩ := List.mem_flatMap.mp hu
  exact inPlane_of_mem_units hc

theorem units_of_inPlane {c : CodePoint} (h : InPlane c) : units c = [c] := if_pos h

/-- Two surrogates that were joined are written as they were. -/
theorem units_combine {high low : CodePoint} (hhigh : isHighSurrogate high = true)
    (hlow : isLowSurrogate low = true) : units (combine high low) = [high, low] := by
  simp only [isHighSurrogate, isLowSurrogate, Bool.and_eq_true, decide_eq_true_eq] at hhigh hlow
  have hval : (combine high low).val =
      0x10000 + (high.val - 0xd800) * 0x400 + (low.val - 0xdc00) := by
    rw [combine, Fin.val_ofNat]
    exact Nat.mod_eq_of_lt (by omega)
  have hnot : ¬ (combine high low).val < 0x10000 := by omega
  have hfirst : Fin.ofNat 0x110000 (0xd800 + ((combine high low).val - 0x10000) / 0x400) = high := by
    refine Fin.ext ?_
    rw [Fin.val_ofNat]
    omega
  have hsecond : Fin.ofNat 0x110000 (0xdc00 + ((combine high low).val - 0x10000) % 0x400) = low := by
    refine Fin.ext ?_
    rw [Fin.val_ofNat]
    omega
  rw [units, if_neg hnot, hfirst, hsecond]

/-- Joining surrogates changes nothing that is written. -/
theorem flatMap_units_joinSurrogates {s : Text} (h : ∀ c ∈ s, InPlane c) :
    (joinSurrogates s).flatMap units = s := by
  fun_induction joinSurrogates s with
  | case1 high low rest hpair ih =>
      obtain ⟨hhigh, hlow⟩ := Bool.and_eq_true_iff.mp hpair
      obtain ⟨-, htail⟩ := List.forall_mem_cons.mp h
      obtain ⟨-, hrest⟩ := List.forall_mem_cons.mp htail
      rw [List.flatMap_cons, units_combine hhigh hlow, ih hrest]
      rfl
  | case2 high low rest hpair ih =>
      obtain ⟨hhigh, hrest⟩ := List.forall_mem_cons.mp h
      rw [List.flatMap_cons, units_of_inPlane hhigh, ih hrest]
      rfl
  | case3 short hshort =>
      rcases short with _ | ⟨c, _ | ⟨d, rest⟩⟩
      · rfl
      · rw [List.flatMap_cons, units_of_inPlane (h c List.mem_cons_self)]
        rfl
      · exact absurd rfl (hshort c d rest)

theorem flatMap_units_normalize (s : Text) : (normalize s).flatMap units = s.flatMap units :=
  flatMap_units_joinSurrogates inPlane_of_mem_flatMap

@[simp]
theorem normalize_normalize (s : Text) : normalize (normalize s) = normalize s := by
  rw [normalize, flatMap_units_normalize, ← normalize]

/-- A code point beyond the plane is read as it was. -/
theorem exists_units {c : CodePoint} (h : ¬ InPlane c) : ∃ high low,
    units c = [high, low] ∧ isHighSurrogate high = true ∧ isLowSurrogate low = true ∧
      combine high low = c := by
  have hc := c.isLt
  rw [InPlane, Nat.not_lt] at h
  have hhigh : (Fin.ofNat 0x110000 (0xd800 + (c.val - 0x10000) / 0x400)).val =
      0xd800 + (c.val - 0x10000) / 0x400 := by
    rw [Fin.val_ofNat]
    omega
  have hlow : (Fin.ofNat 0x110000 (0xdc00 + (c.val - 0x10000) % 0x400)).val =
      0xdc00 + (c.val - 0x10000) % 0x400 := by
    rw [Fin.val_ofNat]
    omega
  refine ⟨_, _, if_neg (Nat.not_lt.mpr h), ?_, ?_, Fin.ext ?_⟩
  · rw [isHighSurrogate, hhigh, Bool.and_eq_true, decide_eq_true_eq, decide_eq_true_eq]
    omega
  · rw [isLowSurrogate, hlow, Bool.and_eq_true, decide_eq_true_eq, decide_eq_true_eq]
    omega
  · rw [combine, hhigh, hlow, Fin.val_ofNat]
    omega

/-- A text without surrogates is read as it was. -/
theorem normalize_eq_self {s : Text} (h : ∀ c ∈ s, isSurrogate c = false) : normalize s = s := by
  induction s with
  | nil => rfl
  | cons c s ih =>
      obtain ⟨hc, hs⟩ := List.forall_mem_cons.mp h
      have htail : joinSurrogates (s.flatMap units) = s := ih hs
      rw [normalize, List.flatMap_cons]
      by_cases hplane : InPlane c
      · have hhigh := (Bool.or_eq_false_iff.mp hc).1
        rw [units_of_inPlane hplane, List.singleton_append]
        cases hunits : s.flatMap units with
        | nil =>
            rw [hunits] at htail
            rw [← htail]
            rfl
        | cons d rest =>
            rw [joinSurrogates, hhigh, Bool.false_and, if_neg (by decide), ← hunits, htail]
      · obtain ⟨high, low, hunits, hhigh, hlow, hcombine⟩ := exists_units hplane
        rw [hunits, List.cons_append, List.cons_append, List.nil_append, joinSurrogates, hhigh, hlow,
          Bool.true_and, if_pos rfl, hcombine, htail]

@[simp]
theorem quoteAscii_normalize (s : Text) : quoteAscii (normalize s) = quoteAscii s := by
  rw [quoteAscii, flatMap_units_normalize, ← quoteAscii]

/-- A scalar as it is read of its text. -/
def Literal.normalize : Literal → Literal
  | .str s => .str (Py.normalize s)
  | s => s

theorem literalText_normalize (s : Literal) : literalText s.normalize = literalText s := by
  cases s with
  | str s => exact quoteAscii_normalize s
  | _ => rfl

example : String.ofList (quoteAscii (text "a\"\n\x7fé😀")) = "\"a\\\"\\n\\u007f\\u00e9\\ud83d\\ude00\"" := by
  decide +kernel

end Py
