import StateWeaver.Lib.AsciiJson
import StateWeaver.Lib.Imperative

/-!
# Reading JSON

`json.loads` of a text with two hooks: an object with two entries for one key is rejected, and so are
the constants that stand for no number. A value that was written in ASCII is read back, except that
surrogates that stand next to each other in a text are joined (`readValue_text`).
-/

namespace Py

/-- Why a text is not read. -/
inductive LoadsError where
  | malformed
  | duplicateKey
  | constant (name : String)
  /-- An integer has more digits than Python converts. -/
  | digits
  deriving DecidableEq

abbrev Reader (α : Type) := List Char → Except LoadsError (α × List Char)

/-! ## Texts -/

/-- The value of a hexadecimal digit. -/
def hexDigit? (c : Char) : Option ℕ :=
  if c.isDigit then some (c.toNat - 48)
  else if 'a' ≤ c ∧ c ≤ 'f' then some (c.toNat - 87)
  else if 'A' ≤ c ∧ c ≤ 'F' then some (c.toNat - 55)
  else none

/-- The value of four hexadecimal digits. -/
def hex4? (a b c d : Char) : Option ℕ := do
  return (← hexDigit? a) * 0x1000 + (← hexDigit? b) * 0x100 + (← hexDigit? c) * 0x10 + (← hexDigit? d)

/-- What a character after a backslash stands for. -/
def simpleEscape? (c : Char) : Option CodePoint :=
  [('"', 34), ('\\', 92), ('/', 47), ('b', 8), ('f', 12), ('n', 10), ('r', 13), ('t', 9)].lookup c

/-- Read one character of a text, or one escape. -/
def readUnit : Reader CodePoint
  | [] => .error .malformed
  | '\\' :: 'u' :: a :: b :: c :: d :: rest =>
      match hex4? a b c d with
      | some n => .ok (Fin.ofNat 0x110000 n, rest)
      | none => .error .malformed
  | '\\' :: c :: rest =>
      match simpleEscape? c with
      | some e => .ok (e, rest)
      | none => .error .malformed
  | c :: rest =>
      if c = '\\' ∨ c.toNat < 32 then .error .malformed else .ok (CodePoint.ofChar c, rest)

/-- Read up to the quote that ends a text. -/
def readUnits : ℕ → Reader Text
  | 0, _ => .error .malformed
  | _ + 1, '"' :: rest => .ok ([], rest)
  | n + 1, rest => do
      let (unit, rest) ← readUnit rest
      let (others, rest) ← readUnits n rest
      return (unit :: others, rest)

/-- Read a text after its first quote. -/
def readText (n : ℕ) : Reader Text := fun rest => do
  let (units, rest) ← readUnits n rest
  return (joinSurrogates units, rest)

/-! ## Numbers -/

/-- The float nearest to a decimal, with an even mantissa if there are two, and an infinity beyond the
largest one. -/
def nearestFloat (negative : Bool) (decimal : ℚ) : Float :=
  let exponent := max (Int.log 2 decimal - 52) (-1074)
  let mantissa := (Decimal.halfEven (decimal / 2 ^ exponent)).toNat
  let bits := if decimal = 0 then 0 else
    min ((exponent + 1074).toNat * 2 ^ 52 + mantissa) (2047 * 2 ^ 52)
  Float.ofBits (UInt64.ofNat ((if negative then 2 ^ 63 else 0) + bits))

/-- The digits before the point: a single zero or digits without leading zeros. -/
def wholeDigits (text : List Char) : List Char :=
  if text.head? = some '0' then ['0'] else text.takeWhile Char.isDigit

/-- The digits behind a point. -/
def fractionDigits : List Char → List Char
  | '.' :: rest => rest.takeWhile Char.isDigit
  | _ => []

/-- The sign and the digits of an exponent, and what comes after them. -/
def readExponentPart : List Char → Option (Bool × List Char × List Char)
  | e :: rest =>
      let signed := rest.head? = some '-' ∨ rest.head? = some '+'
      let digits := (if signed then rest.drop 1 else rest).takeWhile Char.isDigit
      if (e = 'e' ∨ e = 'E') ∧ digits ≠ [] then
        some (rest.head? = some '-', digits, (if signed then rest.drop 1 else rest).drop digits.length)
      else none
  | [] => none

/-- Read a number after its sign: an integer unless a fraction or an exponent follows. -/
def readUnsigned (negative : Bool) : Reader Literal := fun text =>
  let whole := wholeDigits text
  let rest := text.drop whole.length
  let fraction := fractionDigits rest
  let rest := if fraction = [] then rest else rest.drop (fraction.length + 1)
  if whole = [] then .error .malformed
  else
    match readExponentPart rest with
    | some (negativeExponent, digits, rest) =>
        let exponent : ℤ := if negativeExponent then -digitsValue digits else digitsValue digits
        .ok (.float (nearestFloat negative
          (digitsValue (whole ++ fraction) * 10 ^ (exponent - fraction.length))), rest)
    | none =>
        if fraction ≠ [] then
          .ok (.float (nearestFloat negative
            (digitsValue (whole ++ fraction) * 10 ^ (-(fraction.length : ℤ)))), rest)
        else if 4300 < whole.length then .error .digits
        else .ok (.int (if negative then -digitsValue whole else digitsValue whole), rest)

def readNumber : Reader Literal
  | '-' :: rest => readUnsigned true rest
  | rest => readUnsigned false rest

/-- The words that are values, and those that are rejected. -/
def words : List (List Char × Except LoadsError Literal) :=
  [("null".toList, .ok .null), ("true".toList, .ok (.bool true)), ("false".toList, .ok (.bool false)),
    ("NaN".toList, .error (.constant "NaN")), ("Infinity".toList, .error (.constant "Infinity")),
    ("-Infinity".toList, .error (.constant "-Infinity"))]

/-- Read a word or a number. -/
def readLiteral : Reader Literal := fun text =>
  match words.find? fun w => w.1.isPrefixOf text with
  | some (word, value) => do return (← value, text.drop word.length)
  | none => readNumber text

/-! ## Values -/

def isBlank (c : Char) : Bool := c == ' ' || c == '\t' || c == '\n' || c == '\r'

def skipBlanks (text : List Char) : List Char := text.dropWhile isBlank

/-- Both hooks for objects: entries with distinct keys. -/
def uniqueObject (entries : List (Text × Tree)) : Except LoadsError Tree := do
  Imp.require (entries.map Prod.fst).Nodup .duplicateKey
  return .obj entries

mutual

/-- Read a value that starts at once, with at most `n` steps. -/
def readValue : ℕ → Reader Tree
  | 0, _ => .error .malformed
  | n + 1, '"' :: rest => do
      let (s, rest) ← readText n rest
      return (.scalar (.str s), rest)
  | n + 1, '{' :: rest =>
      match skipBlanks rest with
      | '}' :: rest => .ok (.obj [], rest)
      | rest => do
          let (entries, rest) ← readEntries n rest
          return (← uniqueObject entries, rest)
  | n + 1, '[' :: rest =>
      match skipBlanks rest with
      | ']' :: rest => .ok (.arr [], rest)
      | rest => do
          let (items, rest) ← readItems n rest
          return (.arr items, rest)
  | _ + 1, rest => do
      let (s, rest) ← readLiteral rest
      return (.scalar s, rest)

/-- Read items up to the end of an array. -/
def readItems : ℕ → Reader (List Tree)
  | 0, _ => .error .malformed
  | n + 1, rest => do
      let (v, rest) ← readValue n rest
      match skipBlanks rest with
      | ']' :: rest => return ([v], rest)
      | ',' :: rest => do
          let (items, rest) ← readItems n (skipBlanks rest)
          return (v :: items, rest)
      | _ => .error .malformed

/-- Read entries up to the end of an object. -/
def readEntries : ℕ → Reader (List (Text × Tree))
  | n + 1, '"' :: rest => do
      let (key, rest) ← readText n rest
      match skipBlanks rest with
      | ':' :: rest => do
          let (v, rest) ← readValue n (skipBlanks rest)
          match skipBlanks rest with
          | '}' :: rest => return ([(key, v)], rest)
          | ',' :: rest => do
              let (entries, rest) ← readEntries n (skipBlanks rest)
              return ((key, v) :: entries, rest)
          | _ => .error .malformed
      | _ => .error .malformed
  | _, _ => .error .malformed

end

/-- `json.loads`. Every step reads a character, so the steps suffice. -/
def loads (text : List Char) : Except LoadsError Tree := do
  let (v, rest) ← readValue (text.length + 1) (skipBlanks text)
  Imp.require (skipBlanks rest = []) .malformed
  return v

/-! ## Texts are read back -/

theorem hexDigit?_digitChar {d : ℕ} (h : d < 16) : hexDigit? (Nat.digitChar d) = some d := by
  revert d
  decide

theorem hex4?_hex4 {n : ℕ} (h : n < 0x10000) :
    hex4? (Nat.digitChar (n / 0x1000 % 16)) (Nat.digitChar (n / 0x100 % 16))
      (Nat.digitChar (n / 0x10 % 16)) (Nat.digitChar (n % 16)) = some n := by
  rw [hex4?, hexDigit?_digitChar (Nat.mod_lt _ (by decide)), hexDigit?_digitChar (Nat.mod_lt _ (by decide)),
    hexDigit?_digitChar (Nat.mod_lt _ (by decide)), hexDigit?_digitChar (Nat.mod_lt _ (by decide))]
  refine congrArg some ?_
  omega

theorem readUnit_of_ne {c : Char} (rest : List Char) (h : c ≠ '\\') (hc : 32 ≤ c.toNat) :
    readUnit (c :: rest) = .ok (CodePoint.ofChar c, rest) := by
  rw [readUnit, if_neg]
  · rintro (rfl | hlt)
    · exact h rfl
    · omega
  · intro _ _ _ _ _ heq
    exact absurd heq h
  · intro _ _ heq
    exact absurd heq h

theorem ofChar_ofNat {n : ℕ} (h : n < 128) :
    (CodePoint.ofChar (Char.ofNat n)).val = n ∧ (Char.ofNat n).toNat = n := by
  revert n
  decide

/-- An escape is read back. -/
theorem readUnit_escapeUnit {c : CodePoint} (h : InPlane c) (rest : List Char) :
    readUnit (escapeUnit c ++ rest) = .ok (c, rest) := by
  have hval : ∀ {n : CodePoint}, c.val = n.val → c = n := fun h => Fin.ext h
  rw [escapeUnit]
  split
  · next hc =>
      rw [hval (n := 34) hc]
      rfl
  split
  · next hc =>
      rw [hval (n := 92) hc]
      rfl
  split
  · next hc =>
      rw [hval (n := 10) hc]
      rfl
  split
  · next hc =>
      rw [hval (n := 13) hc]
      rfl
  split
  · next hc =>
      rw [hval (n := 9) hc]
      rfl
  split
  · next hc =>
      rw [hval (n := 8) hc]
      rfl
  split
  · next hc =>
      rw [hval (n := 12) hc]
      rfl
  split
  · next hslash _ _ _ _ _ hprintable =>
      obtain ⟨hofChar, htoNat⟩ := ofChar_ofNat (n := c.val) (by omega)
      rw [List.singleton_append, readUnit_of_ne]
      · rw [Fin.ext hofChar]
      · intro heq
        rw [heq] at htoNat
        exact hslash htoNat.symm
      · omega
  · rw [hex4, List.cons_append, List.cons_append, List.cons_append, List.cons_append, List.cons_append,
      List.cons_append, List.nil_append, readUnit, hex4?_hex4 h]
    exact congrArg (fun c => Except.ok (c, rest)) (Fin.ofNat_val_eq_self c)

/-- No escape starts like the end of a text. -/
theorem exists_escapeUnit_eq_cons (c : CodePoint) :
    ∃ first rest, escapeUnit c = first :: rest ∧ first ≠ '"' := by
  rw [escapeUnit]
  split
  · exact ⟨'\\', _, rfl, by decide⟩
  split
  · exact ⟨'\\', _, rfl, by decide⟩
  split
  · exact ⟨'\\', _, rfl, by decide⟩
  split
  · exact ⟨'\\', _, rfl, by decide⟩
  split
  · exact ⟨'\\', _, rfl, by decide⟩
  split
  · exact ⟨'\\', _, rfl, by decide⟩
  split
  · exact ⟨'\\', _, rfl, by decide⟩
  split
  · next hquote _ _ _ _ _ _ hprintable =>
      refine ⟨_, [], rfl, fun heq => ?_⟩
      have htoNat := (ofChar_ofNat (n := c.val) (by omega)).2
      rw [heq] at htoNat
      exact hquote htoNat.symm
  · exact ⟨'\\', _, rfl, by decide⟩

theorem length_le_flatMap_escapeUnit (l : Text) : l.length ≤ (l.flatMap escapeUnit).length := by
  induction l with
  | nil => exact Nat.le_refl _
  | cons c l ih =>
      obtain ⟨first, rest, hcons, -⟩ := exists_escapeUnit_eq_cons c
      rw [List.flatMap_cons, hcons, List.length_append, List.length_cons, List.length_cons]
      omega

theorem readUnits_flatMap {l : Text} (h : ∀ c ∈ l, InPlane c) (rest : List Char) {n : ℕ}
    (hn : l.length < n) : readUnits n (l.flatMap escapeUnit ++ '"' :: rest) = .ok (l, rest) := by
  induction l generalizing n with
  | nil =>
      obtain ⟨n, rfl⟩ := Nat.exists_eq_succ_of_ne_zero (Nat.ne_zero_of_lt hn)
      rfl
  | cons c l ih =>
      obtain ⟨hc, hl⟩ := List.forall_mem_cons.mp h
      obtain ⟨n, rfl⟩ := Nat.exists_eq_succ_of_ne_zero (Nat.ne_zero_of_lt hn)
      rw [List.length_cons] at hn
      have hread := readUnit_escapeUnit hc (l.flatMap escapeUnit ++ '"' :: rest)
      rw [List.flatMap_cons, List.append_assoc]
      obtain ⟨first, tail, hcons, hfirst⟩ := exists_escapeUnit_eq_cons c
      rw [hcons] at hread ⊢
      rw [List.cons_append, readUnits, ← List.cons_append, hread]
      · change (readUnits n _ >>= _) = _
        rw [ih hl (Nat.succ_lt_succ_iff.mp hn)]
        rfl
      · intro _ heq
        exact hfirst (List.cons.inj heq).1

/-- A quoted text is read back, with surrogates joined. -/
theorem readText_quoteAscii (s : Text) (rest : List Char) {n : ℕ}
    (hn : (quoteAscii s).length ≤ n + 1) :
    readText n ((quoteAscii s).tail ++ rest) = .ok (normalize s, rest) := by
  have hlength := length_le_flatMap_escapeUnit (s.flatMap units)
  rw [quoteAscii, List.cons_append, List.length_cons, List.length_append, List.length_singleton] at hn
  have hunits := readUnits_flatMap (inPlane_of_mem_flatMap (s := s)) rest (n := n) (by omega)
  rw [quoteAscii, List.cons_append, List.tail_cons, List.append_assoc, List.singleton_append, readText,
    hunits]
  rfl

/-! ## Numbers are read back -/

theorem head?_toDigits_ne {n : ℕ} (h : 0 < n) : (Nat.toDigits 10 n).head? ≠ some '0' := by
  induction n using Nat.strong_induction_on with
  | _ n ih =>
      rcases Nat.lt_or_ge n 10 with hlt | hge
      · have hall : ∀ n < 10, 0 < n → [n.digitChar].head? ≠ some '0' := by decide
        rw [Nat.toDigits_of_lt_base hlt]
        exact hall n hlt h
      · rw [Nat.toDigits_of_base_le (by decide) hge, List.head?_append,
          Option.or_of_isSome (by
            rw [List.isSome_head?]
            exact Nat.toDigits_ne_nil)]
        exact ih (n / 10) (by omega) (by omega)

/-- What ends a value ends the digits of a number. -/
theorem takeWhile_isDigit {digits rest : List Char} (hdigits : ∀ c ∈ digits, c.isDigit = true)
    (hrest : Json.Ends rest) : (digits ++ rest).takeWhile Char.isDigit = digits := by
  rw [List.takeWhile_append_of_pos hdigits]
  cases rest with
  | nil => rw [List.takeWhile_nil, List.append_nil]
  | cons c rest =>
      have hnot : ¬ c.isDigit = true := by
        rcases hrest c rfl with rfl | rfl | rfl <;> decide
      rw [List.takeWhile_cons_of_neg hnot, List.append_nil]

theorem wholeDigits_toDigits (n : ℕ) {rest : List Char} (hrest : Json.Ends rest) :
    wholeDigits (Nat.toDigits 10 n ++ rest) = Nat.toDigits 10 n := by
  rw [wholeDigits, List.head?_append, Option.or_of_isSome (by
    rw [List.isSome_head?]
    exact Nat.toDigits_ne_nil)]
  rcases Nat.eq_zero_or_pos n with rfl | hn
  · rfl
  · rw [if_neg (head?_toDigits_ne hn), takeWhile_isDigit (fun c hc => isDigit_of_mem hc) hrest]

theorem fractionDigits_of_ends {rest : List Char} (hrest : Json.Ends rest) : fractionDigits rest = [] := by
  cases rest with
  | nil => rfl
  | cons c rest => rcases hrest c rfl with rfl | rfl | rfl <;> rfl

theorem readExponentPart_of_ends {rest : List Char} (hrest : Json.Ends rest) :
    readExponentPart rest = none := by
  cases rest with
  | nil => rfl
  | cons c rest =>
      have hc : ¬ (c = 'e' ∨ c = 'E') := by
        rcases hrest c rfl with rfl | rfl | rfl <;> decide
      exact if_neg fun h => hc h.1

theorem readUnsigned_toDigits (negative : Bool) {n : ℕ} {rest : List Char} (hrest : Json.Ends rest)
    (hn : (Nat.toDigits 10 n).length ≤ 4300) :
    readUnsigned negative (Nat.toDigits 10 n ++ rest) =
      .ok (.int (if negative then -n else n), rest) := by
  have hvalue : digitsValue (Nat.toDigits 10 n) = n := Nat.ofDigitChars_ten_toDigits
  simp only [readUnsigned, wholeDigits_toDigits n hrest, List.drop_left, fractionDigits_of_ends hrest,
    if_true, if_neg (Nat.toDigits_ne_nil (n := n) (b := 10)), readExponentPart_of_ends hrest, ne_eq,
    not_true_eq_false, if_false, if_neg (Nat.not_lt.mpr hn), hvalue]

theorem readNumber_intText {n : Int} {rest : List Char} (hrest : Json.Ends rest)
    (hn : (Nat.toDigits 10 n.natAbs).length ≤ 4300) :
    readNumber (intText n ++ rest) = .ok (.int n, rest) := by
  rw [intText]
  split
  · rw [List.cons_append, readNumber, readUnsigned_toDigits true hrest hn, if_pos rfl]
    exact congrArg (fun n => Except.ok (Literal.int n, rest)) (by omega)
  · obtain ⟨c, digits, hcons, hdigit⟩ := exists_toDigits_eq_cons n.natAbs
    have hread := readUnsigned_toDigits false hrest hn
    rw [hcons] at hread ⊢
    rw [List.cons_append, readNumber, ← List.cons_append, hread, if_neg (by decide)]
    · exact congrArg (fun n => Except.ok (Literal.int n, rest)) (by omega)
    · intro _ heq
      rw [(List.cons.inj heq).1] at hdigit
      cases hdigit

/-! ## Scalars are read back -/

/-- Whether a scalar is no float, and an integer has few enough digits. -/
def Literal.IsPlain : Literal → Prop
  | .float _ => False
  | .int n => (Nat.toDigits 10 n.natAbs).length ≤ 4300
  | _ => True

/-- The start of a word or a number is not the start of another value. -/
def Literal.isText : Literal → Bool
  | .str _ => true
  | _ => false

theorem literalError_of_isPlain {s : Literal} (h : s.IsPlain) : literalError s = none := by
  cases s with
  | int n => exact if_pos h
  | float x => exact h.elim
  | _ => rfl

/-- No word starts like a number. -/
theorem find?_words_of_isDigit {c : Char} (hdigit : c.isDigit = true) (negative : Bool) (rest : List Char) :
    (words.find? fun w => w.1.isPrefixOf ((if negative then ['-'] else []) ++ c :: rest)) = none := by
  have hne : ∀ d : Char, d.isDigit = false → (d == c) = false := by
    rintro d hd
    rw [beq_eq_false_iff_ne]
    rintro rfl
    rw [hdigit] at hd
    cases hd
  cases negative with
  | true => simp [words, List.isPrefixOf, hne 'I' rfl]
  | false =>
      simp [words, List.isPrefixOf, hne 'n' rfl, hne 't' rfl, hne 'f' rfl, hne 'N' rfl, hne 'I' rfl, hne '-' rfl]

theorem intText_eq (n : Int) :
    intText n = (if decide (n < 0) then ['-'] else []) ++ Nat.toDigits 10 n.natAbs := by
  rw [intText]
  by_cases h : n < 0
  · rw [if_pos h, if_pos (decide_eq_true h)]
    rfl
  · rw [if_neg h, if_neg (by simpa using h)]
    rfl

theorem find?_words_intText (n : Int) (rest : List Char) :
    (words.find? fun w => w.1.isPrefixOf (intText n ++ rest)) = none := by
  obtain ⟨c, digits, hcons, hdigit⟩ := exists_toDigits_eq_cons n.natAbs
  rw [intText_eq, hcons, List.append_assoc, List.cons_append]
  exact find?_words_of_isDigit hdigit _ _

/-- A number starts like no other value and no blank. -/
theorem notMem_of_isDigit {c : Char} (hdigit : c.isDigit = true) :
    c ∉ ['"', '{', '[', ']', '}', ' ', '\t', '\n', '\r'] := by
  intro hmem
  simp only [List.mem_cons, List.not_mem_nil, or_false] at hmem
  rcases hmem with rfl | rfl | rfl | rfl | rfl | rfl | rfl | rfl | rfl <;> cases hdigit

/-- A scalar that is no text is read back. -/
theorem readLiteral_literalText {s : Literal} (hs : s.IsPlain) (htext : s.isText = false)
    {rest : List Char} (hrest : Json.Ends rest) :
    readLiteral (literalText s ++ rest) = .ok (s.normalize, rest) := by
  cases s with
  | null => rfl
  | bool b => cases b <;> rfl
  | int n =>
      rw [readLiteral, literalText, find?_words_intText]
      exact readNumber_intText hrest hs
  | float x => exact absurd hs id
  | str s => cases htext

theorem exists_literalText_eq_cons {s : Literal} (hs : s.IsPlain) (htext : s.isText = false) :
    ∃ c rest, literalText s = c :: rest ∧ c ∉ ['"', '{', '[', ']', '}', ' ', '\t', '\n', '\r'] := by
  cases s with
  | null => exact ⟨'n', _, rfl, by decide⟩
  | bool b =>
      cases b with
      | true => exact ⟨'t', _, rfl, by decide⟩
      | false => exact ⟨'f', _, rfl, by decide⟩
  | int n =>
      obtain ⟨c, digits, hcons, hdigit⟩ := exists_toDigits_eq_cons n.natAbs
      rw [literalText, intText, hcons]
      split
      · exact ⟨'-', _, rfl, by decide⟩
      · exact ⟨c, _, rfl, notMem_of_isDigit hdigit⟩
  | float x => exact absurd hs id
  | str s => cases htext
/-! ## Values are read back -/

theorem skipBlanks_cons {c : Char} (rest : List Char) (hc : c ∉ [' ', '\t', '\n', '\r']) :
    skipBlanks (c :: rest) = c :: rest := by
  refine List.dropWhile_cons_of_neg fun hblank => hc ?_
  simp only [isBlank, Bool.or_eq_true, beq_iff_eq] at hblank
  simp only [List.mem_cons, List.not_mem_nil, or_false]
  tauto

theorem readValue_cons_of_ne {c : Char} (rest : List Char) (n : ℕ) (hc : c ∉ ['"', '{', '[']) :
    readValue (n + 1) (c :: rest) = (do
      let (s, rest) ← readLiteral (c :: rest)
      return (.scalar s, rest)) := by
  simp only [List.mem_cons, List.not_mem_nil, or_false, not_or] at hc
  rw [readValue]
  · exact fun _ heq => hc.1 (List.cons.inj heq).1
  · exact fun _ heq => hc.2.1 (List.cons.inj heq).1
  · exact fun _ heq => hc.2.2 (List.cons.inj heq).1

/-- The start of an object that is not empty. -/
theorem readValue_obj (n : ℕ) (rest : List Char) :
    readValue (n + 1) ('{' :: '"' :: rest) = (do
      let (entries, rest) ← readEntries n ('"' :: rest)
      return (← uniqueObject entries, rest)) := by
  rw [readValue, skipBlanks_cons _ (by decide)]
  rfl

/-- The start of an array that is not empty. -/
theorem readValue_arr (n : ℕ) {c : Char} (rest : List Char)
    (hc : c ∉ [']', '}', ' ', '\t', '\n', '\r']) :
    readValue (n + 1) ('[' :: c :: rest) = (do
      let (items, rest) ← readItems n (c :: rest)
      return (.arr items, rest)) := by
  simp only [List.mem_cons, List.not_mem_nil, or_false, not_or] at hc
  rw [readValue, skipBlanks_cons]
  · split
    · next heq => exact absurd (List.cons.inj heq).1 hc.1
    · rfl
  · simp only [List.mem_cons, List.not_mem_nil, or_false, not_or]
    tauto

/-- The text of a value in ASCII. -/
abbrev asciiText (v : Tree) : List Char := Json.text asciiSyntax v

mutual

/-- A value without two entries for one key in an object, checked as it is read. -/
def checked : Tree → Except LoadsError Tree
  | .scalar s => .ok (.scalar s)
  | .arr items => do return .arr (← checkedItems items)
  | .obj entries => do uniqueObject (← checkedEntries entries)

def checkedItems : List Tree → Except LoadsError (List Tree)
  | [] => .ok []
  | v :: items => do
      let v ← checked v
      return v :: (← checkedItems items)

def checkedEntries : List (Text × Tree) → Except LoadsError (List (Text × Tree))
  | [] => .ok []
  | (key, v) :: entries => do
      let v ← checked v
      return (key, v) :: (← checkedEntries entries)

end

/-- Whether the scalars of a kind and the keys of a syntax are read back, as what `f` and `g` say. -/
structure ReadBack (x : Json.Syntax Literal Text) (valid : Literal → Prop) (f : Literal → Literal)
    (g : Text → Text) : Prop where
  literal {s : Literal} {rest : List Char} : valid s → s.isText = false → Json.Ends rest →
    readLiteral (x.scalar s ++ rest) = .ok (f s, rest)
  start {s : Literal} : valid s → s.isText = false →
    ∃ c rest, x.scalar s = c :: rest ∧ c ∉ ['"', '{', '[', ']', '}', ' ', '\t', '\n', '\r']
  str (s : Text) : x.scalar (.str s) = x.key s ∧ f (.str s) = .str (g s)
  quoted (s : Text) : ∃ t, x.key s = '"' :: t
  key {s : Text} {r : List Char} {n : ℕ} : valid (.str s) → (x.key s).length ≤ n + 1 →
    readText n ((x.key s).tail ++ r) = .ok (g s, r)

/-- Whether all scalars and keys of a value are of a kind. -/
structure AllValid (valid : Literal → Prop) (v : Tree) : Prop where
  scalars : ∀ s ∈ v.scalars, valid s
  keys : ∀ key ∈ v.keys, valid (.str key)

namespace ReadBack

variable {x : Json.Syntax Literal Text} {valid : Literal → Prop} {f : Literal → Literal} {g : Text → Text}

/-- Whether reading the written value gives the value. -/
def Reads (x : Json.Syntax Literal Text) (f : Literal → Literal) (g : Text → Text) (v : Tree) : Prop :=
  ∀ {n : ℕ} {rest : List Char}, Json.Ends rest → (Json.text x v).length ≤ n →
    readValue n (Json.text x v ++ rest) = (do return (← checked (v.map f g), rest))

/-- Whether reading the written value gives the value whatever follows. -/
def ReadsBefore (x : Json.Syntax Literal Text) (f : Literal → Literal) (g : Text → Text) (v : Tree) : Prop :=
  ∀ {n : ℕ} {rest : List Char}, (Json.text x v).length ≤ n →
    readValue n (Json.text x v ++ rest) = (do return (← checked (v.map f g), rest))

/-- No value starts with a blank or with what ends an array or an object. -/
theorem exists_text_eq_cons (hx : ReadBack x valid f g) {v : Tree} (hv : AllValid valid v) :
    ∃ c rest, Json.text x v = c :: rest ∧ c ∉ [']', '}', ' ', '\t', '\n', '\r'] := by
  cases v with
  | scalar s =>
      rw [Json.text]
      cases htext : s.isText with
      | true =>
          cases s with
          | str s =>
              obtain ⟨t, hquoted⟩ := hx.quoted s
              exact ⟨'"', t, (hx.str s).1.trans hquoted, by decide⟩
          | _ => cases htext
      | false =>
          obtain ⟨c, rest, hcons, hc⟩ := hx.start (hv.scalars s List.mem_cons_self) htext
          refine ⟨c, rest, hcons, fun hmem => hc ?_⟩
          simp only [List.mem_cons, List.not_mem_nil, or_false] at hmem ⊢
          tauto
  | arr items =>
      obtain ⟨rest, hcons⟩ := Json.exists_text_arr (x := x) items
      exact ⟨'[', rest, hcons, by decide⟩
  | obj entries =>
      obtain ⟨rest, hcons⟩ := Json.exists_text_obj (x := x) entries
      exact ⟨'{', rest, hcons, by decide⟩

theorem length_text_pos (hx : ReadBack x valid f g) {v : Tree} (hv : AllValid valid v) :
    0 < (Json.text x v).length := by
  obtain ⟨c, rest, hcons, -⟩ := hx.exists_text_eq_cons hv
  rw [hcons]
  exact Nat.succ_pos _

theorem skipBlanks_text (hx : ReadBack x valid f g) {v : Tree} (hv : AllValid valid v) (rest : List Char) :
    skipBlanks (Json.text x v ++ rest) = Json.text x v ++ rest := by
  obtain ⟨c, t, hcons, hc⟩ := hx.exists_text_eq_cons hv
  rw [hcons, List.cons_append, skipBlanks_cons]
  simp only [List.mem_cons, List.not_mem_nil, or_false, not_or] at hc ⊢
  tauto

theorem readsBefore_str (hx : ReadBack x valid f g) {s : Text} (hs : valid (.str s)) :
    ReadsBefore x f g (.scalar (.str s)) := by
  intro n rest hn
  obtain ⟨hkey, hf⟩ := hx.str s
  obtain ⟨t, hquoted⟩ := hx.quoted s
  rw [Json.text, hkey] at hn ⊢
  obtain ⟨n, rfl⟩ : ∃ m, n = m + 1 := ⟨n - 1, by
    rw [hquoted, List.length_cons] at hn
    omega⟩
  have hread := hx.key (r := rest) hs hn
  rw [hquoted, List.tail_cons] at hread
  rw [hquoted, List.cons_append, readValue, hread, Json.map, hf]
  rfl

theorem reads_scalar (hx : ReadBack x valid f g) {s : Literal} (hs : valid s) : Reads x f g (.scalar s) := by
  intro n rest hrest hn
  cases htext : s.isText with
  | true =>
      cases s with
      | str s => exact hx.readsBefore_str hs hn
      | _ => cases htext
  | false =>
      rw [Json.text] at hn ⊢
      obtain ⟨c, t, hcons, hc⟩ := hx.start hs htext
      have hread := hx.literal hs htext hrest
      rw [hcons, List.length_cons] at hn
      obtain ⟨n, rfl⟩ : ∃ m, n = m + 1 := ⟨n - 1, by omega⟩
      rw [hcons, List.cons_append] at hread ⊢
      rw [readValue_cons_of_ne, hread]
      · rfl
      · simp only [List.mem_cons, List.not_mem_nil, or_false, not_or] at hc ⊢
        tauto

theorem readItems_itemsText (hx : ReadBack x valid f g) {items : List Tree} :
    ∀ {v : Tree} {n : ℕ} {r : List Char}, (∀ w ∈ v :: items, Reads x f g w ∧ AllValid valid w) →
      (Json.text x v ++ Json.itemsText x items).length ≤ n →
        readItems n (Json.text x v ++ (Json.itemsText x items ++ r)) =
          (do return (← checkedItems (Json.mapItems f g (v :: items)), r)) := by
  induction items with
  | nil =>
      intro v n rest hall hn
      obtain ⟨hread, -⟩ := hall v List.mem_cons_self
      rw [List.length_append, Json.itemsText, List.length_singleton] at hn
      obtain ⟨n, rfl⟩ : ∃ m, n = m + 1 := ⟨n - 1, by omega⟩
      rw [readItems, hread (Json.ends_itemsText _ _) (by omega), Json.mapItems, checkedItems]
      cases checked (v.map f g) with
      | error e => rfl
      | ok v' => rfl
  | cons w items ih =>
      intro v n rest hall hn
      obtain ⟨⟨hread, -⟩, hitems⟩ := List.forall_mem_cons.mp hall
      obtain ⟨⟨-, hw⟩, -⟩ := List.forall_mem_cons.mp hitems
      have hpos := hx.length_text_pos (hall v List.mem_cons_self).2
      have htext : Json.itemsText x (w :: items) = ',' :: (Json.text x w ++ Json.itemsText x items) := rfl
      rw [List.length_append, htext, List.length_cons] at hn
      obtain ⟨n, rfl⟩ : ∃ m, n = m + 1 := ⟨n - 1, by omega⟩
      rw [readItems, hread (Json.ends_itemsText _ _) (by omega), Json.mapItems, checkedItems]
      cases checked (v.map f g) with
      | error e => rfl
      | ok v' =>
          have hrest := ih (r := rest) (n := n) hitems (by omega)
          rw [htext, List.cons_append, List.append_assoc]
          change (readItems n (skipBlanks (Json.text x w ++ _)) >>= _) = _
          rw [hx.skipBlanks_text hw, hrest]
          cases checkedItems (Json.mapItems f g (w :: items)) with
          | error e => rfl
          | ok items' => rfl

/-- The text of entries from the second one on. -/
theorem entriesText_cons (e : Text × Tree) (entries : List (Text × Tree)) :
    Json.entriesText x (e :: entries) =
      ',' :: (x.key e.1 ++ ':' :: (Json.text x e.2 ++ Json.entriesText x entries)) := by
  rw [Json.entriesText, List.cons_append, List.cons_append, List.append_assoc, List.cons_append]

theorem readEntries_entriesText (hx : ReadBack x valid f g) {entries : List (Text × Tree)} :
    ∀ {key : Text} {v : Tree} {n : ℕ} {r : List Char},
      (∀ e ∈ (key, v) :: entries, valid (.str e.1) ∧ Reads x f g e.2 ∧ AllValid valid e.2) →
        (x.key key ++ ':' :: (Json.text x v ++ Json.entriesText x entries)).length ≤ n →
          readEntries n (x.key key ++ ':' :: (Json.text x v ++ (Json.entriesText x entries ++ r))) =
            (do return (← checkedEntries (Json.mapEntries f g ((key, v) :: entries)), r)) := by
  induction entries with
  | nil =>
      intro key v n rest hall hn
      obtain ⟨hkey, hread, hv⟩ : valid (.str key) ∧ Reads x f g v ∧ _ := hall _ List.mem_cons_self
      obtain ⟨t, hquoted⟩ := hx.quoted key
      rw [List.length_append, List.length_cons, List.length_append] at hn
      obtain ⟨n, rfl⟩ : ∃ m, n = m + 1 := ⟨n - 1, by omega⟩
      have hreadKey := fun rest => hx.key (r := rest) (n := n) hkey (by omega)
      rw [hquoted, List.tail_cons] at hreadKey
      rw [hquoted, List.cons_append, readEntries, hreadKey, Json.mapEntries, checkedEntries]
      change (readValue n (skipBlanks (Json.text x v ++ _)) >>= _) = _
      rw [hx.skipBlanks_text hv, hread (Json.ends_entriesText _ _) (by omega)]
      cases checked (v.map f g) with
      | error e => rfl
      | ok v' => rfl
  | cons e entries ih =>
      intro key v n rest hall hn
      obtain ⟨⟨hkey, hread, hv⟩, hentries⟩ := List.forall_mem_cons.mp hall
      have hread : Reads x f g v := hread
      have hkey : valid (.str key) := hkey
      obtain ⟨t, hquoted⟩ := hx.quoted key
      obtain ⟨t', hquoted'⟩ := hx.quoted e.1
      rw [List.length_append, List.length_cons, List.length_append, entriesText_cons, List.length_cons] at hn
      obtain ⟨n, rfl⟩ : ∃ m, n = m + 1 := ⟨n - 1, by omega⟩
      have hreadKey := fun rest => hx.key (r := rest) (n := n) hkey (by omega)
      rw [hquoted, List.tail_cons] at hreadKey
      rw [hquoted, List.cons_append, readEntries, hreadKey, Json.mapEntries, checkedEntries]
      change (readValue n (skipBlanks (Json.text x v ++ _)) >>= _) = _
      rw [hx.skipBlanks_text hv, hread (Json.ends_entriesText _ _) (by omega)]
      cases checked (v.map f g) with
      | error e => rfl
      | ok v' =>
          have hrest := ih (r := rest) (n := n) hentries (by omega)
          rw [entriesText_cons, List.cons_append, List.append_assoc, List.cons_append, List.append_assoc]
          rw [hquoted'] at hrest ⊢
          change (readEntries n (skipBlanks ('"' :: (t' ++ _))) >>= _) = _
          rw [skipBlanks_cons _ (by decide)]
          change (readEntries n ('"' :: t' ++ _) >>= _) = _
          rw [hrest]
          cases checkedEntries (Json.mapEntries f g (e :: entries)) with
          | error e => rfl
          | ok entries' => rfl

theorem readsBefore_arr (hx : ReadBack x valid f g) {items : List Tree}
    (h : ∀ v ∈ items, Reads x f g v ∧ AllValid valid v) : ReadsBefore x f g (.arr items) := by
  intro n rest hn
  cases items with
  | nil =>
      obtain ⟨n, rfl⟩ : ∃ m, n = m + 1 := ⟨n - 1, by
        rw [Json.text, List.length_cons] at hn
        omega⟩
      rfl
  | cons v items =>
      have htext : Json.text x (.arr (v :: items)) = '[' :: (Json.text x v ++ Json.itemsText x items) := rfl
      rw [htext, List.length_cons] at hn
      obtain ⟨n, rfl⟩ : ∃ m, n = m + 1 := ⟨n - 1, by omega⟩
      have hread := hx.readItems_itemsText (r := rest) h (Nat.succ_le_succ_iff.mp hn)
      obtain ⟨c, t, hcons, hc⟩ := hx.exists_text_eq_cons (h v List.mem_cons_self).2
      rw [htext, List.cons_append, List.append_assoc, Json.map, checked]
      rw [hcons, List.cons_append] at hread ⊢
      rw [readValue_arr n _ hc, hread]
      cases checkedItems (Json.mapItems f g (v :: items)) with
      | error e => rfl
      | ok items' => rfl

theorem readsBefore_obj (hx : ReadBack x valid f g) {entries : List (Text × Tree)}
    (h : ∀ e ∈ entries, valid (.str e.1) ∧ Reads x f g e.2 ∧ AllValid valid e.2) :
    ReadsBefore x f g (.obj entries) := by
  intro n rest hn
  cases entries with
  | nil =>
      obtain ⟨n, rfl⟩ : ∃ m, n = m + 1 := ⟨n - 1, by
        rw [Json.text, List.length_cons] at hn
        omega⟩
      rfl
  | cons e entries =>
      obtain ⟨key, v⟩ := e
      have htext : Json.text x (.obj ((key, v) :: entries)) =
          '{' :: (x.key key ++ ':' :: (Json.text x v ++ Json.entriesText x entries)) := by
        rw [Json.text, List.cons_append, List.cons_append, List.append_assoc, List.cons_append]
      rw [htext, List.length_cons] at hn
      obtain ⟨n, rfl⟩ : ∃ m, n = m + 1 := ⟨n - 1, by omega⟩
      have hread := hx.readEntries_entriesText (r := rest) h (Nat.succ_le_succ_iff.mp hn)
      obtain ⟨t, hquoted⟩ := hx.quoted key
      rw [htext, List.cons_append, List.append_assoc, List.cons_append, List.append_assoc, Json.map, checked]
      rw [hquoted, List.cons_append] at hread ⊢
      rw [readValue_obj, hread]
      cases checkedEntries (Json.mapEntries f g ((key, v) :: entries)) with
      | error e => rfl
      | ok entries' => rfl

theorem allValid_of_mem_items {items : List Tree} (hv : AllValid valid (.arr items)) {v : Tree} (hmem : v ∈ items) :
    AllValid valid v :=
  ⟨fun s hs => hv.scalars s (Json.mem_itemsScalars.mpr ⟨v, hmem, hs⟩),
    fun key hkey => hv.keys key (Json.mem_itemsKeys.mpr ⟨v, hmem, hkey⟩)⟩

theorem allValid_of_mem_entries {entries : List (Text × Tree)} (hv : AllValid valid (.obj entries))
    {e : Text × Tree} (hmem : e ∈ entries) : valid (.str e.1) ∧ AllValid valid e.2 :=
  ⟨hv.keys e.1 (Json.mem_entriesKeys.mpr ⟨e, hmem, Or.inl rfl⟩),
    fun s hs => hv.scalars s (Json.mem_entriesScalars.mpr ⟨e, hmem, hs⟩),
    fun key hkey => hv.keys key (Json.mem_entriesKeys.mpr ⟨e, hmem, Or.inr hkey⟩)⟩

/-- Reading a written value gives the value. -/
theorem readValue_text (hx : ReadBack x valid f g) (v : Tree) (hv : AllValid valid v) : Reads x f g v := by
  induction v using Json.induction with
  | scalar s => exact hx.reads_scalar (hv.scalars s List.mem_cons_self)
  | arr items ih =>
      intro n rest _ hn
      refine hx.readsBefore_arr (fun v hmem => ?_) hn
      exact ⟨ih v hmem (allValid_of_mem_items hv hmem), allValid_of_mem_items hv hmem⟩
  | obj entries ih =>
      intro n rest _ hn
      refine hx.readsBefore_obj (fun e hmem => ?_) hn
      obtain ⟨hkey, hvalid⟩ := allValid_of_mem_entries hv hmem
      exact ⟨hkey, ih e hmem hvalid, hvalid⟩

/-- Only a word or a number has to be followed by what ends it. -/
theorem readsBefore (hx : ReadBack x valid f g) {v : Tree} (hv : AllValid valid v)
    (h : ∀ s, v = .scalar s → s.isText = true) : ReadsBefore x f g v := by
  cases v with
  | scalar s =>
      cases s with
      | str s => exact hx.readsBefore_str (hv.scalars _ List.mem_cons_self)
      | _ => cases h _ rfl
  | arr items =>
      refine hx.readsBefore_arr fun v hmem => ?_
      exact ⟨hx.readValue_text v (allValid_of_mem_items hv hmem), allValid_of_mem_items hv hmem⟩
  | obj entries =>
      refine hx.readsBefore_obj fun e hmem => ?_
      obtain ⟨hkey, hvalid⟩ := allValid_of_mem_entries hv hmem
      exact ⟨hkey, hx.readValue_text e.2 hvalid, hvalid⟩

/-- `json.loads` of a written value. -/
theorem loads_text (hx : ReadBack x valid f g) {v : Tree} (hv : AllValid valid v) :
    loads (Json.text x v) = checked (v.map f g) := by
  have hread := @readValue_text x valid f g hx v hv ((Json.text x v).length + 1) [] nofun (Nat.le_succ _)
  have hskip := hx.skipBlanks_text hv []
  rw [List.append_nil] at hread hskip
  rw [loads, hskip, hread]
  cases checked (v.map f g) with
  | error e => rfl
  | ok u => rfl

end ReadBack

/-! ## What is read of a written value -/

theorem checkedItems_eq_ok {items l : List Tree}
    (ih : ∀ v ∈ items, ∀ u, checked v = .ok u ↔ u = v ∧ v.Distinct) :
    checkedItems items = .ok l ↔ l = items ∧ ∀ v ∈ items, v.Distinct := by
  induction items generalizing l with
  | nil =>
      rw [checkedItems, Except.ok.injEq, eq_comm]
      exact (and_iff_left_of_imp fun _ => List.forall_mem_nil _).symm
  | cons v items hitems =>
      obtain ⟨hv, hrest⟩ := List.forall_mem_cons.mp ih
      rw [checkedItems, Imp.except_bind_eq_ok]
      constructor
      · rintro ⟨u, hu, h⟩
        obtain ⟨l', hl', h⟩ := Imp.except_bind_eq_ok.mp h
        cases h
        obtain ⟨rfl, hdistinct⟩ := (hv u).mp hu
        obtain ⟨rfl, hall⟩ := (hitems hrest).mp hl'
        exact ⟨rfl, List.forall_mem_cons.mpr ⟨hdistinct, hall⟩⟩
      · rintro ⟨rfl, hall⟩
        obtain ⟨hdistinct, hall⟩ := List.forall_mem_cons.mp hall
        refine ⟨v, (hv _).mpr ⟨rfl, hdistinct⟩, ?_⟩
        rw [(hitems hrest).mpr ⟨rfl, hall⟩]
        rfl

theorem checkedEntries_eq_ok {entries l : List (Text × Tree)}
    (ih : ∀ e ∈ entries, ∀ u, checked e.2 = .ok u ↔ u = e.2 ∧ e.2.Distinct) :
    checkedEntries entries = .ok l ↔ l = entries ∧ ∀ e ∈ entries, e.2.Distinct := by
  induction entries generalizing l with
  | nil =>
      rw [checkedEntries, Except.ok.injEq, eq_comm]
      exact (and_iff_left_of_imp fun _ => List.forall_mem_nil _).symm
  | cons e entries hentries =>
      obtain ⟨hv, hrest⟩ := List.forall_mem_cons.mp ih
      rw [checkedEntries, Imp.except_bind_eq_ok]
      constructor
      · rintro ⟨u, hu, h⟩
        obtain ⟨l', hl', h⟩ := Imp.except_bind_eq_ok.mp h
        cases h
        obtain ⟨rfl, hdistinct⟩ := (hv u).mp hu
        obtain ⟨rfl, hall⟩ := (hentries hrest).mp hl'
        exact ⟨rfl, List.forall_mem_cons.mpr ⟨hdistinct, hall⟩⟩
      · rintro ⟨rfl, hall⟩
        obtain ⟨hdistinct, hall⟩ := List.forall_mem_cons.mp hall
        refine ⟨e.2, (hv _).mpr ⟨rfl, hdistinct⟩, ?_⟩
        rw [(hentries hrest).mpr ⟨rfl, hall⟩]
        rfl

/-- A value is read if its keys are distinct. -/
theorem checked_eq_ok {v u : Tree} : checked v = .ok u ↔ u = v ∧ v.Distinct := by
  induction v using Json.induction generalizing u with
  | scalar s =>
      rw [checked, Except.ok.injEq, eq_comm]
      exact (and_iff_left_of_imp fun _ => .scalar _).symm
  | arr items ih =>
      rw [checked, Imp.except_bind_eq_ok]
      constructor
      · rintro ⟨l, hl, h⟩
        cases h
        obtain ⟨rfl, hall⟩ := (checkedItems_eq_ok fun v hv _ => ih v hv).mp hl
        exact ⟨rfl, .arr hall⟩
      · rintro ⟨rfl, hdistinct⟩
        cases hdistinct with
        | arr hall => exact ⟨_, (checkedItems_eq_ok fun v hv _ => ih v hv).mpr ⟨rfl, hall⟩, rfl⟩
  | obj entries ih =>
      rw [checked, Imp.except_bind_eq_ok]
      constructor
      · rintro ⟨l, hl, h⟩
        rw [uniqueObject, Imp.check_bind_eq_ok, Imp.require_eq_ok] at h
        obtain ⟨hnodup, h⟩ := h
        cases h
        obtain ⟨rfl, hall⟩ := (checkedEntries_eq_ok fun e he _ => ih e he).mp hl
        exact ⟨rfl, .obj hnodup hall⟩
      · rintro ⟨rfl, hdistinct⟩
        cases hdistinct with
        | obj hnodup hall =>
            refine ⟨_, (checkedEntries_eq_ok fun e he _ => ih e he).mpr ⟨rfl, hall⟩, ?_⟩
            rw [uniqueObject, Imp.check_bind_eq_ok, Imp.require_eq_ok]
            exact ⟨hnodup, rfl⟩

/-! ## Values in ASCII are read back -/

theorem readBack_asciiSyntax : ReadBack asciiSyntax Literal.IsPlain Literal.normalize normalize where
  literal hs htext hrest := readLiteral_literalText hs htext hrest
  start := exists_literalText_eq_cons
  str _ := ⟨rfl, rfl⟩
  quoted _ := ⟨_, rfl⟩
  key _ h := readText_quoteAscii _ _ h

/-- A value with the surrogates in its texts joined. -/
def normalizeTree (v : Tree) : Tree := v.map Literal.normalize normalize

mutual

/-- What is read of a value that was written: texts with surrogates joined, or nothing if two keys of
an object become the same. -/
def reread : Tree → Except LoadsError Tree
  | .scalar s => .ok (.scalar s.normalize)
  | .arr items => do return .arr (← rereadItems items)
  | .obj entries => do uniqueObject (← rereadEntries entries)

def rereadItems : List Tree → Except LoadsError (List Tree)
  | [] => .ok []
  | v :: items => do
      let v ← reread v
      return v :: (← rereadItems items)

def rereadEntries : List (Text × Tree) → Except LoadsError (List (Text × Tree))
  | [] => .ok []
  | (key, v) :: entries => do
      let v ← reread v
      return (normalize key, v) :: (← rereadEntries entries)

end

mutual

theorem reread_eq : ∀ v : Tree, reread v = checked (normalizeTree v)
  | .scalar s => rfl
  | .arr items => by rw [reread, rereadItems_eq items, normalizeTree, Json.map, checked]
  | .obj entries => by rw [reread, rereadEntries_eq entries, normalizeTree, Json.map, checked]

theorem rereadItems_eq : ∀ items : List Tree,
    rereadItems items = checkedItems (Json.mapItems Literal.normalize normalize items)
  | [] => rfl
  | v :: items => by rw [rereadItems, reread_eq v, rereadItems_eq items, Json.mapItems, checkedItems, normalizeTree]

theorem rereadEntries_eq : ∀ entries : List (Text × Tree),
    rereadEntries entries = checkedEntries (Json.mapEntries Literal.normalize normalize entries)
  | [] => rfl
  | (key, v) :: entries => by
      rw [rereadEntries, reread_eq v, rereadEntries_eq entries, Json.mapEntries, checkedEntries, normalizeTree]

end

/-- `json.loads` of a written value. -/
theorem loads_asciiText {v : Tree} (hv : ∀ s ∈ v.scalars, s.IsPlain) : loads (asciiText v) = reread v := by
  rw [reread_eq]
  exact readBack_asciiSyntax.loads_text ⟨hv, fun _ _ => trivial⟩

/-- A written value is read back if its keys stay distinct. -/
theorem reread_eq_ok {v u : Tree} : reread v = .ok u ↔ u = normalizeTree v ∧ u.Distinct := by
  rw [reread_eq, checked_eq_ok]
  exact and_congr_right fun h => by rw [h]

/-- Whether a text of a value has a surrogate. -/
def hasSurrogate (v : Tree) : Bool :=
  v.scalars.any (fun s => match s with
    | .str t => t.any isSurrogate
    | _ => false) || v.keys.any fun key => key.any isSurrogate

theorem hasSurrogate_eq_false {v : Tree} : hasSurrogate v = false ↔
    (∀ t, Literal.str t ∈ v.scalars → ∀ c ∈ t, isSurrogate c = false) ∧
      ∀ key ∈ v.keys, ∀ c ∈ key, isSurrogate c = false := by
  simp only [hasSurrogate, Bool.or_eq_false_iff, List.any_eq_false, Bool.not_eq_true]
  refine and_congr_left' ⟨fun h t ht => ?_, fun h s hs => ?_⟩
  · have htext := h _ ht
    simp only [List.any_eq_false, Bool.not_eq_true] at htext
    exact htext
  · cases s with
    | str t => simpa only [List.any_eq_false, Bool.not_eq_true] using h t hs
    | _ => rfl

theorem normalizeTree_eq_self {v : Tree} (h : hasSurrogate v = false) : normalizeTree v = v := by
  obtain ⟨hscalars, hkeys⟩ := hasSurrogate_eq_false.mp h
  refine Json.map_eq_self v (fun s hs => ?_) fun key hkey => ?_
  · cases s with
    | str t => rw [Literal.normalize, normalize_eq_self (hscalars t hs)]
    | _ => rfl
  · exact normalize_eq_self (hkeys _ hkey)

/-- Sorting does not change which texts a value has. -/
theorem hasSurrogate_sort (v : Tree) : hasSurrogate v.sort = hasSurrogate v := by
  rw [Bool.eq_iff_iff]
  simp only [hasSurrogate, Bool.or_eq_true, List.any_eq_true, Json.mem_scalars_sort, Json.mem_keys_sort]

theorem isPlain_normalize {s : Literal} (h : s.IsPlain) : s.normalize.IsPlain := by
  cases s with
  | str t => trivial
  | _ => exact h

/-- Joining surrogates does not change what is written. -/
theorem asciiText_normalizeTree (v : Tree) : asciiText (normalizeTree v) = asciiText v :=
  Json.text_map literalText_normalize quoteAscii_normalize v

@[simp]
theorem normalizeTree_normalizeTree (v : Tree) : normalizeTree (normalizeTree v) = normalizeTree v :=
  Json.map_map_self (fun s => by cases s <;> simp [Literal.normalize]) normalize_normalize v

/-! ## Objects have distinct keys -/

/-- A value that was read is in order if sorting it changes nothing that is written. -/
theorem ascending_of_asciiText_sort {v : Tree} (hnormal : normalizeTree v = v) (hdistinct : v.Distinct)
    (hplain : ∀ s ∈ v.scalars, s.IsPlain) (h : asciiText v.sort = asciiText v) : v.Ascending := by
  have hread : loads (asciiText v) = .ok v :=
    (loads_asciiText hplain).trans (reread_eq_ok.mpr ⟨hnormal.symm, hdistinct⟩)
  rw [← h, loads_asciiText fun s hs => hplain s ((Json.mem_scalars_sort v s).mp hs)] at hread
  have hsort : v = normalizeTree v.sort := (reread_eq_ok.mp hread).1
  rw [normalizeTree, Json.map_sort_eq_self v hnormal] at hsort
  exact (Json.ascending_iff v).mpr ⟨hdistinct, hsort.symm⟩

theorem distinct_of_uniqueObject {entries : List (Text × Tree)} {v : Tree}
    (hentries : ∀ e ∈ entries, e.2.Distinct) (h : uniqueObject entries = .ok v) : v.Distinct := by
  rw [uniqueObject, Imp.check_bind_eq_ok, Imp.require_eq_ok] at h
  obtain ⟨hnodup, h⟩ := h
  cases h
  exact .obj hnodup hentries

theorem distinct_of_readItems {n : ℕ}
    (hvalue : ∀ {text v rest}, readValue n text = .ok (v, rest) → v.Distinct)
    (hitems : ∀ {text l rest}, readItems n text = .ok (l, rest) → ∀ v ∈ l, v.Distinct)
    {text rest : List Char} {l : List Tree} (h : readItems (n + 1) text = .ok (l, rest)) :
    ∀ v ∈ l, v.Distinct := by
  rw [readItems, Imp.except_bind_eq_ok] at h
  obtain ⟨⟨v, rest₁⟩, hv, h⟩ := h
  have hdistinct := hvalue hv
  dsimp only at h
  split at h
  · cases h
    exact List.forall_mem_singleton.mpr hdistinct
  · obtain ⟨⟨items, rest₂⟩, hrest, h⟩ := Imp.except_bind_eq_ok.mp h
    cases h
    exact List.forall_mem_cons.mpr ⟨hdistinct, hitems hrest⟩
  · cases h

theorem distinct_of_readEntries {n : ℕ}
    (hvalue : ∀ {text v rest}, readValue n text = .ok (v, rest) → v.Distinct)
    (hentries : ∀ {text l rest}, readEntries n text = .ok (l, rest) → ∀ e ∈ l, e.2.Distinct)
    {text rest : List Char} {l : List (Text × Tree)} (h : readEntries (n + 1) text = .ok (l, rest)) :
    ∀ e ∈ l, e.2.Distinct := by
  unfold readEntries at h
  split at h
  · next hn =>
      cases hn
      obtain ⟨⟨key, rest₁⟩, -, h⟩ := Imp.except_bind_eq_ok.mp h
      dsimp only at h
      split at h
      · obtain ⟨⟨v, rest₂⟩, hv, h⟩ := Imp.except_bind_eq_ok.mp h
        have hdistinct := hvalue hv
        dsimp only at h
        split at h
        · cases h
          exact List.forall_mem_singleton.mpr hdistinct
        · obtain ⟨⟨entries, rest₃⟩, hrest, h⟩ := Imp.except_bind_eq_ok.mp h
          cases h
          exact List.forall_mem_cons.mpr ⟨hdistinct, hentries hrest⟩
        · cases h
      · cases h
  · cases h

theorem distinct_of_readValue_succ {n : ℕ}
    (hitems : ∀ {text l rest}, readItems n text = .ok (l, rest) → ∀ v ∈ l, v.Distinct)
    (hentries : ∀ {text l rest}, readEntries n text = .ok (l, rest) → ∀ e ∈ l, e.2.Distinct)
    {text rest : List Char} {v : Tree} (h : readValue (n + 1) text = .ok (v, rest)) : v.Distinct := by
  unfold readValue at h
  split at h
  · cases h
  · obtain ⟨_, -, h⟩ := Imp.except_bind_eq_ok.mp h
    cases h
    exact .scalar _
  · next hn =>
      cases hn
      split at h
      · cases h
        exact .obj List.nodup_nil (List.forall_mem_nil _)
      · obtain ⟨⟨entries, rest₁⟩, hread, h⟩ := Imp.except_bind_eq_ok.mp h
        obtain ⟨w, hw, h⟩ := Imp.except_bind_eq_ok.mp h
        cases h
        exact distinct_of_uniqueObject (hentries hread) hw
  · next hn =>
      cases hn
      split at h
      · cases h
        exact .arr (List.forall_mem_nil _)
      · obtain ⟨⟨items, rest₁⟩, hread, h⟩ := Imp.except_bind_eq_ok.mp h
        cases h
        exact .arr (hitems hread)
  · obtain ⟨_, -, h⟩ := Imp.except_bind_eq_ok.mp h
    cases h
    exact .scalar _

theorem distinct_of_read (n : ℕ) :
    (∀ {text v rest}, readValue n text = .ok (v, rest) → v.Distinct) ∧
    (∀ {text l rest}, readItems n text = .ok (l, rest) → ∀ v ∈ l, v.Distinct) ∧
    ∀ {text l rest}, readEntries n text = .ok (l, rest) → ∀ e ∈ l, e.2.Distinct := by
  induction n with
  | zero =>
      refine ⟨fun h => ?_, fun h => ?_, fun h => ?_⟩
      · cases h
      · cases h
      · unfold readEntries at h
        cases h
  | succ n ih =>
      obtain ⟨hvalue, hitems, hentries⟩ := ih
      exact ⟨distinct_of_readValue_succ hitems hentries, distinct_of_readItems hvalue hitems,
        distinct_of_readEntries hvalue hentries⟩

theorem distinct_of_loads {text : List Char} {v : Tree} (h : loads text = .ok v) : v.Distinct := by
  rw [loads, Imp.except_bind_eq_ok] at h
  obtain ⟨⟨u, rest⟩, hu, h⟩ := h
  cases (Imp.check_bind_eq_ok.mp h).2
  exact (distinct_of_read _).1 hu

/-- A mapping with texts as keys. -/
structure JsonObject where
  entries : List (Text × Tree)
  distinct : (Json.obj entries).Distinct

/-! ## Bytes -/

/-- The bytes of a text in ASCII. -/
def encode (text : List Char) : ByteArray := (String.ofList text).toUTF8

/-- `raw.decode("utf-8")`, `none` if the bytes are not valid. -/
def decode (raw : ByteArray) : Option (List Char) := (String.fromUTF8? raw).map String.toList

theorem encode_injective : Function.Injective encode :=
  fun _ _ h => String.ofList_injective (String.toByteArray_inj.mp h)

@[simp]
theorem decode_encode (text : List Char) : decode (encode text) = some text := by
  have hutf8 : String.fromUTF8? (encode text) = some (String.ofList text) :=
    dif_pos (String.ofList text).isValidUTF8
  rw [decode, hutf8, Option.map_some, String.toList_ofList]

theorem size_encode_cons (c : Char) (text : List Char) :
    (encode (c :: text)).size = c.utf8Size + (encode text).size := by
  change (c :: text).utf8Encode.size = c.utf8Size + text.utf8Encode.size
  rw [List.utf8Encode_cons, List.utf8Encode_singleton, ByteArray.size_append, List.size_toByteArray,
    String.length_utf8EncodeChar]

theorem size_encode_pos {text : List Char} (h : text ≠ []) : (encode text).size ≠ 0 := by
  obtain ⟨c, rest, rfl⟩ := List.exists_cons_of_ne_nil h
  have hc := c.utf8Size_pos
  rw [size_encode_cons]
  omega

/-- A part of a text has no more bytes than the text. -/
theorem size_encode_le_of_sublist {text text' : List Char} (h : text.Sublist text') :
    (encode text).size ≤ (encode text').size := by
  induction h with
  | slnil => exact le_rfl
  | cons c h ih =>
      rw [size_encode_cons]
      exact Nat.le_add_left_of_le ih
  | cons_cons c h ih =>
      rw [size_encode_cons, size_encode_cons]
      exact Nat.add_le_add_left ih _

/-- A character has at most four bytes. -/
theorem size_encode_le (text : List Char) : (encode text).size ≤ 4 * text.length := by
  induction text with
  | nil => exact le_rfl
  | cons c text ih =>
      have hc := c.utf8Size_le_four
      rw [size_encode_cons, List.length_cons]
      omega

end Py
