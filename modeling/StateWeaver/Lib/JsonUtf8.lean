import StateWeaver.Lib.FloatReading
import StateWeaver.Lib.JsonScalars

/-!
# JSON beyond ASCII

How `json.dumps` writes a value with `ensure_ascii=False`, in UTF-8: every character stands for itself but
the quote, the backslash and the controls. A text with a surrogate has no bytes. What was written is read
back, floats included, with the entries of objects in order (`loads_canonicalUtf8`).
-/

namespace Py

/-! ## Writing -/

/-- The character of a code point that is no surrogate. -/
def CodePoint.toChar (c : CodePoint) : Char := Char.ofNat c.val

/-- A text between quotes. -/
def quoteUtf8 (s : Text) : List Char := '"' :: s.flatMap (fun c => escape c.toChar) ++ ['"']

/-- A scalar as `json.dumps` writes it. -/
def literalTextUtf8 : Literal → List Char
  | .str s => quoteUtf8 s
  | s => literalText s

/-- The syntax of JSON beyond ASCII. -/
def utf8Syntax : Json.Syntax Literal Text := ⟨literalTextUtf8, quoteUtf8⟩

/-- The text of a value with sorted keys and without blanks. -/
def canonicalTextUtf8 (v : Tree) : List Char := Json.text utf8Syntax v.sort

/-- Why a value has no canonical bytes. -/
def utf8Error (v : Tree) : Option String :=
  match v.sort.scalars.findSome? literalError with
  | some e => some e
  | none => if hasSurrogate v then some "surrogates not allowed" else none

/-- `json.dumps` with sorted keys, without blanks and without infinities, in UTF-8. -/
def canonicalUtf8 (v : Tree) : Except String ByteArray :=
  match utf8Error v with
  | some e => .error e
  | none => .ok (encode (canonicalTextUtf8 v))

/-! ## Texts are read back -/

theorem isValidChar_of_not_isSurrogate {c : CodePoint} (h : isSurrogate c = false) : c.val.isValidChar := by
  have hlt := c.isLt
  simp only [isSurrogate, isHighSurrogate, isLowSurrogate, Bool.or_eq_false_iff, Bool.and_eq_false_iff,
    decide_eq_false_iff_not] at h
  rcases Nat.lt_or_ge c.val 0xd800 with hlow | hhigh
  · exact Or.inl hlow
  · exact Or.inr ⟨by omega, hlt⟩

theorem toNat_toChar {c : CodePoint} (h : isSurrogate c = false) : c.toChar.toNat = c.val := by
  rw [CodePoint.toChar, Char.ofNat, dif_pos (isValidChar_of_not_isSurrogate h)]
  rfl

theorem ofChar_toChar {c : CodePoint} (h : isSurrogate c = false) : CodePoint.ofChar c.toChar = c :=
  Fin.ext (toNat_toChar h)

/-- A character between quotes is read back. -/
theorem readUnit_escape (c : Char) (rest : List Char) :
    readUnit (escape c ++ rest) = .ok (CodePoint.ofChar c, rest) := by
  have hval : ∀ {d : Char}, c.toNat = d.toNat → c = d := fun h => Char.toNat_inj.mp h
  rw [escape]
  split
  · next hc =>
      rw [hc]
      rfl
  split
  · next hc =>
      rw [hc]
      rfl
  split
  · next hc =>
      rw [hc]
      rfl
  split
  · next hc =>
      rw [hc]
      rfl
  split
  · next hc =>
      rw [hc]
      rfl
  split
  · next hc =>
      rw [hval (d := Char.ofNat 8) hc]
      rfl
  split
  · next hc =>
      rw [hval (d := Char.ofNat 12) hc]
      rfl
  split
  · next hcontrol =>
      have hzero : hexDigit? '0' = some 0 := rfl
      have hhex : hex4? '0' '0' (Nat.digitChar (c.toNat / 16)) (Nat.digitChar (c.toNat % 16)) = some c.toNat := by
        rw [hex4?, hzero, hexDigit?_digitChar (by omega), hexDigit?_digitChar (by omega)]
        refine congrArg some ?_
        omega
      rw [List.cons_append, List.cons_append, List.cons_append, List.cons_append, List.cons_append,
        List.cons_append, List.nil_append, readUnit, hhex]
      exact congrArg (fun c => Except.ok (c, rest)) (Fin.ofNat_val_eq_self (CodePoint.ofChar c))
  · next hquote hslash _ _ _ _ _ hcontrol =>
      rw [List.singleton_append, readUnit_of_ne rest hslash (by omega)]

theorem exists_escape_eq_cons_ne (c : Char) : ∃ first rest, escape c = first :: rest ∧ first ≠ '"' := by
  cases h : isEscaped c with
  | true =>
      obtain ⟨rest, hrest⟩ := exists_escape_eq_cons h
      exact ⟨'\\', rest, hrest, by decide⟩
  | false =>
      refine ⟨c, [], escape_of_not_isEscaped h, ?_⟩
      rintro rfl
      cases h

theorem length_le_flatMap_escape (l : Text) : l.length ≤ (l.flatMap fun c => escape c.toChar).length := by
  induction l with
  | nil => exact Nat.le_refl _
  | cons c l ih =>
      obtain ⟨first, rest, hcons, -⟩ := exists_escape_eq_cons_ne c.toChar
      rw [List.flatMap_cons, hcons, List.length_append, List.length_cons, List.length_cons]
      omega

theorem readUnits_flatMap_escape {l : Text} (h : ∀ c ∈ l, isSurrogate c = false) (rest : List Char) {n : ℕ}
    (hn : l.length < n) :
    readUnits n ((l.flatMap fun c => escape c.toChar) ++ '"' :: rest) = .ok (l, rest) := by
  induction l generalizing n with
  | nil =>
      obtain ⟨n, rfl⟩ := Nat.exists_eq_succ_of_ne_zero (Nat.ne_zero_of_lt hn)
      rfl
  | cons c l ih =>
      obtain ⟨hc, hl⟩ := List.forall_mem_cons.mp h
      obtain ⟨n, rfl⟩ := Nat.exists_eq_succ_of_ne_zero (Nat.ne_zero_of_lt hn)
      rw [List.length_cons] at hn
      have hread := readUnit_escape c.toChar ((l.flatMap fun c => escape c.toChar) ++ '"' :: rest)
      rw [ofChar_toChar hc] at hread
      rw [List.flatMap_cons, List.append_assoc]
      obtain ⟨first, tail, hcons, hfirst⟩ := exists_escape_eq_cons_ne c.toChar
      rw [hcons] at hread ⊢
      rw [List.cons_append, readUnits, ← List.cons_append, hread]
      · change (readUnits n _ >>= _) = _
        rw [ih hl (Nat.succ_lt_succ_iff.mp hn)]
        rfl
      · intro _ heq
        exact hfirst (List.cons.inj heq).1

theorem joinSurrogates_eq_self {s : Text} (h : ∀ c ∈ s, isSurrogate c = false) : joinSurrogates s = s := by
  induction s with
  | nil => rfl
  | cons c s ih =>
      obtain ⟨hc, hs⟩ := List.forall_mem_cons.mp h
      have hhigh := (Bool.or_eq_false_iff.mp hc).1
      cases s with
      | nil => rfl
      | cons d s => rw [joinSurrogates, hhigh, Bool.false_and, if_neg (by decide), ih hs]

/-- A quoted text without surrogates is read back. -/
theorem readText_quoteUtf8 {s : Text} (h : ∀ c ∈ s, isSurrogate c = false) (rest : List Char) {n : ℕ}
    (hn : (quoteUtf8 s).length ≤ n + 1) :
    readText n ((quoteUtf8 s).tail ++ rest) = .ok (s, rest) := by
  have hlength := length_le_flatMap_escape s
  rw [quoteUtf8, List.cons_append, List.length_cons, List.length_append, List.length_singleton] at hn
  have hunits := readUnits_flatMap_escape h rest (n := n) (by omega)
  rw [quoteUtf8, List.cons_append, List.tail_cons, List.append_assoc, List.singleton_append, readText,
    hunits]
  exact congrArg (fun s => Except.ok (s, rest)) (joinSurrogates_eq_self h)

/-! ## Values are read back -/

/-- Whether a scalar has bytes. -/
def Literal.IsWritten : Literal → Prop
  | .float x => x.isFinite = true
  | .int n => (Nat.toDigits 10 n.natAbs).length ≤ 4300
  | .str s => ∀ c ∈ s, isSurrogate c = false
  | _ => True

theorem floatText_eq_cons {x : Float} (hx : x.isFinite = true) : ∃ c rest,
    floatText x = (if isNegative x then ['-'] else []) ++ c :: rest ∧ c.isDigit = true := by
  obtain ⟨body, hbody, ⟨⟨c, rest, hcons, hdigit⟩, -, -⟩, -⟩ := exists_floatText_eq hx
  exact ⟨c, rest, hcons ▸ hbody, hdigit⟩

theorem readBack_utf8Syntax : ReadBack utf8Syntax Literal.IsWritten id id where
  literal {s rest} hs htext hrest := by
    cases s with
    | str s => cases htext
    | float x =>
        obtain ⟨c, digits, hcons, hdigit⟩ := floatText_eq_cons hs
        have hfind := find?_words_of_isDigit hdigit (isNegative x) (digits ++ rest)
        rw [← List.cons_append, ← List.append_assoc, ← hcons] at hfind
        change readLiteral (floatText x ++ rest) = _
        rw [readLiteral, hfind]
        exact readNumber_floatText hs hrest
    | null => exact readLiteral_literalText (s := .null) trivial rfl hrest
    | bool b => exact readLiteral_literalText (s := .bool b) trivial rfl hrest
    | int n => exact readLiteral_literalText (s := .int n) hs rfl hrest
  start {s} hs htext := by
    cases s with
    | str s => cases htext
    | float x =>
        obtain ⟨c, digits, hcons, hdigit⟩ := floatText_eq_cons hs
        change ∃ c rest, floatText x = c :: rest ∧ _
        rw [hcons]
        cases isNegative x with
        | true => exact ⟨'-', _, rfl, by decide⟩
        | false => exact ⟨c, _, rfl, notMem_of_isDigit hdigit⟩
    | null => exact exists_literalText_eq_cons (s := .null) trivial rfl
    | bool b => exact exists_literalText_eq_cons (s := .bool b) trivial rfl
    | int n => exact exists_literalText_eq_cons (s := .int n) hs rfl
  str _ := ⟨rfl, rfl⟩
  quoted _ := ⟨_, rfl⟩
  key hs hn := readText_quoteUtf8 hs _ hn

theorem literalError_eq_none {s : Literal} : literalError s = none ↔
    (∀ x, s = .float x → x.isFinite = true) ∧
      ∀ n, s = .int n → (Nat.toDigits 10 n.natAbs).length ≤ 4300 := by
  cases s with
  | float x =>
      rw [literalError]
      split
      · next h => exact iff_of_true rfl ⟨fun _ heq => Literal.float.inj heq ▸ h, nofun⟩
      · next h => exact iff_of_false nofun fun hall => h (hall.1 x rfl)
  | int n =>
      rw [literalError]
      split
      · next h => exact iff_of_true rfl ⟨nofun, fun _ heq => Literal.int.inj heq ▸ h⟩
      · next h => exact iff_of_false nofun fun hall => h (hall.2 n rfl)
  | _ => exact iff_of_true rfl ⟨nofun, nofun⟩

/-- A value has bytes if its scalars and keys do. -/
theorem utf8Error_eq_none {v : Tree} : utf8Error v = none ↔ AllValid Literal.IsWritten v := by
  have hscalars : v.sort.scalars.findSome? literalError = none ↔ ∀ s ∈ v.scalars, literalError s = none := by
    rw [List.findSome?_eq_none_iff]
    exact forall_congr' fun s => by rw [Json.mem_scalars_sort]
  constructor
  · intro h
    rw [utf8Error] at h
    split at h
    · cases h
    · next hnone =>
        have herror := hscalars.mp hnone
        obtain ⟨htexts, hkeys⟩ := hasSurrogate_eq_false.mp (by
          by_contra hsurrogate
          rw [if_pos (Bool.not_eq_false _ ▸ hsurrogate)] at h
          cases h)
        refine ⟨fun s hs => ?_, hkeys⟩
        obtain ⟨hfloat, hint⟩ := literalError_eq_none.mp (herror s hs)
        cases s with
        | float x => exact hfloat x rfl
        | int n => exact hint n rfl
        | str t => exact htexts t hs
        | _ => trivial
  · rintro ⟨hwritten, hkeys⟩
    have hnone : v.sort.scalars.findSome? literalError = none := hscalars.mpr fun s hs => by
      have hs := hwritten s hs
      refine literalError_eq_none.mpr ⟨?_, ?_⟩
      · rintro x rfl
        exact hs
      · rintro n rfl
        exact hs
    rw [utf8Error, hnone]
    exact if_neg (by
      rw [Bool.not_eq_true, hasSurrogate_eq_false]
      exact ⟨fun t ht => hwritten _ ht, hkeys⟩)

theorem canonicalUtf8_eq_ok {v : Tree} {bytes : ByteArray} : canonicalUtf8 v = .ok bytes ↔
    AllValid Literal.IsWritten v ∧ bytes = encode (canonicalTextUtf8 v) := by
  rw [canonicalUtf8, ← utf8Error_eq_none]
  cases utf8Error v with
  | some e => exact iff_of_false nofun fun h => nomatch h.1
  | none =>
      rw [Except.ok.injEq, eq_comm]
      exact (and_iff_right rfl).symm

theorem allValid_sort {valid : Literal → Prop} {v : Tree} (h : AllValid valid v) : AllValid valid v.sort :=
  ⟨fun s hs => h.scalars s ((Json.mem_scalars_sort v s).mp hs),
    fun key hkey => h.keys key ((Json.mem_keys_sort v key).mp hkey)⟩

/-- What was written is read back with its entries in order. -/
theorem loads_canonicalTextUtf8 {v : Tree} (hv : AllValid Literal.IsWritten v) (hdistinct : v.Distinct) :
    loads (canonicalTextUtf8 v) = .ok v.sort := by
  rw [canonicalTextUtf8, readBack_utf8Syntax.loads_text (allValid_sort hv), checked_eq_ok]
  have hmap : Json.map id id v.sort = v.sort := Json.map_eq_self _ (fun _ _ => rfl) fun _ _ => rfl
  rw [hmap]
  exact ⟨rfl, (Json.distinct_sort_iff v).mpr hdistinct⟩

end Py
