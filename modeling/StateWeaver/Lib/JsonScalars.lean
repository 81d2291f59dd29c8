import StateWeaver.Lib.Json
import StateWeaver.Lib.NumberText
import StateWeaver.Lib.Python

/-!
# The scalars that Python writes

How `json.dumps` writes the scalars of Python without escaping beyond ASCII: texts in quotes, integers
with their digits, floats as `repr` does. Different finite scalars have different texts, and a text
tells where it ends.
-/

namespace Py

/-! ## Quoted texts -/

/-- A character between quotes. -/
def escape (c : Char) : List Char :=
  if c = '"' then ['\\', '"']
  else if c = '\\' then ['\\', '\\']
  else if c = '\n' then ['\\', 'n']
  else if c = '\r' then ['\\', 'r']
  else if c = '\t' then ['\\', 't']
  else if c.toNat = 8 then ['\\', 'b']
  else if c.toNat = 12 then ['\\', 'f']
  else if c.toNat < 32 then
    ['\\', 'u', '0', '0', Nat.digitChar (c.toNat / 16), Nat.digitChar (c.toNat % 16)]
  else [c]

def quote (s : String) : List Char := '"' :: s.toList.flatMap escape ++ ['"']

/-- Whether a character is not written as it is. -/
def isEscaped (c : Char) : Bool := c.toNat < 32 || c == '"' || c == '\\'

theorem escape_of_not_isEscaped {c : Char} (h : isEscaped c = false) : escape c = [c] := by
  simp only [isEscaped, Bool.or_eq_false_iff, decide_eq_false_iff_not, beq_eq_false_iff_ne] at h
  obtain ⟨⟨hcontrol, hquote⟩, hslash⟩ := h
  have hne : ∀ d : Char, d.toNat < 32 → c ≠ d := fun d hd heq => hcontrol (heq ▸ hd)
  rw [escape, if_neg hquote, if_neg hslash, if_neg (hne _ (by decide)), if_neg (hne _ (by decide)),
    if_neg (hne _ (by decide)), if_neg (by omega), if_neg (by omega), if_neg hcontrol]

theorem exists_escape_eq_cons {c : Char} (h : isEscaped c = true) :
    ∃ rest, escape c = '\\' :: rest := by
  simp only [isEscaped, Bool.or_eq_true, decide_eq_true_eq, beq_iff_eq] at h
  rw [escape]
  split_ifs <;> first | exact ⟨_, rfl⟩ | (rcases h with (h | h) | h <;> contradiction)

/-- No escape sequence is a prefix of another one. -/
theorem eq_of_prefixed_escape {c d : Char} (hc : isEscaped c = true) (hd : isEscaped d = true)
    (h : escape c <+: escape d) : c = d := by
  have hcode : ∀ {c : Char}, isEscaped c = true → c.toNat ∈ List.range 32 ++ [34, 92] := by
    intro c hc
    simp only [isEscaped, Bool.or_eq_true, decide_eq_true_eq, beq_iff_eq] at hc
    rcases hc with (hc | rfl) | rfl
    · exact List.mem_append_left _ (List.mem_range.mpr hc)
    · decide
    · decide
  have hall : ∀ m ∈ List.range 32 ++ [34, 92], ∀ n ∈ List.range 32 ++ [34, 92],
      (escape (Char.ofNat m)).isPrefixOf (escape (Char.ofNat n)) = true → m = n := by
    decide +kernel
  have heq := hall c.toNat (hcode hc) d.toNat (hcode hd)
  rw [Char.ofNat_toNat, Char.ofNat_toNat] at heq
  rw [← Char.ofNat_toNat c, heq (List.isPrefixOf_iff_prefix.mpr h), Char.ofNat_toNat]

theorem eq_of_escape_append {c d : Char} {rest rest' : List Char}
    (h : escape c ++ rest = escape d ++ rest') : c = d ∧ rest = rest' := by
  have hsuffices : c = d → c = d ∧ rest = rest' := by
    rintro rfl
    exact ⟨rfl, List.append_cancel_left h⟩
  refine hsuffices ?_
  cases hc : isEscaped c with
  | false =>
      rw [escape_of_not_isEscaped hc] at h
      cases hd : isEscaped d with
      | false =>
          rw [escape_of_not_isEscaped hd] at h
          exact (List.cons.inj h).1
      | true =>
          obtain ⟨t, ht⟩ := exists_escape_eq_cons hd
          rw [ht] at h
          rw [(List.cons.inj h).1] at hc
          cases hc
  | true =>
      cases hd : isEscaped d with
      | false =>
          obtain ⟨t, ht⟩ := exists_escape_eq_cons hc
          rw [ht, escape_of_not_isEscaped hd] at h
          rw [← (List.cons.inj h).1] at hd
          cases hd
      | true =>
          rcases List.append_eq_append_iff.mp h with ⟨t, ht, -⟩ | ⟨t, ht, -⟩
          · exact eq_of_prefixed_escape hc hd ⟨t, ht.symm⟩
          · exact (eq_of_prefixed_escape hd hc ⟨t, ht.symm⟩).symm

theorem escape_append_ne (c : Char) (rest rest' : List Char) : escape c ++ rest ≠ '"' :: rest' := by
  intro h
  cases hc : isEscaped c with
  | false =>
      rw [escape_of_not_isEscaped hc] at h
      rw [(List.cons.inj h).1] at hc
      cases hc
  | true =>
      obtain ⟨t, ht⟩ := exists_escape_eq_cons hc
      rw [ht] at h
      cases h

theorem eq_of_flatMap_escape {l l' rest rest' : List Char}
    (h : l.flatMap escape ++ '"' :: rest = l'.flatMap escape ++ '"' :: rest') :
    l = l' ∧ rest = rest' := by
  induction l generalizing l' with
  | nil =>
      cases l' with
      | nil => exact ⟨rfl, (List.cons.inj h).2⟩
      | cons d l' =>
          rw [List.flatMap_cons, List.append_assoc] at h
          exact absurd h.symm (escape_append_ne d _ _)
  | cons c l ih =>
      cases l' with
      | nil =>
          rw [List.flatMap_cons, List.append_assoc] at h
          exact absurd h (escape_append_ne c _ _)
      | cons d l' =>
          rw [List.flatMap_cons, List.flatMap_cons, List.append_assoc, List.append_assoc] at h
          obtain ⟨rfl, htail⟩ := eq_of_escape_append h
          obtain ⟨rfl, hrest⟩ := ih htail
          exact ⟨rfl, hrest⟩

/-- A quoted text tells the text and where it ends. -/
theorem eq_of_quote_append {s s' : String} {rest rest' : List Char}
    (h : quote s ++ rest = quote s' ++ rest') : s = s' ∧ rest = rest' := by
  simp only [quote, List.cons_append, List.append_assoc, List.nil_append, List.cons.injEq,
    true_and] at h
  obtain ⟨hs, hrest⟩ := eq_of_flatMap_escape h
  exact ⟨String.toList_inj.mp hs, hrest⟩

/-! ## Scalars -/

/-- A scalar as `json.dumps` writes it. -/
def scalarText : Scalar → List Char
  | .none_ => ['n', 'u', 'l', 'l']
  | .bool true => ['t', 'r', 'u', 'e']
  | .bool false => ['f', 'a', 'l', 's', 'e']
  | .int n => intText n
  | .float x => floatText x
  | .str s => quote s

/-- The syntax of JSON with the scalars of Python. -/
def jsonSyntax : Json.Syntax Scalar String := ⟨scalarText, quote⟩

/-- Whether a scalar is not a NaN and not an infinity. -/
def Scalar.IsFinite (s : Scalar) : Prop := ∀ x, s = .float x → x.isFinite = true

def Scalar.isNumber : Scalar → Bool
  | .int _ | .float _ => true
  | _ => false

theorem isNumeric_scalarText {s : Scalar} (hs : s.IsFinite) (hnumber : s.isNumber = true) :
    ∀ c ∈ scalarText s, isNumeric c = true := by
  cases s with
  | int n => exact isNumeric_intText n
  | float x => exact isNumeric_floatText (hs x rfl)
  | _ => cases hnumber

theorem scalarText_inj_of_isNumber {s s' : Scalar} (hs : s.IsFinite) (hs' : s'.IsFinite)
    (hnumber : s.isNumber = true) (hnumber' : s'.isNumber = true)
    (h : scalarText s = scalarText s') : s = s' := by
  cases s with
  | int n =>
      cases s' with
      | int n' => rw [intText_inj h]
      | float x' => exact absurd h (intText_ne_floatText (hs' x' rfl))
      | _ => cases hnumber'
  | float x =>
      cases s' with
      | int n' => exact absurd h.symm (intText_ne_floatText (hs x rfl))
      | float x' => rw [floatText_inj (hs x rfl) (hs' x' rfl) h]
      | _ => cases hnumber'
  | _ => cases hnumber

/-- What ends a value ends a number. -/
theorem takeWhile_isNumeric {text rest : List Char} (htext : ∀ c ∈ text, isNumeric c = true)
    (hrest : Json.Ends rest) : (text ++ rest).takeWhile isNumeric = text := by
  rw [List.takeWhile_append_of_pos htext]
  cases rest with
  | nil => rw [List.takeWhile_nil, List.append_nil]
  | cons c rest =>
      have hnot : ¬ isNumeric c = true := by
        rcases hrest c rfl with rfl | rfl | rfl <;> decide
      rw [List.takeWhile_cons_of_neg hnot, List.append_nil]

/-- A number is never empty, and nothing else starts like a number. -/
theorem exists_scalarText_eq_cons (s : Scalar) : ∃ c rest, scalarText s = c :: rest ∧
    c ∉ ['[', ']', '{', '}', ','] ∧ (s.isNumber = false → isNumeric c = false) := by
  have hdigit : ∀ {c : Char}, c.isDigit = true → c ∉ ['[', ']', '{', '}', ','] := by
    intro c hc hmem
    simp only [List.mem_cons, List.not_mem_nil, or_false] at hmem
    rcases hmem with rfl | rfl | rfl | rfl | rfl <;> cases hc
  cases s with
  | none_ => exact ⟨'n', _, rfl, by decide, fun _ => by decide⟩
  | bool b =>
      cases b with
      | true => exact ⟨'t', _, rfl, by decide, fun _ => by decide⟩
      | false => exact ⟨'f', _, rfl, by decide, fun _ => by decide⟩
  | int n =>
      obtain ⟨c, rest, hcons, hc⟩ := exists_toDigits_eq_cons n.natAbs
      rw [scalarText, intText]
      split
      · exact ⟨'-', _, rfl, by decide, fun h => by cases h⟩
      · exact ⟨c, rest, hcons, hdigit hc, fun h => by cases h⟩
  | float x =>
      cases hx : x.isFinite with
      | true =>
          obtain ⟨body, hbody, ⟨⟨c, rest, hcons, hc⟩, -, -⟩, -⟩ := exists_floatText_eq hx
          rw [scalarText, hbody]
          split
          · exact ⟨'-', body, rfl, by decide, fun h => by cases h⟩
          · exact ⟨c, rest, hcons, hdigit hc, fun h => by cases h⟩
      | false =>
          rw [Float.isFinite, Float.Model.isFinite] at hx
          rw [scalarText, floatText]
          cases hunpack : x.toModel.unpack with
          | notANumber => exact ⟨'N', _, rfl, by decide, fun h => by cases h⟩
          | infinity sign =>
              cases sign with
              | positive => exact ⟨'I', _, rfl, by decide, fun h => by cases h⟩
              | negative => exact ⟨'-', _, rfl, by decide, fun h => by cases h⟩
          | zero sign =>
              rw [hunpack] at hx
              cases hx
          | finite sign mantissa exponent hpos =>
              rw [hunpack] at hx
              cases hx
  | str t => exact ⟨'"', _, rfl, by decide, fun _ => by decide⟩

/-- Constants and quoted texts tell where they end. -/
theorem eq_of_text_append_of_not_isNumber {s s' : Scalar} {rest rest' : List Char}
    (hnumber : s.isNumber = false) (hnumber' : s'.isNumber = false)
    (h : scalarText s ++ rest = scalarText s' ++ rest') : s = s' ∧ rest = rest' := by
  cases s with
  | none_ =>
      cases s' with
      | none_ => exact ⟨rfl, List.append_cancel_left h⟩
      | bool b => cases b <;> exact absurd (List.cons.inj h).1 (by decide)
      | str t => exact absurd (List.cons.inj h).1 (by decide)
      | int n => cases hnumber'
      | float x => cases hnumber'
  | bool b =>
      cases s' with
      | none_ => cases b <;> exact absurd (List.cons.inj h).1 (by decide)
      | bool b' =>
          cases b <;> cases b' <;>
            first
            | exact ⟨rfl, List.append_cancel_left h⟩
            | exact absurd (List.cons.inj h).1 (by decide)
      | str t => cases b <;> exact absurd (List.cons.inj h).1 (by decide)
      | int n => cases hnumber'
      | float x => cases hnumber'
  | str t =>
      cases s' with
      | none_ => exact absurd (List.cons.inj h).1 (by decide)
      | bool b => cases b <;> exact absurd (List.cons.inj h).1 (by decide)
      | str t' =>
          obtain ⟨rfl, hrest⟩ := eq_of_quote_append h
          exact ⟨rfl, hrest⟩
      | int n => cases hnumber'
      | float x => cases hnumber'
  | int n => cases hnumber
  | float x => cases hnumber

/-- Two scalars whose texts start alike are the same, if both texts end there. -/
theorem eq_of_scalarText_append {s s' : Scalar} {rest rest' : List Char} (hs : s.IsFinite)
    (hs' : s'.IsFinite) (hends : Json.Ends rest) (hends' : Json.Ends rest')
    (h : scalarText s ++ rest = scalarText s' ++ rest') : s = s' ∧ rest = rest' := by
  obtain ⟨c, t, hcons, -, hlead⟩ := exists_scalarText_eq_cons s
  obtain ⟨c', t', hcons', -, hlead'⟩ := exists_scalarText_eq_cons s'
  have hc : c = c' := by
    rw [hcons, hcons'] at h
    exact (List.cons.inj h).1
  cases hnumber : s.isNumber with
  | true =>
      have hnumeric := isNumeric_scalarText hs hnumber
      cases hnumber' : s'.isNumber with
      | true =>
          have htext := congrArg (List.takeWhile isNumeric) h
          rw [takeWhile_isNumeric hnumeric hends,
            takeWhile_isNumeric (isNumeric_scalarText hs' hnumber') hends'] at htext
          refine ⟨scalarText_inj_of_isNumber hs hs' hnumber hnumber' htext, ?_⟩
          rw [htext] at h
          exact List.append_cancel_left h
      | false =>
          have hnot := hlead' hnumber'
          rw [← hc, hnumeric c (hcons ▸ List.mem_cons_self)] at hnot
          cases hnot
  | false =>
      cases hnumber' : s'.isNumber with
      | true =>
          have hnot := hlead hnumber
          rw [hc, isNumeric_scalarText hs' hnumber' c' (hcons' ▸ List.mem_cons_self)] at hnot
          cases hnot
      | false =>
          refine eq_of_text_append_of_not_isNumber hnumber hnumber' h

/-- What Python writes can be told apart. -/
theorem readable_jsonSyntax : jsonSyntax.Readable Scalar.IsFinite where
  scalar hs hs' hends hends' h := eq_of_scalarText_append hs hs' hends hends' h
  key h := by
    obtain ⟨hkey, hrest⟩ := eq_of_quote_append h
    exact ⟨hkey, (List.cons.inj hrest).2⟩
  start s := by
    obtain ⟨c, rest, hcons, hnot, -⟩ := exists_scalarText_eq_cons s
    exact ⟨c, rest, hcons, hnot⟩
  keyStart k := ⟨'"', _, rfl, by decide⟩

end Py
