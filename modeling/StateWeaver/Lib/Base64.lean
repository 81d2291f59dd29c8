import StateWeaver.Lib.AsciiJson

/-!
# Base64

`base64.b64encode` and `base64.b64decode` with `validate=True`, on texts of Python. Decoding is strict
about the alphabet, the length and the padding, and it drops the bits that the padding leaves over.
-/

namespace Py

namespace Base64

def pad : CodePoint := 61

/-- The character of six bits. -/
def digit (n : ℕ) : CodePoint :=
  if n < 26 then Fin.ofNat 0x110000 (65 + n)
  else if n < 52 then Fin.ofNat 0x110000 (97 + (n - 26))
  else if n < 62 then Fin.ofNat 0x110000 (48 + (n - 52))
  else if n = 62 then 43
  else 47

/-- The six bits of a character of the alphabet. -/
def value? (c : CodePoint) : Option ℕ :=
  if 65 ≤ c.val ∧ c.val ≤ 90 then some (c.val - 65)
  else if 97 ≤ c.val ∧ c.val ≤ 122 then some (c.val - 97 + 26)
  else if 48 ≤ c.val ∧ c.val ≤ 57 then some (c.val - 48 + 52)
  else if c.val = 43 then some 62
  else if c.val = 47 then some 63
  else none

def encodeBytes : List UInt8 → Text
  | [] => []
  | [a] => [digit (a.toNat / 4), digit (a.toNat % 4 * 16), pad, pad]
  | [a, b] =>
      [digit (a.toNat / 4), digit (a.toNat % 4 * 16 + b.toNat / 16), digit (b.toNat % 16 * 4), pad]
  | a :: b :: c :: rest =>
      digit (a.toNat / 4) :: digit (a.toNat % 4 * 16 + b.toNat / 16) ::
        digit (b.toNat % 16 * 4 + c.toNat / 64) :: digit (c.toNat % 64) :: encodeBytes rest

/-- The first, the second and the third byte of four characters. -/
def byte₁ (v w : ℕ) : UInt8 := UInt8.ofNat (v * 4 + w / 16)

def byte₂ (w x : ℕ) : UInt8 := UInt8.ofNat (w % 16 * 16 + x / 4)

def byte₃ (x y : ℕ) : UInt8 := UInt8.ofNat (x % 4 * 64 + y)

def decodeText : Text → Option (List UInt8)
  | [] => some []
  | c :: d :: e :: f :: rest =>
      if f = pad ∧ rest = [] then
        if e = pad then do return [byte₁ (← value? c) (← value? d)]
        else do
          let w ← value? d
          return [byte₁ (← value? c) w, byte₂ w (← value? e)]
      else do
        let w ← value? d
        let x ← value? e
        return byte₁ (← value? c) w :: byte₂ w x :: byte₃ x (← value? f) :: (← decodeText rest)
  | _ => none

/-! ## Decoding what was encoded -/

theorem value?_digit {n : ℕ} (h : n < 64) : value? (digit n) = some n := by
  have hall : ∀ n < 64, value? (digit n) = some n := by decide
  exact hall n h

theorem digit_ne_pad {n : ℕ} (h : n < 64) : digit n ≠ pad := by
  have hall : ∀ n < 64, digit n ≠ pad := by decide
  exact hall n h

theorem byte₁_digits (a : UInt8) {w : ℕ} (h : w / 16 = a.toNat % 4) : byte₁ (a.toNat / 4) w = a := by
  rw [byte₁, h, Nat.div_add_mod', UInt8.ofNat_toNat]

theorem byte₂_digits (b : UInt8) {w x : ℕ} (hw : w % 16 = b.toNat / 16) (hx : x / 4 = b.toNat % 16) :
    byte₂ w x = b := by
  rw [byte₂, hw, hx, Nat.div_add_mod', UInt8.ofNat_toNat]

theorem byte₃_digits (c : UInt8) {x : ℕ} (hx : x % 4 = c.toNat / 64) : byte₃ x (c.toNat % 64) = c := by
  rw [byte₃, hx, Nat.div_add_mod', UInt8.ofNat_toNat]

/-- What was encoded is decoded. -/
theorem decodeText_encodeBytes (bytes : List UInt8) : decodeText (encodeBytes bytes) = some bytes := by
  fun_induction encodeBytes bytes with
  | case1 => rfl
  | case2 a =>
      have ha := a.toNat_lt
      rw [decodeText, if_pos ⟨rfl, rfl⟩, if_pos rfl, value?_digit (by omega), value?_digit (by omega)]
      exact congrArg some (by rw [byte₁_digits a (by omega)])
  | case3 a b =>
      have ha := a.toNat_lt
      have hb := b.toNat_lt
      rw [decodeText, if_pos ⟨rfl, rfl⟩, if_neg (digit_ne_pad (by omega)), value?_digit (by omega),
        value?_digit (by omega), value?_digit (by omega)]
      exact congrArg some (by rw [byte₁_digits a (by omega), byte₂_digits b (by omega) (by omega)])
  | case4 a b c rest ih =>
      have ha := a.toNat_lt
      have hb := b.toNat_lt
      have hc := c.toNat_lt
      rw [decodeText, if_neg fun h => digit_ne_pad (by omega) h.1, value?_digit (by omega),
        value?_digit (by omega), value?_digit (by omega), value?_digit (by omega), ih]
      exact congrArg some (by rw [byte₁_digits a (by omega), byte₂_digits b (by omega) (by omega),
        byte₃_digits c (by omega)])

theorem length_encodeBytes (bytes : List UInt8) :
    (encodeBytes bytes).length = 4 * ((bytes.length + 2) / 3) := by
  fun_induction encodeBytes bytes with
  | case1 => rfl
  | case2 a => simp only [List.length_cons, List.length_nil]
  | case3 a b => simp only [List.length_cons, List.length_nil]
  | case4 a b c rest ih =>
      simp only [List.length_cons, ih]
      omega

end Base64

/-- `base64.b64encode(raw).decode("ascii")`. -/
def b64encode (raw : ByteArray) : Text := Base64.encodeBytes raw.data.toList

/-- `base64.b64decode(value, validate=True)`, `none` if it raises. -/
def b64decode (value : Text) : Option ByteArray :=
  (Base64.decodeText value).map fun bytes => ⟨bytes.toArray⟩

@[simp]
theorem b64decode_b64encode (raw : ByteArray) : b64decode (b64encode raw) = some raw := by
  rw [b64decode, b64encode, Base64.decodeText_encodeBytes, Option.map_some, Array.toArray_toList]

theorem length_b64encode (raw : ByteArray) : (b64encode raw).length = 4 * ((raw.size + 2) / 3) :=
  Base64.length_encodeBytes raw.data.toList

example : b64encode ⟨#[115, 119, 33, 10]⟩ = text "c3chCg==" := by decide

end Py
