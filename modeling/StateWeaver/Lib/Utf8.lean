import StateWeaver.Lib.JsonUtf8

/-!
# Bytes of texts

`text.encode("utf-8")`. A surrogate has no bytes; other texts are told apart by their bytes. A byte below 128 stands
for the character of this number only, so what a scanner of bytes asks of ASCII bytes it may ask of the characters.
-/

namespace Py

/-- The bytes of a text without surrogates. -/
def utf8 (s : Text) : List UInt8 := s.flatMap fun c => String.utf8EncodeChar c.toChar

/-- `text.encode("utf-8")`, nothing for `UnicodeEncodeError`. -/
def utf8? (s : Text) : Option (List UInt8) := if s.all fun c => !isSurrogate c then some (utf8 s) else none

theorem utf8?_eq_some {s : Text} {bytes : List UInt8} :
    utf8? s = some bytes ↔ (∀ c ∈ s, isSurrogate c = false) ∧ utf8 s = bytes := by
  rw [utf8?]
  split
  · next h =>
      rw [List.all_eq_true] at h
      rw [Option.some.injEq, and_iff_right fun c hc => Bool.not_eq_true' _ ▸ h c hc]
  · next h =>
      refine iff_of_false nofun fun hs => h (List.all_eq_true.mpr fun c hc => ?_)
      rw [hs.1 c hc]
      rfl

theorem utf8?_eq_none {s : Text} : utf8? s = none ↔ ∃ c ∈ s, isSurrogate c = true := by
  rw [utf8?, ite_eq_right_iff, imp_iff_not (Option.some_ne_none _), Bool.not_eq_true, List.all_eq_false]
  simp

theorem utf8_eq_encode (s : Text) :
    utf8 s = (encode (s.map CodePoint.toChar)).data.toList := by
  change _ = (s.map CodePoint.toChar).utf8Encode.data.toList
  rw [List.utf8Encode, List.data_toByteArray, List.flatMap_map]
  rfl

/-- The bytes of a text determine it. -/
theorem utf8_inj {s t : Text} (hs : ∀ c ∈ s, isSurrogate c = false) (ht : ∀ c ∈ t, isSurrogate c = false)
    (h : utf8 s = utf8 t) : s = t := by
  rw [utf8_eq_encode, utf8_eq_encode] at h
  have hchars := encode_injective (ByteArray.ext (Array.toList_inj.mp h))
  have hback : ∀ l : Text, (∀ c ∈ l, isSurrogate c = false) →
      (l.map CodePoint.toChar).map CodePoint.ofChar = l := by
    intro l hl
    rw [List.map_map]
    exact (List.map_congr_left fun c hc => ofChar_toChar (hl c hc)).trans (List.map_id l)
  rw [← hback s hs, ← hback t ht, hchars]

/-! ## ASCII bytes -/

theorem le_toNat_or (a b : UInt8) : b.toNat ≤ (a ||| b).toNat := by
  rw [UInt8.toNat_or]
  exact Nat.right_le_or

/-- A byte below 128 is a whole character. -/
theorem eq_of_mem_utf8EncodeChar {c : Char} {b : UInt8} (h : b ∈ String.utf8EncodeChar c) (hb : b.toNat < 128) :
    c.toNat = b.toNat := by
  have hhigh : ∀ a mark : UInt8, 128 ≤ mark.toNat → b ≠ a ||| mark := by
    rintro a mark hmark rfl
    exact absurd hb (Nat.not_lt.mpr (le_trans hmark (le_toNat_or a mark)))
  have hsize := c.utf8Size_eq
  rcases hsize with hsize | hsize | hsize | hsize
  · rw [String.utf8EncodeChar_eq_singleton hsize, List.mem_singleton] at h
    rw [h]
    have hle := Char.utf8Size_eq_one_iff.mp hsize
    have hval : c.toNat ≤ 127 := UInt32.le_iff_toNat_le.mp hle
    change c.toNat = c.toNat % 256
    rw [Nat.mod_eq_of_lt (by omega)]
  · rw [String.utf8EncodeChar_eq_cons_cons hsize] at h
    simp only [List.mem_cons, List.not_mem_nil, or_false] at h
    rcases h with h | h <;> exact absurd h (hhigh _ _ (by decide))
  · rw [String.utf8EncodeChar_eq_cons_cons_cons hsize] at h
    simp only [List.mem_cons, List.not_mem_nil, or_false] at h
    rcases h with h | h | h <;> exact absurd h (hhigh _ _ (by decide))
  · rw [String.utf8EncodeChar_eq_cons_cons_cons_cons hsize] at h
    simp only [List.mem_cons, List.not_mem_nil, or_false] at h
    rcases h with h | h | h | h <;> exact absurd h (hhigh _ _ (by decide))

/-- A byte below 128 is one of the text if the character of this number is. -/
theorem mem_of_mem_utf8 {s : Text} (hs : ∀ c ∈ s, isSurrogate c = false) {b : UInt8} (hb : b.toNat < 128)
    (h : b ∈ utf8 s) : ∃ c ∈ s, c.val = b.toNat := by
  obtain ⟨c, hc, hmem⟩ := List.mem_flatMap.mp h
  exact ⟨c, hc, (toNat_toChar (hs c hc)).symm.trans (eq_of_mem_utf8EncodeChar hmem hb)⟩

/-! ## Bytes of characters -/

/-- The bytes of some characters. -/
def charBytes (text : List Char) : List UInt8 := text.flatMap String.utf8EncodeChar

/-- `content.decode("utf-8")`, nothing for `UnicodeDecodeError`. -/
def decodeUtf8 (content : List UInt8) : Option (List Char) := decode ⟨content.toArray⟩

@[simp]
theorem charBytes_nil : charBytes [] = [] := rfl

theorem charBytes_cons (c : Char) (text : List Char) :
    charBytes (c :: text) = String.utf8EncodeChar c ++ charBytes text := List.flatMap_cons

theorem charBytes_append (text text' : List Char) : charBytes (text ++ text') = charBytes text ++ charBytes text' :=
  List.flatMap_append

theorem charBytes_eq_encode (text : List Char) : charBytes text = (encode text).data.toList := by
  change _ = text.utf8Encode.data.toList
  rw [List.utf8Encode, List.data_toByteArray]
  rfl

theorem utf8_eq_charBytes (s : Text) : utf8 s = charBytes (s.map CodePoint.toChar) := by
  rw [utf8_eq_encode, charBytes_eq_encode]

theorem charBytes_injective : Function.Injective charBytes := by
  intro text text' h
  rw [charBytes_eq_encode, charBytes_eq_encode] at h
  exact encode_injective (ByteArray.ext (Array.toList_inj.mp h))

theorem decodeUtf8_eq_some {content : List UInt8} {text : List Char} :
    decodeUtf8 content = some text ↔ content = charBytes text := by
  rw [charBytes_eq_encode]
  constructor
  · intro h
    rw [decodeUtf8, decode, Option.map_eq_some_iff] at h
    obtain ⟨s, hs, rfl⟩ := h
    rw [String.fromUTF8?] at hs
    obtain ⟨hvalid, hs⟩ := Option.dite_none_right_eq_some.mp hs
    cases hs
    change _ = (String.ofList (String.toList _)).toByteArray.data.toList
    rw [String.ofList_toList]
    rfl
  · rintro rfl
    exact decode_encode text

/-! ## Bytes of one character -/

theorem utf8EncodeChar_ne_nil (c : Char) : String.utf8EncodeChar c ≠ [] := by
  intro h
  have hlength := String.length_utf8EncodeChar c
  rw [h] at hlength
  exact absurd hlength.symm (Nat.ne_of_gt c.utf8Size_pos)

/-- Whether a byte of a character is one of some ASCII bytes depends on the character only. -/
theorem mem_iff_of_mem_utf8EncodeChar {bytes : List UInt8} (hbytes : ∀ b ∈ bytes, b.toNat < 128) {c : Char} {b : UInt8}
    (h : b ∈ String.utf8EncodeChar c) : b ∈ bytes ↔ c.toNat ∈ bytes.map UInt8.toNat := by
  constructor
  · intro hb
    rw [eq_of_mem_utf8EncodeChar h (hbytes b hb)]
    exact List.mem_map_of_mem hb
  · intro hc
    obtain ⟨b', hb', hval⟩ := List.mem_map.mp hc
    have hsize : c.utf8Size = 1 := Char.utf8Size_eq_one_iff.mpr (UInt32.le_iff_toNat_le.mpr (by
      have hlt := hbytes b' hb'
      have hval : b'.toNat = c.val.toNat := hval
      change c.val.toNat ≤ 127
      omega))
    rw [String.utf8EncodeChar_eq_singleton hsize, List.mem_singleton] at h
    have heq : b = b' := by
      refine UInt8.toNat_inj.mp ?_
      rw [h, hval]
      have hlt := hbytes b' hb'
      change c.toNat % 256 = c.toNat
      omega
    rwa [heq]

section While

variable {p : UInt8 → Bool} {q : Char → Bool} (hpq : ∀ c, ∀ b ∈ String.utf8EncodeChar c, p b = q c)

include hpq

theorem takeWhile_charBytes (text : List Char) : (charBytes text).takeWhile p = charBytes (text.takeWhile q) := by
  induction text with
  | nil => rfl
  | cons c text ih =>
      rw [charBytes_cons, List.takeWhile_cons]
      split
      · next hc =>
          rw [List.takeWhile_append_of_pos fun b hb => (hpq c b hb).trans hc, ih, charBytes_cons]
      · next hc =>
          obtain ⟨b, bs, hcons⟩ := List.exists_cons_of_ne_nil (utf8EncodeChar_ne_nil c)
          have hb : ¬ p b = true := by
            rw [hpq c b (hcons ▸ List.mem_cons_self)]
            exact hc
          rw [hcons, List.cons_append, List.takeWhile_cons_of_neg hb, charBytes_nil]

theorem dropWhile_charBytes (text : List Char) : (charBytes text).dropWhile p = charBytes (text.dropWhile q) := by
  have hsplit := congrArg charBytes (List.takeWhile_append_dropWhile (p := q) (l := text))
  rw [charBytes_append, ← takeWhile_charBytes hpq] at hsplit
  have hbytes := List.takeWhile_append_dropWhile (p := p) (l := charBytes text)
  exact List.append_cancel_left (hbytes.trans hsplit.symm)

end While

end Py
