import StateWeaver.Candidate.Common
import StateWeaver.Lib.Utf8
import StateWeaver.Lib.JsonSize
import StateWeaver.Lib.JsonTokens

/-!
# Bounds on JSON before it is read

A scanner of bytes bounds how deep containers are nested, how many values and keys there are, and how long texts, keys
and numbers are, before the reader of JSON sees the bytes. It accepts many bytes that are no JSON. But on what it
accepts, the reader comes to no limit; and it accepts a written value exactly if the value is within the bounds.
-/

namespace StateWeaver.Candidate

open Py (charBytes Tree Text Literal)

/-- The bounds of `preflight_json_structure`, with its defaults. -/
structure JsonLimits where
  maxBytes : ℕ
  maxDepth : ℕ := 64
  maxNodes : ℕ := 200000
  maxStringBytes : ℕ := 2 * 1024 * 1024
  maxKeyBytes : ℕ := 4 * 1024

/-- `MAX_JSON_NUMBER_BYTES`. -/
def maxJsonNumberBytes : ℕ := 1024

/-! ## The scanner -/

def isJsonWhitespace (b : UInt8) : Bool := [32, 9, 13, 10].contains b

def isJsonDelimiter (b : UInt8) : Bool := [123, 125, 91, 93, 44, 58, 32, 9, 13, 10].contains b

/-- Whether a byte is a minus sign or a digit. -/
def startsJsonNumber (b : UInt8) : Bool := [45, 48, 49, 50, 51, 52, 53, 54, 55, 56, 57].contains b

/-- How long a text is up to its last quote, and what comes after it. -/
def scanJsonString : Bool → List UInt8 → Option (ℕ × List UInt8)
  | _, [] => none
  | true, _ :: rest => (scanJsonString false rest).map fun p => (p.1 + 1, p.2)
  | false, current :: rest =>
      if current = 92 then (scanJsonString true rest).map fun p => (p.1 + 1, p.2)
      else if current = 34 then some (0, rest)
      else (scanJsonString false rest).map fun p => (p.1 + 1, p.2)

theorem length_lt_of_scanJsonString {escaped : Bool} {content : List UInt8} {p : ℕ × List UInt8}
    (h : scanJsonString escaped content = some p) : p.2.length < content.length := by
  induction content generalizing escaped p with
  | nil => cases escaped <;> cases h
  | cons b rest ih =>
      have hmap : ∀ {escaped}, (scanJsonString escaped rest).map (fun p => (p.1 + 1, p.2)) = some p →
          p.2.length < (b :: rest).length := by
        intro escaped h
        obtain ⟨p', hp', rfl⟩ := Option.map_eq_some_iff.mp h
        have hlt := ih hp'
        exact Nat.lt_succ_of_lt hlt
      cases escaped with
      | true => exact hmap h
      | false =>
          rw [scanJsonString] at h
          split_ifs at h
          · exact hmap h
          · cases h
            exact Nat.lt_succ_self _
          · exact hmap h

/-- The bound for a text with these bytes after it: a text before a colon is a key. -/
def jsonStringLimit (limits : JsonLimits) (rest : List UInt8) : ℕ :=
  if (rest.dropWhile isJsonWhitespace).head? = some 58 then limits.maxKeyBytes else limits.maxStringBytes

/-- The loop of `preflight_json_structure`, inside some containers and after some values; whether it ends without
`CandidateError`. -/
def preflightJsonLoop (limits : JsonLimits) (depth nodes : ℕ) (content : List UInt8) : Bool :=
  match content with
  | [] => depth = 0
  | value :: rest =>
      if isJsonWhitespace value then preflightJsonLoop limits depth nodes rest
      else if value = 123 ∨ value = 91 then
        if limits.maxDepth < depth + 1 ∨ limits.maxNodes < nodes + 1 then false
        else preflightJsonLoop limits (depth + 1) (nodes + 1) rest
      else if value = 125 ∨ value = 93 then
        if depth = 0 then false else preflightJsonLoop limits (depth - 1) nodes rest
      else if value = 34 then
        match hscan : scanJsonString false rest with
        | none => false
        | some (stringBytes, after) =>
            if jsonStringLimit limits after < stringBytes ∨ limits.maxNodes < nodes + 1 then false
            else preflightJsonLoop limits depth (nodes + 1) after
      else if value = 58 ∨ value = 44 then preflightJsonLoop limits depth nodes rest
      else
        let token := rest.takeWhile (!isJsonDelimiter ·)
        if limits.maxNodes < nodes + 1 ∨ startsJsonNumber value ∧ maxJsonNumberBytes < token.length + 1 then false
        else preflightJsonLoop limits depth (nodes + 1) (rest.dropWhile (!isJsonDelimiter ·))
termination_by content.length
decreasing_by
  all_goals try exact Nat.lt_succ_self _
  · exact Nat.lt_succ_of_lt (length_lt_of_scanJsonString hscan)
  · exact Nat.lt_succ_of_le (List.length_dropWhile_le _ _)

/-- `preflight_json_structure`. -/
def preflightJsonStructure (code : String) (limits : JsonLimits) (content : List UInt8) : Except Failure Unit :=
  Imp.require (content.length ≤ limits.maxBytes ∧ preflightJsonLoop limits 0 0 content) (.candidate code)

/-! ## Tokens -/

/-- Whether the loop accepts a text inside some containers after some values. -/
def Scans (limits : JsonLimits) (depth nodes : ℕ) (text : List Char) : Prop :=
  preflightJsonLoop limits depth nodes (charBytes text) = true

variable {limits : JsonLimits} {depth nodes : ℕ}

theorem scans_nil : Scans limits depth nodes [] ↔ depth = 0 := by
  rw [Scans, Py.charBytes_nil, preflightJsonLoop, decide_eq_true_iff]

theorem scans_blank {c : Char} (hc : Py.isBlank c = true) (rest : List Char) :
    Scans limits depth nodes (c :: rest) ↔ Scans limits depth nodes rest := by
  simp only [Py.isBlank, Bool.or_eq_true, beq_iff_eq] at hc
  rcases hc with ((rfl | rfl) | rfl) | rfl
  all_goals
    rw [Scans, Py.charBytes_cons, show String.utf8EncodeChar _ = [_] from rfl, List.singleton_append,
      preflightJsonLoop, if_pos (by decide)]
    rfl

theorem scans_separator {c : Char} (hc : c = ',' ∨ c = ':') (rest : List Char) :
    Scans limits depth nodes (c :: rest) ↔ Scans limits depth nodes rest := by
  rcases hc with rfl | rfl
  all_goals
    rw [Scans, Py.charBytes_cons, show String.utf8EncodeChar _ = [_] from rfl, List.singleton_append,
      preflightJsonLoop, if_neg (by decide), if_neg (by decide), if_neg (by decide), if_neg (by decide),
      if_pos (by decide)]
    rfl

theorem scans_opening {c : Char} (hc : c = '[' ∨ c = '{') (rest : List Char) :
    Scans limits depth nodes (c :: rest) ↔ (depth + 1 ≤ limits.maxDepth ∧ nodes + 1 ≤ limits.maxNodes) ∧
      Scans limits (depth + 1) (nodes + 1) rest := by
  have hloop : Scans limits depth nodes (c :: rest) ↔
      (if limits.maxDepth < depth + 1 ∨ limits.maxNodes < nodes + 1 then false
        else preflightJsonLoop limits (depth + 1) (nodes + 1) (charBytes rest)) = true := by
    rcases hc with rfl | rfl
    all_goals
      rw [Scans, Py.charBytes_cons, show String.utf8EncodeChar _ = [_] from rfl, List.singleton_append,
        preflightJsonLoop, if_neg (by decide), if_pos (by decide)]
  rw [hloop]
  split
  · exact iff_of_false Bool.false_ne_true fun h => by omega
  · next hlimits => exact (and_iff_right (by omega)).symm

theorem scans_closing {c : Char} (hc : c = ']' ∨ c = '}') (rest : List Char) :
    Scans limits (depth + 1) nodes (c :: rest) ↔ Scans limits depth nodes rest := by
  rcases hc with rfl | rfl
  all_goals
    rw [Scans, Py.charBytes_cons, show String.utf8EncodeChar _ = [_] from rfl, List.singleton_append,
      preflightJsonLoop, if_neg (by decide), if_neg (by decide), if_pos (by decide), if_neg (Nat.succ_ne_zero depth)]
    rfl

/-! ## Texts -/

/-- What may stand between quotes: characters, and escapes that start with a backslash. -/
inductive IsBody : List Char → Prop
  | nil : IsBody []
  | plain {c : Char} {body : List Char} : c ≠ '"' → c ≠ '\\' → IsBody body → IsBody (c :: body)
  | escaped {c : Char} {body : List Char} : c.toNat < 128 → IsBody body → IsBody ('\\' :: c :: body)

theorem IsBody.append {body body' : List Char} (h : IsBody body) (h' : IsBody body') : IsBody (body ++ body') := by
  induction h with
  | nil => exact h'
  | plain hquote hslash _ ih => exact .plain hquote hslash ih
  | escaped hc _ ih => exact .escaped hc ih

/-- Bytes that are neither quotes nor backslashes are passed over. -/
theorem scanJsonString_append {bytes : List UInt8} (h : ∀ b ∈ bytes, b ≠ 92 ∧ b ≠ 34) (rest : List UInt8) :
    scanJsonString false (bytes ++ rest) = (scanJsonString false rest).map fun p => (p.1 + bytes.length, p.2) := by
  induction bytes with
  | nil => exact Option.map_id'.symm
  | cons b bytes ih =>
      obtain ⟨⟨hslash, hquote⟩, hbytes⟩ := List.forall_mem_cons.mp h
      rw [List.cons_append, scanJsonString, if_neg hslash, if_neg hquote, ih hbytes, Option.map_map]
      rfl

/-- A byte of a character is a quote or a backslash only if the character is. -/
theorem ne_of_mem_utf8EncodeChar {c : Char} (hquote : c ≠ '"') (hslash : c ≠ '\\') {b : UInt8}
    (hb : b ∈ String.utf8EncodeChar c) : b ≠ 92 ∧ b ≠ 34 := by
  have hiff := Py.mem_iff_of_mem_utf8EncodeChar (by decide +kernel : ∀ b ∈ ([92, 34] : List UInt8), b.toNat < 128) hb
  have hnot : b ∉ ([92, 34] : List UInt8) := by
    rw [hiff]
    intro hmem
    rcases List.mem_cons.mp hmem with h | h
    · exact hslash (Char.toNat_inj.mp h)
    · exact hquote (Char.toNat_inj.mp (List.mem_singleton.mp h))
  exact ⟨fun h => hnot (h ▸ List.mem_cons_self), fun h => hnot (h ▸ List.mem_cons_of_mem _ List.mem_cons_self)⟩

/-- The scanner finds the quote that ends a text. -/
theorem scanJsonString_body {body : List Char} (h : IsBody body) (rest : List UInt8) :
    scanJsonString false (charBytes body ++ 34 :: rest) = some ((charBytes body).length, rest) := by
  induction h with
  | nil => rfl
  | @plain c body hquote hslash _ ih =>
      rw [Py.charBytes_cons, List.append_assoc,
        scanJsonString_append (fun b hb => ne_of_mem_utf8EncodeChar hquote hslash hb), ih, Option.map_some,
        List.length_append, Nat.add_comm]
  | @escaped c body hc _ ih =>
      obtain ⟨b, hb⟩ : ∃ b, String.utf8EncodeChar c = [b] := by
        have hsize : c.utf8Size = 1 := Char.utf8Size_eq_one_iff.mpr (UInt32.le_iff_toNat_le.mpr (Nat.le_of_lt_succ hc))
        exact ⟨_, String.utf8EncodeChar_eq_singleton hsize⟩
      rw [Py.charBytes_cons, Py.charBytes_cons, hb, show String.utf8EncodeChar '\\' = [92] from rfl]
      rw [List.singleton_append, List.singleton_append, List.cons_append, List.cons_append, scanJsonString,
        if_pos rfl, scanJsonString, ih]
      rfl

theorem scans_text {body : List Char} (h : IsBody body) (rest : List Char) :
    Scans limits depth nodes ('"' :: body ++ '"' :: rest) ↔
      ((charBytes body).length ≤ jsonStringLimit limits (charBytes rest) ∧ nodes + 1 ≤ limits.maxNodes) ∧
        Scans limits depth (nodes + 1) rest := by
  have hscan := scanJsonString_body h (charBytes rest)
  have hquote : ∀ text, charBytes ('"' :: text) = 34 :: charBytes text := fun text => Py.charBytes_cons _ _
  rw [Scans, List.cons_append, hquote, Py.charBytes_append, hquote, preflightJsonLoop, if_neg (by decide),
    if_neg (by decide), if_neg (by decide), if_pos rfl]
  split
  · next hnone =>
    rw [hscan] at hnone
    cases hnone
  · next stringBytes after hsome =>
    rw [hscan] at hsome
    cases hsome
    split
    · exact iff_of_false Bool.false_ne_true fun h => by omega
    · exact (and_iff_right (by omega)).symm

/-! ## Words and numbers -/

/-- A byte of a character ends a token exactly if the character does. -/
theorem isJsonDelimiter_eq {c : Char} {b : UInt8} (hb : b ∈ String.utf8EncodeChar c) :
    (!isJsonDelimiter b) = !Py.isDelimiter c := by
  have hiff := Py.mem_iff_of_mem_utf8EncodeChar
    (by decide +kernel : ∀ b ∈ ([123, 125, 91, 93, 44, 58, 32, 9, 13, 10] : List UInt8), b.toNat < 128) hb
  have hchars : c.toNat ∈ ([123, 125, 91, 93, 44, 58, 32, 9, 13, 10] : List UInt8).map UInt8.toNat ↔
      c ∈ ['\x7b', '\x7d', '[', ']', ',', ':', ' ', '\t', '\r', '\n'] := by
    simp only [List.map_cons, List.map_nil, List.mem_cons, List.not_mem_nil, or_false, ← Char.toNat_inj]
    rfl
  rw [isJsonDelimiter, Py.isDelimiter, Bool.eq_iff_iff, Bool.not_eq_true', Bool.not_eq_true', ← Bool.not_eq_true,
    ← Bool.not_eq_true, List.contains_iff_mem, List.contains_iff_mem, hiff, hchars]

/-- A first byte of a token is nothing but that. -/
theorem ne_of_isToken {c : Char} (hc : Py.isDelimiter c = false) (hquote : c ≠ '"') {b : UInt8}
    (hb : b ∈ String.utf8EncodeChar c) : isJsonDelimiter b = false ∧ b ≠ 34 := by
  have hdelimiter := isJsonDelimiter_eq hb
  rw [hc, Bool.not_false, Bool.not_eq_true'] at hdelimiter
  refine ⟨hdelimiter, ?_⟩
  rintro rfl
  have hiff := Py.mem_iff_of_mem_utf8EncodeChar (by decide +kernel : ∀ b ∈ ([34] : List UInt8), b.toNat < 128) hb
  exact hquote (Char.toNat_inj.mp (List.mem_singleton.mp (hiff.mp List.mem_cons_self)))

/-- Whether a text starts like a number. -/
def StartsNumber (text : List Char) : Prop := (charBytes text).head?.any startsJsonNumber = true

/-- A token goes on up to the next delimiter. -/
theorem scans_token {p : List Char} (hne : p ≠ []) (hp : Py.IsToken p) (rest : List Char) :
    Scans limits depth nodes (p ++ rest) ↔
      (nodes + 1 ≤ limits.maxNodes ∧ (StartsNumber p →
        (charBytes (p ++ rest.takeWhile (!Py.isDelimiter ·))).length ≤ maxJsonNumberBytes)) ∧
        Scans limits depth (nodes + 1) (rest.dropWhile (!Py.isDelimiter ·)) := by
  obtain ⟨c, q, rfl⟩ := List.exists_cons_of_ne_nil hne
  obtain ⟨b, bs, hb⟩ := List.exists_cons_of_ne_nil (Py.utf8EncodeChar_ne_nil c)
  obtain ⟨hdelimiter, hquote⟩ := ne_of_isToken (hp c List.mem_cons_self).1 (hp c List.mem_cons_self).2
    (hb ▸ List.mem_cons_self : b ∈ String.utf8EncodeChar c)
  obtain ⟨tail, htail⟩ : ∃ tail, charBytes (c :: q ++ rest) = b :: tail :=
    ⟨bs ++ charBytes (q ++ rest), by rw [List.cons_append, Py.charBytes_cons, hb, List.cons_append]⟩
  have hstarts : StartsNumber (c :: q) ↔ startsJsonNumber b = true := by
    rw [StartsNumber, Py.charBytes_cons, hb]
    rfl
  have htoken : ∀ d ∈ c :: q, (!Py.isDelimiter d) = true := fun d hd => by rw [(hp d hd).1]; rfl
  have hb' : (!isJsonDelimiter b) = true := by rw [hdelimiter]; rfl
  have htake : (tail.takeWhile (!isJsonDelimiter ·)).length + 1 =
      (charBytes (c :: q ++ rest.takeWhile (!Py.isDelimiter ·))).length := by
    rw [← List.takeWhile_append_of_pos htoken, ← Py.takeWhile_charBytes fun c b hb => isJsonDelimiter_eq hb, htail,
      List.takeWhile_cons_of_pos (p := (!isJsonDelimiter ·)) hb', List.length_cons]
  have hdrop : tail.dropWhile (!isJsonDelimiter ·) = charBytes (rest.dropWhile (!Py.isDelimiter ·)) := by
    rw [← List.dropWhile_append_of_pos htoken, ← Py.dropWhile_charBytes fun c b hb => isJsonDelimiter_eq hb, htail,
      List.dropWhile_cons_of_pos (p := (!isJsonDelimiter ·)) hb']
  have hwhite : isJsonWhitespace b = false := by
    rw [Bool.eq_false_iff]
    intro h
    simp only [isJsonWhitespace, List.contains_iff_mem, List.mem_cons, List.not_mem_nil, or_false] at h
    rcases h with rfl | rfl | rfl | rfl <;> cases hdelimiter
  have hopen : ¬(b = 123 ∨ b = 91) := by rintro (rfl | rfl) <;> cases hdelimiter
  have hclose : ¬(b = 125 ∨ b = 93) := by rintro (rfl | rfl) <;> cases hdelimiter
  have hseparator : ¬(b = 58 ∨ b = 44) := by rintro (rfl | rfl) <;> cases hdelimiter
  rw [Scans, htail, preflightJsonLoop, if_neg (by rw [hwhite]; exact Bool.false_ne_true), if_neg hopen, if_neg hclose,
    if_neg hquote, if_neg hseparator]
  dsimp only
  rw [htake, hdrop, hstarts]
  split
  · next h =>
    refine iff_of_false Bool.false_ne_true fun ⟨⟨hnodes, hnumber⟩, _⟩ => ?_
    rcases h with h | ⟨hstart, hlong⟩
    · omega
    · exact absurd (hnumber hstart) (Nat.not_le.mpr hlong)
  · next h =>
    obtain ⟨hnodes, hnumber⟩ := not_or.mp h
    exact (and_iff_right ⟨Nat.le_of_not_lt hnodes, fun hstart => Nat.le_of_not_lt fun hlong =>
      hnumber ⟨hstart, hlong⟩⟩).symm

/-- A token before a delimiter, or at the end. -/
theorem scans_token_ends {p : List Char} (hne : p ≠ []) (hp : Py.IsToken p) {rest : List Char}
    (hrest : ∀ c ∈ rest.head?, Py.isDelimiter c = true) : Scans limits depth nodes (p ++ rest) ↔
      (nodes + 1 ≤ limits.maxNodes ∧ (StartsNumber p → (charBytes p).length ≤ maxJsonNumberBytes)) ∧
        Scans limits depth (nodes + 1) rest := by
  have htake : rest.takeWhile (!Py.isDelimiter ·) = [] := by
    cases rest with
    | nil => rfl
    | cons c rest => exact List.takeWhile_cons_of_neg (by rw [hrest c rfl]; exact Bool.false_ne_true)
  have hdrop : rest.dropWhile (!Py.isDelimiter ·) = rest := by
    cases rest with
    | nil => rfl
    | cons c rest => exact List.dropWhile_cons_of_neg (by rw [hrest c rfl]; exact Bool.false_ne_true)
  rw [scans_token hne hp, htake, hdrop, List.append_nil]

/-! ## The reader on what is accepted -/

theorem isBody_of_hexDigit {c : Char} {d : ℕ} (h : Py.hexDigit? c = some d) : c ≠ '"' ∧ c ≠ '\\' := by
  constructor
  · rintro rfl
    cases h
  · rintro rfl
    cases h

/-- A character or an escape that is read is one that may stand between quotes. -/
theorem exists_body_of_readUnit {text rest : List Char} {u : Py.CodePoint} (hquote : text.head? ≠ some '"')
    (h : Py.readUnit text = .ok (u, rest)) : ∃ body, IsBody body ∧ text = body ++ rest := by
  unfold Py.readUnit at h
  split at h
  · cases h
  · next a b c d rest =>
    split at h
    · next n hhex =>
      cases h
      simp only [Py.hex4?, Option.bind_eq_bind, Option.bind_eq_some_iff] at hhex
      obtain ⟨_, ha, _, hb, _, hc, _, hd, -⟩ := hhex
      refine ⟨['\\', 'u', a, b, c, d], .escaped (by decide) ?_, rfl⟩
      exact .plain (isBody_of_hexDigit ha).1 (isBody_of_hexDigit ha).2
        (.plain (isBody_of_hexDigit hb).1 (isBody_of_hexDigit hb).2
          (.plain (isBody_of_hexDigit hc).1 (isBody_of_hexDigit hc).2
            (.plain (isBody_of_hexDigit hd).1 (isBody_of_hexDigit hd).2 .nil)))
    · cases h
  · next c rest _ =>
    split at h
    · next e hsimple =>
      cases h
      refine ⟨['\\', c], .escaped ?_ .nil, rfl⟩
      obtain ⟨before, after, heq, -⟩ := List.lookup_eq_some_iff.mp hsimple
      have hall : ∀ p ∈ ([('"', 34), ('\\', 92), ('/', 47), ('b', 8), ('f', 12), ('n', 10), ('r', 13), ('t', 9)] :
          List (Char × Py.CodePoint)), p.1.toNat < 128 := by decide
      refine hall (c, u) ?_
      rw [heq]
      exact List.mem_append_right before List.mem_cons_self
    · cases h
  · next c rest _ _ =>
    split at h
    · cases h
    · next hplain =>
      cases h
      exact ⟨[c], .plain (fun heq => hquote (congrArg some heq)) (fun heq => hplain (Or.inl heq)) .nil, rfl⟩

theorem exists_body_of_readUnits {n : ℕ} {text rest : List Char} {s : Text} (h : Py.readUnits n text = .ok (s, rest)) :
    ∃ body, IsBody body ∧ text = body ++ '"' :: rest := by
  induction n generalizing text s with
  | zero => cases h
  | succ n ih =>
      by_cases hquote : text.head? = some '"'
      · obtain ⟨tail, rfl⟩ := List.head?_eq_some_iff.mp hquote
        cases h
        exact ⟨[], .nil, rfl⟩
      · have hstep : Py.readUnits (n + 1) text = Py.readUnit text >>= fun first =>
            Py.readUnits n first.2 >>= fun others => pure (first.1 :: others.1, others.2) := by
          rw [Py.readUnits]
          rintro tail rfl
          exact hquote rfl
        rw [hstep] at h
        obtain ⟨⟨u, rest₁⟩, hunit, h⟩ := Imp.except_bind_eq_ok.mp h
        obtain ⟨⟨others, rest₂⟩, hothers, hret⟩ := Imp.except_bind_eq_ok.mp h
        cases hret
        obtain ⟨first, hfirst, rfl⟩ := exists_body_of_readUnit hquote hunit
        obtain ⟨second, hsecond, rfl⟩ := ih hothers
        exact ⟨first ++ second, hfirst.append hsecond, (List.append_assoc _ _ _).symm⟩

/-- After a word or a number that is read the loop goes on, unless the reader cannot. -/
theorem scans_of_readLiteral {text rest : List Char} {s : Literal} (hread : Py.readLiteral text = .ok (s, rest))
    (h : Scans limits depth nodes text) :
    nodes + 1 ≤ limits.maxNodes ∧ (Scans limits depth (nodes + 1) rest ∨ Py.Stuck rest) := by
  obtain ⟨p, hne, hp, rfl⟩ := Py.exists_of_readLiteral hread
  obtain ⟨⟨hnodes, -⟩, hrest⟩ := (scans_token hne hp _).mp h
  refine ⟨hnodes, ?_⟩
  cases rest with
  | nil => exact .inl hrest
  | cons c rest =>
      cases hc : Py.isDelimiter c with
      | false => exact .inr ⟨c, rest, rfl, hc⟩
      | true =>
          rw [List.dropWhile_cons_of_neg (by rw [hc]; exact Bool.false_ne_true)] at hrest
          exact .inl hrest

/-- The scanner is one that the reader can follow. -/
theorem scanner_scans (limits : JsonLimits) : Py.Scanner (Scans limits) limits.maxDepth limits.maxNodes where
  blank hc h := (scans_blank hc _).mp h
  separator hc h := (scans_separator hc _).mp h
  opening hc h := by
    obtain ⟨⟨hdepth, hnodes⟩, hrest⟩ := (scans_opening hc _).mp h
    exact ⟨hdepth, hnodes, hrest⟩
  closing hc h := (scans_closing hc _).mp h
  text hread h := by
    rw [Py.readText, Imp.except_bind_eq_ok] at hread
    obtain ⟨⟨units, rest'⟩, hunits, hret⟩ := hread
    cases hret
    obtain ⟨body, hbody, rfl⟩ := exists_body_of_readUnits hunits
    obtain ⟨⟨-, hnodes⟩, hrest⟩ := (scans_text hbody _).mp h
    exact ⟨hnodes, hrest⟩
  literal := scans_of_readLiteral

/-! ## Written values -/

/-- The bytes of a text between its quotes. -/
def textBytes (s : Text) : List UInt8 := charBytes (s.flatMap fun c => Py.escape c.toChar)

/-- Whether a scalar is within its bound. -/
def LiteralFits (limits : JsonLimits) : Literal → Prop
  | .str s => (textBytes s).length ≤ limits.maxStringBytes
  | .int n => (charBytes (Py.literalText (.int n))).length ≤ maxJsonNumberBytes
  | .float x => (charBytes (Py.literalText (.float x))).length ≤ maxJsonNumberBytes
  | _ => True

/-- Whether the texts, the keys and the numbers of a value are within their bounds. -/
structure SizesFit (limits : JsonLimits) (v : Tree) : Prop where
  scalars : ∀ s ∈ v.scalars, LiteralFits limits s
  keys : ∀ key ∈ v.keys, (textBytes key).length ≤ limits.maxKeyBytes

/-- Whether a value is within all bounds. -/
structure WithinLimits (limits : JsonLimits) (v : Tree) : Prop where
  nested : Json.Nested limits.maxDepth v
  nodes_le : v.nodes ≤ limits.maxNodes
  sizes : SizesFit limits v

theorem isBody_escape (c : Char) : IsBody (Py.escape c) := by
  have hsimple : ∀ d : Char, d.toNat < 128 → IsBody ['\\', d] := fun d hd => .escaped hd .nil
  rw [Py.escape]
  split_ifs with h1 h2 h3 h4 h5 h6 h7 h8
  · exact hsimple _ (by decide)
  · exact hsimple _ (by decide)
  · exact hsimple _ (by decide)
  · exact hsimple _ (by decide)
  · exact hsimple _ (by decide)
  · exact hsimple _ (by decide)
  · exact hsimple _ (by decide)
  · have hdigit : ∀ n < 16, Nat.digitChar n ≠ '"' ∧ Nat.digitChar n ≠ '\\' := by decide
    have hhigh := hdigit (c.toNat / 16) (by omega)
    have hlow := hdigit (c.toNat % 16) (Nat.mod_lt _ (by decide))
    exact .escaped (by decide) (.plain (by decide) (by decide) (.plain (by decide) (by decide)
      (.plain hhigh.1 hhigh.2 (.plain hlow.1 hlow.2 .nil))))
  · exact .plain h1 h2 .nil

theorem isBody_flatMap_escape (s : Text) : IsBody (s.flatMap fun c => Py.escape c.toChar) := by
  induction s with
  | nil => exact .nil
  | cons c s ih => exact (isBody_escape _).append ih

/-- What comes after a value that is no key. -/
def AfterValue (rest : List Char) : Prop := rest = ['\n'] ∨ ∃ c tail, rest = c :: tail ∧ c ∈ [',', ']', '\x7d']

theorem AfterValue.isDelimiter {rest : List Char} (h : AfterValue rest) : ∀ c ∈ rest.head?, Py.isDelimiter c = true := by
  rcases h with rfl | ⟨c, tail, rfl, hc⟩
  · intro d hd
    obtain rfl := Option.some.inj hd
    rfl
  · have hall : ∀ c ∈ [',', ']', '\x7d'], Py.isDelimiter c = true := List.all_eq_true.mp (by decide +kernel)
    intro d hd
    obtain rfl := Option.some.inj hd
    exact hall c hc

theorem AfterValue.jsonStringLimit {rest : List Char} (h : AfterValue rest) :
    jsonStringLimit limits (charBytes rest) = limits.maxStringBytes := by
  rcases h with rfl | ⟨c, tail, rfl, hc⟩
  · rfl
  · simp only [List.mem_cons, List.not_mem_nil, or_false] at hc
    rcases hc with rfl | rfl | rfl <;> rfl

theorem scans_quoteUtf8 (s : Text) (rest : List Char) : Scans limits depth nodes (Py.quoteUtf8 s ++ rest) ↔
    ((textBytes s).length ≤ jsonStringLimit limits (charBytes rest) ∧ nodes + 1 ≤ limits.maxNodes) ∧
      Scans limits depth (nodes + 1) rest := by
  rw [textBytes, ← scans_text (isBody_flatMap_escape s), Py.quoteUtf8]
  simp only [List.cons_append, List.append_assoc, List.nil_append]

theorem startsNumber_of_isDigit {c : Char} (hc : c.isDigit = true) (rest : List Char) : StartsNumber (c :: rest) := by
  have hmem : c ∈ ['0', '1', '2', '3', '4', '5', '6', '7', '8', '9'] := by
    simp only [Char.isDigit, Bool.and_eq_true, decide_eq_true_iff, ge_iff_le, UInt32.le_iff_toNat_le] at hc
    have hcode : ∀ n : Fin 58, 48 ≤ n.val → Char.ofNat n ∈ ['0', '1', '2', '3', '4', '5', '6', '7', '8', '9'] := by decide
    have h := hcode ⟨c.toNat, Nat.lt_succ_of_le hc.2⟩ hc.1
    rwa [Char.ofNat_toNat] at h
  simp only [List.mem_cons, List.not_mem_nil, or_false] at hmem
  rcases hmem with rfl | rfl | rfl | rfl | rfl | rfl | rfl | rfl | rfl | rfl <;> rfl

theorem startsNumber_intText (n : ℤ) : StartsNumber (Py.intText n) := by
  obtain ⟨c, rest, hcons, hdigit⟩ := Py.exists_toDigits_eq_cons n.natAbs
  rw [Py.intText, hcons]
  split
  · rfl
  · exact startsNumber_of_isDigit hdigit rest

theorem startsNumber_floatText {x : Float} (hx : x.isFinite = true) : StartsNumber (Py.floatText x) := by
  obtain ⟨c, rest, hcons, hdigit⟩ := Py.floatText_eq_cons hx
  rw [hcons]
  split
  · rfl
  · exact startsNumber_of_isDigit hdigit rest

/-- A word or a number that is written is one token. -/
theorem isToken_literalTextUtf8 {s : Literal} (hs : s.IsWritten) (htext : s.isText = false) :
    Py.literalTextUtf8 s ≠ [] ∧ Py.IsToken (Py.literalTextUtf8 s) := by
  have hread := @Py.ReadBack.literal _ _ _ _ Py.readBack_utf8Syntax s [] hs htext nofun
  obtain ⟨p, hne, hp, heq⟩ := Py.exists_of_readLiteral hread
  obtain rfl := List.append_cancel_right heq
  exact ⟨hne, hp⟩

theorem scans_literal {s : Literal} (hs : s.IsWritten) {rest : List Char} (hrest : AfterValue rest) :
    Scans limits depth nodes (Py.literalTextUtf8 s ++ rest) ↔
      (LiteralFits limits s ∧ nodes + 1 ≤ limits.maxNodes) ∧ Scans limits depth (nodes + 1) rest := by
  cases hcase : s.isText with
  | true =>
      cases s with
      | str s =>
          rw [show Py.literalTextUtf8 (.str s) = Py.quoteUtf8 s from rfl, scans_quoteUtf8, hrest.jsonStringLimit]
          rfl
      | _ => cases hcase
  | false =>
      obtain ⟨hne, htoken⟩ := isToken_literalTextUtf8 hs hcase
      rw [scans_token_ends hne htoken hrest.isDelimiter]
      refine and_congr_left fun _ => and_comm.trans (and_congr_left fun _ => ?_)
      cases s with
      | str s => cases hcase
      | null => exact iff_of_true (fun h => absurd h Bool.false_ne_true) trivial
      | bool b => cases b <;> exact iff_of_true (fun h => absurd h Bool.false_ne_true) trivial
      | int n => exact forall_prop_of_true (startsNumber_intText n)
      | float x => exact forall_prop_of_true (startsNumber_floatText hs)

/-- Whether the loop accepts a value exactly if it is within the bounds, and goes on after it. -/
def ScansValue (limits : JsonLimits) (v : Tree) : Prop :=
  ∀ {depth nodes : ℕ} {rest : List Char}, AfterValue rest →
    (Scans limits depth nodes (Json.text Py.utf8Syntax v ++ rest) ↔
      (Json.Nested (limits.maxDepth - depth) v ∧ SizesFit limits v ∧ nodes + v.nodes ≤ limits.maxNodes) ∧
        Scans limits depth (nodes + v.nodes) rest)

theorem scansValue_scalar {s : Literal} (hs : s.IsWritten) : ScansValue limits (.scalar s) := by
  intro depth nodes rest hrest
  have hsizes : SizesFit limits (.scalar s) ↔ LiteralFits limits s :=
    ⟨fun h => h.scalars s List.mem_cons_self, fun h => ⟨List.forall_mem_singleton.mpr h, nofun⟩⟩
  rw [Json.nodes, hsizes, and_iff_right (Json.Nested.scalar s)]
  exact scans_literal hs hrest

theorem afterValue_itemsText (items : List Tree) (rest : List Char) :
    AfterValue (Json.itemsText Py.utf8Syntax items ++ rest) := by
  cases items with
  | nil => exact .inr ⟨']', rest, rfl, by decide⟩
  | cons v items => exact .inr ⟨',', _, rfl, by decide⟩

theorem afterValue_entriesText (entries : List (Text × Tree)) (rest : List Char) :
    AfterValue (Json.entriesText Py.utf8Syntax entries ++ rest) := by
  cases entries with
  | nil => exact .inr ⟨'\x7d', rest, rfl, by decide⟩
  | cons e entries => exact .inr ⟨',', _, rfl, by decide⟩

/-- The other items of an array, up to its end. -/
theorem scans_itemsText {items : List Tree} (hitems : ∀ v ∈ items, ScansValue limits v)
    (hnodes : nodes ≤ limits.maxNodes) (rest : List Char) :
    Scans limits (depth + 1) nodes (Json.itemsText Py.utf8Syntax items ++ rest) ↔
      ((∀ v ∈ items, Json.Nested (limits.maxDepth - (depth + 1)) v ∧ SizesFit limits v) ∧
        nodes + Json.itemsNodes items ≤ limits.maxNodes) ∧ Scans limits depth (nodes + Json.itemsNodes items) rest := by
  induction items generalizing nodes with
  | nil =>
      rw [Json.itemsText, List.singleton_append, scans_closing (.inl rfl), Json.itemsNodes, Nat.add_zero]
      exact (and_iff_right ⟨List.forall_mem_nil _, hnodes⟩).symm
  | cons v items ih =>
      obtain ⟨hv, hitems⟩ := List.forall_mem_cons.mp hitems
      rw [Json.itemsText, List.cons_append, List.cons_append, scans_separator (.inl rfl), List.append_assoc,
        hv (afterValue_itemsText items rest), Json.itemsNodes, ← Nat.add_assoc, List.forall_mem_cons]
      constructor
      · rintro ⟨⟨hnested, hsizes, hle⟩, h⟩
        obtain ⟨⟨hall, hle'⟩, hrest⟩ := (ih hitems hle).mp h
        exact ⟨⟨⟨⟨hnested, hsizes⟩, hall⟩, hle'⟩, hrest⟩
      · rintro ⟨⟨⟨⟨hnested, hsizes⟩, hall⟩, hle'⟩, hrest⟩
        have hle : nodes + v.nodes ≤ limits.maxNodes := by omega
        exact ⟨⟨hnested, hsizes, hle⟩, (ih hitems hle).mpr ⟨⟨hall, hle'⟩, hrest⟩⟩

/-- A key and its value. -/
theorem scans_entry {key : Text} {v : Tree} (hv : ScansValue limits v) {rest : List Char} (hrest : AfterValue rest) :
    Scans limits depth nodes (Py.utf8Syntax.key key ++ ':' :: Json.text Py.utf8Syntax v ++ rest) ↔
      ((Json.Nested (limits.maxDepth - depth) v ∧ (textBytes key).length ≤ limits.maxKeyBytes ∧ SizesFit limits v) ∧
        nodes + (1 + v.nodes) ≤ limits.maxNodes) ∧ Scans limits depth (nodes + (1 + v.nodes)) rest := by
  have hkey : ∀ tail, jsonStringLimit limits (charBytes (':' :: tail)) = limits.maxKeyBytes := fun tail => rfl
  rw [List.append_assoc, List.cons_append, show Py.utf8Syntax.key key = Py.quoteUtf8 key from rfl, scans_quoteUtf8, hkey,
    scans_separator (.inr rfl), hv hrest, ← Nat.add_assoc]
  constructor
  · rintro ⟨⟨hlength, -⟩, ⟨hnested, hsizes, hle⟩, h⟩
    exact ⟨⟨⟨hnested, hlength, hsizes⟩, hle⟩, h⟩
  · rintro ⟨⟨⟨hnested, hlength, hsizes⟩, hle⟩, h⟩
    exact ⟨⟨hlength, by omega⟩, ⟨hnested, hsizes, hle⟩, h⟩

/-- The other entries of an object, up to its end. -/
theorem scans_entriesText {entries : List (Text × Tree)} (hentries : ∀ e ∈ entries, ScansValue limits e.2)
    (hnodes : nodes ≤ limits.maxNodes) (rest : List Char) :
    Scans limits (depth + 1) nodes (Json.entriesText Py.utf8Syntax entries ++ rest) ↔
      ((∀ e ∈ entries, Json.Nested (limits.maxDepth - (depth + 1)) e.2 ∧
        (textBytes e.1).length ≤ limits.maxKeyBytes ∧ SizesFit limits e.2) ∧
        nodes + Json.entriesNodes entries ≤ limits.maxNodes) ∧
          Scans limits depth (nodes + Json.entriesNodes entries) rest := by
  induction entries generalizing nodes with
  | nil =>
      rw [Json.entriesText, List.singleton_append, scans_closing (.inr rfl), Json.entriesNodes, Nat.add_zero]
      exact (and_iff_right ⟨List.forall_mem_nil _, hnodes⟩).symm
  | cons e entries ih =>
      obtain ⟨key, v⟩ := e
      obtain ⟨hv, hentries⟩ := List.forall_mem_cons.mp hentries
      have hentry := @scans_entry limits (depth + 1) nodes key v hv _
        (afterValue_entriesText entries rest)
      have htext : Json.entriesText Py.utf8Syntax ((key, v) :: entries) ++ rest =
          ',' :: (Py.utf8Syntax.key key ++ ':' :: Json.text Py.utf8Syntax v ++
            (Json.entriesText Py.utf8Syntax entries ++ rest)) := by
        simp only [Json.entriesText, List.cons_append, List.append_assoc]
      have hnodes : nodes + (1 + v.nodes + Json.entriesNodes entries) =
          nodes + (1 + v.nodes) + Json.entriesNodes entries := (Nat.add_assoc _ _ _).symm
      rw [htext, scans_separator (.inl rfl), hentry, Json.entriesNodes, hnodes, List.forall_mem_cons]
      constructor
      · rintro ⟨⟨hfirst, hle⟩, h⟩
        obtain ⟨⟨hall, hle'⟩, hrest⟩ := (ih hentries hle).mp h
        exact ⟨⟨⟨hfirst, hall⟩, hle'⟩, hrest⟩
      · rintro ⟨⟨⟨hfirst, hall⟩, hle'⟩, hrest⟩
        have hle : nodes + (1 + v.nodes) ≤ limits.maxNodes := by omega
        exact ⟨⟨hfirst, hle⟩, (ih hentries hle).mpr ⟨⟨hall, hle'⟩, hrest⟩⟩

theorem sizesFit_arr {items : List Tree} : SizesFit limits (.arr items) ↔ ∀ v ∈ items, SizesFit limits v := by
  constructor
  · intro h v hv
    exact ⟨fun s hs => h.scalars s (Json.mem_itemsScalars.mpr ⟨v, hv, hs⟩),
      fun key hkey => h.keys key (Json.mem_itemsKeys.mpr ⟨v, hv, hkey⟩)⟩
  · intro h
    refine ⟨fun s hs => ?_, fun key hkey => ?_⟩
    · obtain ⟨v, hv, hs⟩ := Json.mem_itemsScalars.mp hs
      exact (h v hv).scalars s hs
    · obtain ⟨v, hv, hkey⟩ := Json.mem_itemsKeys.mp hkey
      exact (h v hv).keys key hkey

theorem sizesFit_obj {entries : List (Text × Tree)} : SizesFit limits (.obj entries) ↔
    ∀ e ∈ entries, (textBytes e.1).length ≤ limits.maxKeyBytes ∧ SizesFit limits e.2 := by
  constructor
  · intro h e he
    exact ⟨h.keys e.1 (Json.mem_entriesKeys.mpr ⟨e, he, .inl rfl⟩),
      fun s hs => h.scalars s (Json.mem_entriesScalars.mpr ⟨e, he, hs⟩),
      fun key hkey => h.keys key (Json.mem_entriesKeys.mpr ⟨e, he, .inr hkey⟩)⟩
  · intro h
    refine ⟨fun s hs => ?_, fun key hkey => ?_⟩
    · obtain ⟨e, he, hs⟩ := Json.mem_entriesScalars.mp hs
      exact (h e he).2.scalars s hs
    · obtain ⟨e, he, rfl | hkey⟩ := Json.mem_entriesKeys.mp hkey
      · exact (h e he).1
      · exact (h e he).2.keys key hkey

/-- What is nested in a container is nested less deeply. -/
theorem nested_arr_iff {room : ℕ} {items : List Tree} :
    Json.Nested room (.arr items) ↔ 0 < room ∧ ∀ v ∈ items, Json.Nested (room - 1) v := by
  constructor
  · rintro ⟨⟩
    next h => exact ⟨Nat.succ_pos _, h⟩
  · rintro ⟨hpos, h⟩
    obtain ⟨room, rfl⟩ := Nat.exists_eq_succ_of_ne_zero (Nat.pos_iff_ne_zero.mp hpos)
    exact .arr h

theorem nested_obj_iff {room : ℕ} {entries : List (Text × Tree)} :
    Json.Nested room (.obj entries) ↔ 0 < room ∧ ∀ e ∈ entries, Json.Nested (room - 1) e.2 := by
  constructor
  · rintro ⟨⟩
    next h => exact ⟨Nat.succ_pos _, h⟩
  · rintro ⟨hpos, h⟩
    obtain ⟨room, rfl⟩ := Nat.exists_eq_succ_of_ne_zero (Nat.pos_iff_ne_zero.mp hpos)
    exact .obj h

theorem scansValue_arr {items : List Tree} (hitems : ∀ v ∈ items, ScansValue limits v) :
    ScansValue limits (.arr items) := by
  intro depth nodes rest _
  rw [nested_arr_iff, sizesFit_arr, Json.nodes]
  have hroom : limits.maxDepth - depth - 1 = limits.maxDepth - (depth + 1) := by omega
  rw [hroom]
  cases items with
  | nil =>
      rw [Json.text, List.cons_append, scans_opening (.inl rfl), List.singleton_append, scans_closing (.inl rfl)]
      refine and_congr_left fun _ => ?_
      constructor
      · rintro ⟨hdepth, hnodes⟩
        exact ⟨⟨by omega, List.forall_mem_nil _⟩, List.forall_mem_nil _, hnodes⟩
      · rintro ⟨⟨hdepth, -⟩, -, hnodes⟩
        exact ⟨by omega, hnodes⟩
  | cons v items =>
      obtain ⟨hv, hitems⟩ := List.forall_mem_cons.mp hitems
      rw [Json.text, List.cons_append, List.cons_append, scans_opening (.inl rfl), List.append_assoc,
        hv (afterValue_itemsText items rest), List.forall_mem_cons, List.forall_mem_cons, Json.itemsNodes,
        show nodes + (v.nodes + Json.itemsNodes items + 1) = nodes + 1 + v.nodes + Json.itemsNodes items by omega]
      constructor
      · rintro ⟨⟨hdepth, -⟩, ⟨hnested, hsizes, hle⟩, h⟩
        obtain ⟨⟨hall, hle'⟩, hrest⟩ := (scans_itemsText hitems hle rest).mp h
        exact ⟨⟨⟨by omega, hnested, fun w hw => (hall w hw).1⟩, ⟨hsizes, fun w hw => (hall w hw).2⟩, hle'⟩, hrest⟩
      · rintro ⟨⟨⟨hdepth, hnested, hnesteds⟩, ⟨hsizes, hall⟩, hle'⟩, hrest⟩
        have hle : nodes + 1 + v.nodes ≤ limits.maxNodes := by omega
        exact ⟨⟨by omega, by omega⟩, ⟨hnested, hsizes, hle⟩,
          (scans_itemsText hitems hle rest).mpr ⟨⟨fun w hw => ⟨hnesteds w hw, hall w hw⟩, hle'⟩, hrest⟩⟩

theorem scansValue_obj {entries : List (Text × Tree)} (hentries : ∀ e ∈ entries, ScansValue limits e.2) :
    ScansValue limits (.obj entries) := by
  intro depth nodes rest _
  rw [nested_obj_iff, sizesFit_obj, Json.nodes]
  have hroom : limits.maxDepth - depth - 1 = limits.maxDepth - (depth + 1) := by omega
  rw [hroom]
  cases entries with
  | nil =>
      rw [Json.text, List.cons_append, scans_opening (.inr rfl), List.singleton_append, scans_closing (.inr rfl)]
      refine and_congr_left fun _ => ?_
      constructor
      · rintro ⟨hdepth, hnodes⟩
        exact ⟨⟨by omega, List.forall_mem_nil _⟩, List.forall_mem_nil _, hnodes⟩
      · rintro ⟨⟨hdepth, -⟩, -, hnodes⟩
        exact ⟨by omega, hnodes⟩
  | cons e entries =>
      obtain ⟨key, v⟩ := e
      obtain ⟨hv, hentries⟩ := List.forall_mem_cons.mp hentries
      have hentry := @scans_entry limits (depth + 1) (nodes + 1) key v hv _
        (afterValue_entriesText entries rest)
      have htext : Json.text Py.utf8Syntax (.obj ((key, v) :: entries)) ++ rest =
          '\x7b' :: (Py.utf8Syntax.key key ++ ':' :: Json.text Py.utf8Syntax v ++
            (Json.entriesText Py.utf8Syntax entries ++ rest)) := by
        simp only [Json.text, List.cons_append, List.append_assoc]
      rw [htext, scans_opening (.inr rfl), hentry, List.forall_mem_cons, List.forall_mem_cons, Json.entriesNodes,
        show nodes + (1 + v.nodes + Json.entriesNodes entries + 1) =
          nodes + 1 + (1 + v.nodes) + Json.entriesNodes entries by omega]
      constructor
      · rintro ⟨⟨hdepth, -⟩, ⟨⟨hnested, hkey, hsizes⟩, hle⟩, h⟩
        obtain ⟨⟨hall, hle'⟩, hrest⟩ := (scans_entriesText hentries hle rest).mp h
        exact ⟨⟨⟨by omega, hnested, fun e he => (hall e he).1⟩, ⟨⟨hkey, hsizes⟩, fun e he => (hall e he).2⟩, hle'⟩,
          hrest⟩
      · rintro ⟨⟨⟨hdepth, hnested, hnesteds⟩, ⟨⟨hkey, hsizes⟩, hall⟩, hle'⟩, hrest⟩
        have hle : nodes + 1 + (1 + v.nodes) ≤ limits.maxNodes := by omega
        exact ⟨⟨by omega, by omega⟩, ⟨⟨hnested, hkey, hsizes⟩, hle⟩,
          (scans_entriesText hentries hle rest).mpr ⟨⟨fun e he => ⟨hnesteds e he, hall e he⟩, hle'⟩, hrest⟩⟩

/-- A value that can be written is accepted exactly within the bounds. -/
theorem scansValue {v : Tree} (hv : Py.AllValid Literal.IsWritten v) : ScansValue limits v := by
  induction v using Json.induction with
  | scalar s => exact scansValue_scalar (hv.scalars s List.mem_cons_self)
  | arr items ih => exact scansValue_arr fun v hmem => ih v hmem (Py.ReadBack.allValid_of_mem_items hv hmem)
  | obj entries ih => exact scansValue_obj fun e hmem => ih e hmem (Py.ReadBack.allValid_of_mem_entries hv hmem).2

/-- The written text of a value with a newline passes exactly if the value is within the bounds. -/
theorem scans_canonicalText_iff {v : Tree} (hv : Py.AllValid Literal.IsWritten v) :
    Scans limits 0 0 (Json.text Py.utf8Syntax v ++ ['\n']) ↔ WithinLimits limits v := by
  rw [scansValue hv (.inl rfl), scans_blank rfl, Nat.zero_add, scans_nil, and_iff_left rfl, Nat.sub_zero]
  exact ⟨fun ⟨hnested, hsizes, hnodes⟩ => ⟨hnested, hnodes, hsizes⟩, fun h => ⟨h.nested, h.sizes, h.nodes_le⟩⟩

end StateWeaver.Candidate
