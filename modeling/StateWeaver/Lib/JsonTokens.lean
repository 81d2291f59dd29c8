import Mathlib
import StateWeaver.Lib.JsonBudget
import StateWeaver.Lib.JsonUtf8

/-!
# Tokens of JSON

What the reader takes for a word or a number has no delimiter in it, and it reads the same whatever comes after a
delimiter. So a written value with a newline at its end is read back (`loads_canonicalTextUtf8_newline`). A value with
an infinity is written as a text that is not read (`isWritten_of_loads`).
-/

namespace Py

/-! ## Words and numbers have no delimiters -/

/-- Whether a text can stand within one token. -/
def IsToken (text : List Char) : Prop := ∀ c ∈ text, isDelimiter c = false ∧ c ≠ '"'

theorem IsToken.append {text text' : List Char} (h : IsToken text) (h' : IsToken text') : IsToken (text ++ text') :=
  List.forall_mem_append.mpr ⟨h, h'⟩

theorem isToken_of_isDigit {text : List Char} (h : ∀ c ∈ text, c.isDigit = true) : IsToken text := by
  intro c hc
  have hdigit := h c hc
  have hne : ∀ d : Char, d.isDigit = false → c ≠ d := by
    rintro d hd rfl
    rw [hd] at hdigit
    cases hdigit
  refine ⟨?_, hne '"' rfl⟩
  simp [isDelimiter, hne '\x7b' rfl, hne '\x7d' rfl, hne '[' rfl, hne ']' rfl, hne ',' rfl, hne ':' rfl, hne ' ' rfl,
    hne '\t' rfl, hne '\r' rfl, hne '\n' rfl]

theorem isDigit_takeWhile (text : List Char) : ∀ c ∈ text.takeWhile Char.isDigit, c.isDigit = true :=
  fun _ hc => List.mem_takeWhile_imp hc

theorem wholeDigits_isPrefix (text : List Char) : wholeDigits text <+: text := by
  rw [wholeDigits]
  split
  · next h =>
      obtain ⟨rest, rfl⟩ := List.head?_eq_some_iff.mp h
      exact ⟨rest, rfl⟩
  · exact List.takeWhile_prefix _

theorem isDigit_of_mem_wholeDigits {text : List Char} : ∀ c ∈ wholeDigits text, c.isDigit = true := by
  rw [wholeDigits]
  split
  · intro c hc
    rw [List.mem_singleton.mp hc]
    rfl
  · exact isDigit_takeWhile text

theorem fractionDigits_cases (text : List Char) :
    fractionDigits text = [] ∨ ∃ rest, text = '.' :: rest ∧ fractionDigits text = rest.takeWhile Char.isDigit := by
  unfold fractionDigits
  split
  · next rest => exact Or.inr ⟨rest, rfl, rfl⟩
  · exact Or.inl rfl

/-- A point and the digits after it, if there are some. -/
theorem exists_of_fractionDigits (text : List Char) :
    ∃ p, IsToken p ∧ text = p ++ (if fractionDigits text = [] then text
      else text.drop ((fractionDigits text).length + 1)) := by
  split
  · exact ⟨[], List.forall_mem_nil _, rfl⟩
  · next hfraction =>
      obtain ⟨rest, rfl, hdigits⟩ := (fractionDigits_cases text).resolve_left hfraction
      refine ⟨'.' :: rest.takeWhile Char.isDigit, ?_, ?_⟩
      · exact List.forall_mem_cons.mpr ⟨by decide, isToken_of_isDigit (isDigit_takeWhile rest)⟩
      · rw [hdigits, List.drop_succ_cons, List.cons_append,
          List.prefix_iff_eq_append.mp (List.takeWhile_prefix _)]

theorem exists_of_readExponentPart {text digits rest : List Char} {negative : Bool}
    (h : readExponentPart text = some (negative, digits, rest)) : ∃ p, IsToken p ∧ text = p ++ rest := by
  cases text with
  | nil => cases h
  | cons e text =>
      rw [readExponentPart] at h
      obtain ⟨⟨he, -⟩, h⟩ := Option.ite_none_right_eq_some.mp h
      cases h
      have he : IsToken [e] := List.forall_mem_singleton.mpr (by rcases he with rfl | rfl <;> decide)
      have hdigits : ∀ t : List Char, t = t.takeWhile Char.isDigit ++ t.drop (t.takeWhile Char.isDigit).length :=
        fun t => (List.prefix_iff_eq_append.mp (List.takeWhile_prefix _)).symm
      split
      · next hsigned =>
          obtain ⟨sign, tail, rfl, hsign⟩ : ∃ sign tail, text = sign :: tail ∧ (sign = '-' ∨ sign = '+') := by
            rcases hsigned with hsigned | hsigned
            · obtain ⟨tail, rfl⟩ := List.head?_eq_some_iff.mp hsigned
              exact ⟨_, tail, rfl, Or.inl rfl⟩
            · obtain ⟨tail, rfl⟩ := List.head?_eq_some_iff.mp hsigned
              exact ⟨_, tail, rfl, Or.inr rfl⟩
          have hsign : IsToken [sign] := List.forall_mem_singleton.mpr (by rcases hsign with rfl | rfl <;> decide)
          refine ⟨[e] ++ ([sign] ++ tail.takeWhile Char.isDigit),
            he.append (hsign.append (isToken_of_isDigit (isDigit_takeWhile tail))), ?_⟩
          rw [List.drop_one, List.tail_cons, List.append_assoc, List.append_assoc, ← hdigits]
          rfl
      · refine ⟨[e] ++ text.takeWhile Char.isDigit, he.append (isToken_of_isDigit (isDigit_takeWhile text)), ?_⟩
        rw [List.append_assoc, ← hdigits]
        rfl

theorem exists_of_readUnsigned {negative : Bool} {text rest : List Char} {s : Literal}
    (h : readUnsigned negative text = .ok (s, rest)) : ∃ p, p ≠ [] ∧ IsToken p ∧ text = p ++ rest := by
  have hwhole := (List.prefix_iff_eq_append.mp (wholeDigits_isPrefix text)).symm
  have hdigits := isToken_of_isDigit (@isDigit_of_mem_wholeDigits text)
  obtain ⟨p, hp, hfraction⟩ := exists_of_fractionDigits (text.drop (wholeDigits text).length)
  simp only [readUnsigned] at h
  split at h
  · cases h
  · next hne =>
      split at h
      · next hexponent =>
          cases h
          obtain ⟨q, hq, hrest⟩ := exists_of_readExponentPart hexponent
          rw [hrest] at hfraction
          rw [hfraction] at hwhole
          refine ⟨wholeDigits text ++ (p ++ q), List.append_ne_nil_of_left_ne_nil hne _,
            hdigits.append (hp.append hq), ?_⟩
          rw [List.append_assoc, List.append_assoc, ← hwhole]
      · rw [hfraction, ← List.append_assoc] at hwhole
        have hread : ∃ l, Except.ok (l, if fractionDigits (text.drop (wholeDigits text).length) = [] then
            text.drop (wholeDigits text).length else (text.drop (wholeDigits text).length).drop
              ((fractionDigits (text.drop (wholeDigits text).length)).length + 1)) =
                (Except.ok (s, rest) : Except LoadsError _) := by
          split at h
          · next hne => exact ⟨_, by rwa [if_neg hne]⟩
          · split at h
            · cases h
            · exact ⟨_, h⟩
        obtain ⟨l, hread⟩ := hread
        cases hread
        exact ⟨_, List.append_ne_nil_of_left_ne_nil hne _, hdigits.append hp, hwhole⟩

theorem exists_of_readNumber {text rest : List Char} {s : Literal} (h : readNumber text = .ok (s, rest)) :
    ∃ p, p ≠ [] ∧ IsToken p ∧ text = p ++ rest := by
  unfold readNumber at h
  split at h
  · obtain ⟨p, -, hp, rfl⟩ := exists_of_readUnsigned h
    exact ⟨'-' :: p, List.cons_ne_nil _ _, List.forall_mem_cons.mpr ⟨by decide, hp⟩, rfl⟩
  · exact exists_of_readUnsigned h

/-- A word or a number is a token with something in it. -/
theorem exists_of_readLiteral {text rest : List Char} {s : Literal} (h : readLiteral text = .ok (s, rest)) :
    ∃ p, p ≠ [] ∧ IsToken p ∧ text = p ++ rest := by
  rw [readLiteral] at h
  split at h
  · next word value hfind =>
      obtain ⟨v, -, h⟩ := Imp.except_bind_eq_ok.mp h
      cases h
      have hmem := List.mem_of_find?_eq_some hfind
      have hprefix : word <+: text := List.isPrefixOf_iff_prefix.mp (List.find?_some hfind :)
      have hword : ∀ w ∈ words, w.1 ≠ [] ∧ w.1.all (fun c => !isDelimiter c && c != '"') = true := by decide
      obtain ⟨hne, hall⟩ := hword _ hmem
      refine ⟨word, hne, fun c hc => ?_, (List.prefix_iff_eq_append.mp hprefix).symm⟩
      have hc := List.all_eq_true.mp hall c hc
      simpa using hc
  · exact exists_of_readNumber h

/-! ## What is read has few digits -/

theorem ofDigitChars_lt {l : List Char} (h : ∀ c ∈ l, c.isDigit = true) (init : ℕ) :
    Nat.ofDigitChars 10 l init < 10 ^ l.length * (init + 1) := by
  induction l generalizing init with
  | nil =>
      rw [Nat.ofDigitChars_nil, List.length_nil]
      omega
  | cons c l ih =>
      obtain ⟨hc, hl⟩ := List.forall_mem_cons.mp h
      have hdigit : c.toNat - '0'.toNat ≤ 9 := by
        simp only [Char.isDigit, Bool.and_eq_true, decide_eq_true_eq, ge_iff_le, UInt32.le_iff_toNat_le] at hc
        have hnine : c.val.toNat ≤ 57 := hc.2
        change c.val.toNat - 48 ≤ 9
        omega
      rw [Nat.ofDigitChars_cons, List.length_cons, pow_succ, mul_assoc]
      refine lt_of_lt_of_le (ih hl _) (Nat.mul_le_mul_left _ ?_)
      omega

theorem length_toDigits_digitsValue_le {l : List Char} (h : ∀ c ∈ l, c.isDigit = true) (hne : l ≠ []) :
    (Nat.toDigits 10 (digitsValue l)).length ≤ l.length := by
  rw [Nat.length_toDigits_le_iff (by decide) (List.length_pos_iff.mpr hne)]
  have hlt := ofDigitChars_lt h 0
  rwa [Nat.zero_add, mul_one] at hlt

/-- Whether an integer has few enough digits to be converted. -/
def Literal.IsShort (s : Literal) : Prop := ∀ n, s = .int n → (Nat.toDigits 10 n.natAbs).length ≤ 4300

theorem isShort_of_readUnsigned {negative : Bool} {text rest : List Char} {s : Literal}
    (h : readUnsigned negative text = .ok (s, rest)) : s.IsShort := by
  simp only [readUnsigned] at h
  split at h
  · cases h
  · next hne =>
      split at h
      · cases h
        intro n hn
        cases hn
      · split at h
        · cases h
          intro n hn
          cases hn
        · split at h
          · cases h
          · next hlength =>
              cases h
              intro n hn
              have habs : n.natAbs = digitsValue (wholeDigits text) := by
                rw [← Literal.int.inj hn]
                split <;> omega
              rw [habs]
              exact le_trans (length_toDigits_digitsValue_le isDigit_of_mem_wholeDigits hne)
                (Nat.le_of_not_lt hlength)

theorem isShort_of_readLiteral {text rest : List Char} {s : Literal} (h : readLiteral text = .ok (s, rest)) :
    s.IsShort := by
  rw [readLiteral] at h
  split at h
  · next word value hfind =>
      obtain ⟨v, hvalue, h⟩ := Imp.except_bind_eq_ok.mp h
      cases h
      have hwords : ∀ w ∈ words, ∀ n, w.2 ≠ .ok (.int n) := by
        simp only [words, List.forall_mem_cons]
        refine ⟨?_, ?_, ?_, ?_, ?_, ?_, List.forall_mem_nil _⟩
        all_goals
          intro n hn
          cases hn
      rintro n rfl
      exact absurd hvalue (hwords _ (List.mem_of_find?_eq_some hfind) n)
  · unfold readNumber at h
    split at h
    · exact isShort_of_readUnsigned h
    · exact isShort_of_readUnsigned h

/-- Whether every integer of a value has few enough digits. -/
def AllShort (v : Tree) : Prop := ∀ s ∈ v.scalars, s.IsShort

theorem allShort_scalar {s : Literal} (h : s.IsShort) : AllShort (.scalar s) := List.forall_mem_singleton.mpr h

theorem allShort_arr {items : List Tree} (h : ∀ v ∈ items, AllShort v) : AllShort (.arr items) := by
  intro s hs
  obtain ⟨v, hv, hs⟩ := Json.mem_itemsScalars.mp hs
  exact h v hv s hs

theorem allShort_obj {entries : List (Text × Tree)} (h : ∀ e ∈ entries, AllShort e.2) : AllShort (.obj entries) := by
  intro s hs
  obtain ⟨e, he, hs⟩ := Json.mem_entriesScalars.mp hs
  exact h e he s hs

section Read

variable {n : ℕ}
  (hvalue : ∀ {text v rest}, readValue n text = .ok (v, rest) → AllShort v)
  (hitems : ∀ {text l rest}, readItems n text = .ok (l, rest) → ∀ v ∈ l, AllShort v)
  (hentries : ∀ {text l rest}, readEntries n text = .ok (l, rest) → ∀ e ∈ l, AllShort e.2)

include hvalue hitems in
theorem allShort_of_readItems {text rest : List Char} {l : List Tree} (h : readItems (n + 1) text = .ok (l, rest)) :
    ∀ v ∈ l, AllShort v := by
  rw [readItems, Imp.except_bind_eq_ok] at h
  obtain ⟨⟨v, rest₁⟩, hv, h⟩ := h
  have hshort := hvalue hv
  dsimp only at h
  split at h
  · cases h
    exact List.forall_mem_singleton.mpr hshort
  · obtain ⟨⟨items, rest₂⟩, hrest, h⟩ := Imp.except_bind_eq_ok.mp h
    cases h
    exact List.forall_mem_cons.mpr ⟨hshort, hitems hrest⟩
  · cases h

include hvalue hentries in
theorem allShort_of_readEntries {text rest : List Char} {l : List (Text × Tree)}
    (h : readEntries (n + 1) text = .ok (l, rest)) : ∀ e ∈ l, AllShort e.2 := by
  unfold readEntries at h
  split at h
  · next hn =>
      cases hn
      obtain ⟨⟨key, rest₁⟩, -, h⟩ := Imp.except_bind_eq_ok.mp h
      dsimp only at h
      split at h
      · obtain ⟨⟨v, rest₂⟩, hv, h⟩ := Imp.except_bind_eq_ok.mp h
        have hshort := hvalue hv
        dsimp only at h
        split at h
        · cases h
          exact List.forall_mem_singleton.mpr hshort
        · obtain ⟨⟨entries, rest₃⟩, hrest, h⟩ := Imp.except_bind_eq_ok.mp h
          cases h
          exact List.forall_mem_cons.mpr ⟨hshort, hentries hrest⟩
        · cases h
      · cases h
  · cases h

include hitems hentries in
theorem allShort_of_readValue {text rest : List Char} {v : Tree} (h : readValue (n + 1) text = .ok (v, rest)) :
    AllShort v := by
  unfold readValue at h
  split at h
  · cases h
  · obtain ⟨_, -, h⟩ := Imp.except_bind_eq_ok.mp h
    cases h
    exact allShort_scalar nofun
  · next hn =>
      cases hn
      split at h
      · cases h
        exact allShort_obj (List.forall_mem_nil _)
      · obtain ⟨⟨entries, rest₁⟩, hread, h⟩ := Imp.except_bind_eq_ok.mp h
        obtain ⟨w, hw, h⟩ := Imp.except_bind_eq_ok.mp h
        cases h
        rw [uniqueObject, Imp.check_bind_eq_ok] at hw
        cases hw.2
        exact allShort_obj (hentries hread)
  · next hn =>
      cases hn
      split at h
      · cases h
        exact allShort_arr (List.forall_mem_nil _)
      · obtain ⟨⟨items, rest₁⟩, hread, h⟩ := Imp.except_bind_eq_ok.mp h
        cases h
        exact allShort_arr (hitems hread)
  · obtain ⟨⟨s, rest₁⟩, hs, h⟩ := Imp.except_bind_eq_ok.mp h
    cases h
    exact allShort_scalar (isShort_of_readLiteral hs)

end Read

theorem allShort_of_read (n : ℕ) :
    (∀ {text v rest}, readValue n text = .ok (v, rest) → AllShort v) ∧
    (∀ {text l rest}, readItems n text = .ok (l, rest) → ∀ v ∈ l, AllShort v) ∧
    ∀ {text l rest}, readEntries n text = .ok (l, rest) → ∀ e ∈ l, AllShort e.2 := by
  induction n with
  | zero =>
      refine ⟨fun h => ?_, fun h => ?_, fun h => ?_⟩
      · cases h
      · cases h
      · unfold readEntries at h
        cases h
  | succ n ih =>
      obtain ⟨hvalue, hitems, hentries⟩ := ih
      exact ⟨allShort_of_readValue hitems hentries, allShort_of_readItems hvalue hitems,
        allShort_of_readEntries hvalue hentries⟩

/-- The integers that are read can be written again. -/
theorem allShort_of_loads {text : List Char} {v : Tree} (h : loads text = .ok v) : AllShort v := by
  rw [loads, Imp.except_bind_eq_ok] at h
  obtain ⟨⟨u, rest⟩, hu, h⟩ := h
  cases (Imp.check_bind_eq_ok.mp h).2
  exact (allShort_of_read _).1 hu

/-! ## A delimiter ends a number -/

section Frame

variable {c : Char} (hc : isDelimiter c = true) (tail : List Char)

include hc

theorem ne_of_isDelimiter {d : Char} (hd : isDelimiter d = false) : c ≠ d := by
  rintro rfl
  rw [hd] at hc
  cases hc

theorem not_isDigit_of_isDelimiter : ¬ c.isDigit = true := by
  intro hdigit
  have htoken := @isToken_of_isDigit [c] (List.forall_mem_singleton.mpr hdigit) c (List.mem_singleton_self c)
  rw [htoken.1] at hc
  cases hc

theorem takeWhile_isDigit_frame (l : List Char) :
    (l ++ c :: tail).takeWhile Char.isDigit = l.takeWhile Char.isDigit := by
  induction l with
  | nil => exact List.takeWhile_cons_of_neg (not_isDigit_of_isDelimiter hc)
  | cons d l ih => rw [List.cons_append, List.takeWhile_cons, List.takeWhile_cons, ih]

theorem wholeDigits_frame (l : List Char) : wholeDigits (l ++ c :: tail) = wholeDigits l := by
  rw [wholeDigits, wholeDigits, takeWhile_isDigit_frame hc]
  cases l with
  | nil =>
      have hne : c ≠ '0' := ne_of_isDelimiter hc rfl
      rw [List.nil_append, List.head?_cons, if_neg fun h => hne (Option.some.inj h), if_neg fun h => Option.some_ne_none _ h.symm]
  | cons d l => rfl

theorem fractionDigits_frame (l : List Char) : fractionDigits (l ++ c :: tail) = fractionDigits l := by
  cases l with
  | nil =>
      have hne : c ≠ '.' := ne_of_isDelimiter hc rfl
      rw [List.nil_append, fractionDigits, fractionDigits]
      · intro _ heq
        cases heq
      · exact fun _ heq => hne (List.cons.inj heq).1
  | cons d l =>
      by_cases hd : d = '.'
      · subst hd
        exact takeWhile_isDigit_frame hc tail l
      · rw [List.cons_append, fractionDigits, fractionDigits] <;> exact fun _ heq => hd (List.cons.inj heq).1

theorem readExponentPart_frame (l : List Char) : readExponentPart (l ++ c :: tail) =
    (readExponentPart l).map fun e => (e.1, e.2.1, e.2.2 ++ c :: tail) := by
  cases l with
  | nil =>
      have he : ¬ (c = 'e' ∨ c = 'E') := not_or.mpr ⟨ne_of_isDelimiter hc rfl, ne_of_isDelimiter hc rfl⟩
      rw [List.nil_append, readExponentPart, readExponentPart]
      exact if_neg fun h => he h.1
  | cons e l =>
      cases l with
      | nil =>
          have hsign : ¬ (c = '-' ∨ c = '+') := not_or.mpr ⟨ne_of_isDelimiter hc rfl, ne_of_isDelimiter hc rfl⟩
          simp [readExponentPart, hsign, List.takeWhile_cons_of_neg (not_isDigit_of_isDelimiter hc)]
      | cons d l =>
          have hdrop : ∀ t : List Char, (t ++ c :: tail).drop (t.takeWhile Char.isDigit).length =
              t.drop (t.takeWhile Char.isDigit).length ++ c :: tail := fun t =>
            List.drop_append_of_le_length (List.takeWhile_prefix _).length_le
          simp only [List.cons_append, readExponentPart, List.head?_cons, List.drop_one, List.tail_cons]
          by_cases hsigned : some d = some '-' ∨ some d = some '+'
          · simp only [if_pos hsigned, takeWhile_isDigit_frame hc, hdrop]
            split <;> rfl
          · have hframe := takeWhile_isDigit_frame hc tail (d :: l)
            have hdrop := hdrop (d :: l)
            rw [List.cons_append] at hframe hdrop
            simp only [if_neg hsigned, hframe, hdrop]
            split <;> rfl

theorem readUnsigned_frame (negative : Bool) (l : List Char) : readUnsigned negative (l ++ c :: tail) =
    (readUnsigned negative l).map fun p => (p.1, p.2 ++ c :: tail) := by
  have hdrop : (l ++ c :: tail).drop (wholeDigits l).length = l.drop (wholeDigits l).length ++ c :: tail :=
    List.drop_append_of_le_length (wholeDigits_isPrefix l).length_le
  generalize hrest : l.drop (wholeDigits l).length = rest at hdrop
  have hfraction : (if fractionDigits rest = [] then rest ++ c :: tail
      else (rest ++ c :: tail).drop ((fractionDigits rest).length + 1)) =
      (if fractionDigits rest = [] then rest else rest.drop ((fractionDigits rest).length + 1)) ++ c :: tail := by
    split
    · rfl
    · next hne =>
        obtain ⟨after, rfl, hdigits⟩ := (fractionDigits_cases rest).resolve_left hne
        rw [hdigits]
        exact List.drop_append_of_le_length (Nat.succ_le_succ (List.takeWhile_prefix _).length_le)
  simp only [readUnsigned, wholeDigits_frame hc, hdrop, hrest, fractionDigits_frame hc, hfraction,
    readExponentPart_frame hc]
  split
  · rfl
  · cases readExponentPart _ with
    | some e => rfl
    | none =>
        dsimp only [Option.map_none]
        split
        · rfl
        · split <;> rfl

theorem readNumber_frame (l : List Char) : readNumber (l ++ c :: tail) =
    (readNumber l).map fun p => (p.1, p.2 ++ c :: tail) := by
  cases l with
  | nil =>
      have hne : c ≠ '-' := ne_of_isDelimiter hc rfl
      rw [List.nil_append, readNumber, readNumber]
      · exact readUnsigned_frame hc tail false []
      · intro _ heq
        cases heq
      · exact fun _ heq => hne (List.cons.inj heq).1
  | cons d l =>
      by_cases hd : d = '-'
      · subst hd
        exact readUnsigned_frame hc tail true l
      · rw [List.cons_append, readNumber, readNumber, ← List.cons_append, readUnsigned_frame hc]
        · exact fun _ heq => hd (List.cons.inj heq).1
        · exact fun _ heq => hd (List.cons.inj heq).1

theorem isPrefixOf_frame {word : List Char} (hword : IsToken word) (l : List Char) :
    word.isPrefixOf (l ++ c :: tail) = word.isPrefixOf l := by
  induction word generalizing l with
  | nil => rw [List.isPrefixOf_nil_left, List.isPrefixOf_nil_left]
  | cons w word ih =>
      obtain ⟨⟨hw, -⟩, hrest⟩ := List.forall_mem_cons.mp hword
      cases l with
      | nil =>
          have hne : (w == c) = false := beq_eq_false_iff_ne.mpr (ne_of_isDelimiter hc hw).symm
          rw [List.nil_append, List.isPrefixOf_cons_cons, hne, Bool.false_and]
          rfl
      | cons d l => rw [List.cons_append, List.isPrefixOf_cons_cons, List.isPrefixOf_cons_cons, ih hrest]

/-- A word or a number reads the same before a delimiter. -/
theorem readLiteral_frame (l : List Char) : readLiteral (l ++ c :: tail) =
    (readLiteral l).map fun p => (p.1, p.2 ++ c :: tail) := by
  have htoken : ∀ w ∈ words, w.1.all (fun c => !isDelimiter c && c != '"') = true := by decide
  have hfind : (words.find? fun w => w.1.isPrefixOf (l ++ c :: tail)) = words.find? fun w => w.1.isPrefixOf l := by
    refine List.find?_congr fun w hw => isPrefixOf_frame hc tail (fun c hc => ?_) l
    have hall := List.all_eq_true.mp (htoken w hw) c hc
    simpa using hall
  rw [readLiteral, readLiteral, hfind]
  split
  · next word value hsome =>
      have hprefix : word <+: l := List.isPrefixOf_iff_prefix.mp (List.find?_some hsome :)
      rw [List.drop_append_of_le_length hprefix.length_le]
      cases value with
      | error e => rfl
      | ok v => rfl
  · exact readNumber_frame hc tail l

end Frame

/-! ## Values before a newline -/

section ReadBack

variable {x : Json.Syntax Literal Text} {valid : Literal → Prop} {f : Literal → Literal} {g : Text → Text}

/-- A written value is read back before a delimiter. -/
theorem ReadBack.readValue_text_cons (hx : ReadBack x valid f g) {v : Tree} (hv : AllValid valid v) {c : Char}
    (hc : isDelimiter c = true) (tail : List Char) {n : ℕ} (hn : (Json.text x v).length ≤ n) :
    readValue n (Json.text x v ++ c :: tail) = (do return (← checked (v.map f g), c :: tail)) := by
  by_cases h : ∃ s, v = .scalar s ∧ s.isText = false
  · obtain ⟨s, rfl, htext⟩ := h
    have hs := hv.scalars s List.mem_cons_self
    obtain ⟨d, t, hcons, hd⟩ := hx.start hs htext
    have hread := @ReadBack.literal _ _ _ _ hx _ [] hs htext nofun
    have hframe := readLiteral_frame hc tail (x.scalar s)
    rw [List.append_nil] at hread
    rw [hread] at hframe
    rw [Json.text, hcons, List.length_cons] at hn
    obtain ⟨n, rfl⟩ : ∃ m, n = m + 1 := ⟨n - 1, by omega⟩
    rw [hcons, List.cons_append] at hframe
    rw [Json.text, hcons, List.cons_append, readValue_cons_of_ne, hframe]
    · rfl
    · simp only [List.mem_cons, List.not_mem_nil, or_false, not_or] at hd ⊢
      tauto
  · refine hx.readsBefore hv (fun s hs => ?_) hn
    by_contra htext
    exact h ⟨s, hs, Bool.not_eq_true _ ▸ htext⟩

/-- `json.loads` of a written value and a newline. -/
theorem ReadBack.loads_text_newline (hx : ReadBack x valid f g) {v : Tree} (hv : AllValid valid v) :
    loads (Json.text x v ++ ['\n']) = checked (v.map f g) := by
  have hn : (Json.text x v).length ≤ (Json.text x v ++ ['\n']).length + 1 := by
    rw [List.length_append]
    omega
  rw [loads, hx.skipBlanks_text hv, hx.readValue_text_cons hv rfl [] hn]
  cases checked (v.map f g) with
  | error e => rfl
  | ok u => rfl

end ReadBack

/-- What was written with a newline at its end is read back with its entries in order. -/
theorem loads_canonicalTextUtf8_newline {v : Tree} (hv : AllValid Literal.IsWritten v) (hdistinct : v.Distinct) :
    loads (canonicalTextUtf8 v ++ ['\n']) = .ok v.sort := by
  rw [canonicalTextUtf8, readBack_utf8Syntax.loads_text_newline (allValid_sort hv), checked_eq_ok]
  have hmap : Json.map id id v.sort = v.sort := Json.map_eq_self _ (fun _ _ => rfl) fun _ _ => rfl
  rw [hmap]
  exact ⟨rfl, (Json.distinct_sort_iff v).mpr hdistinct⟩

/-! ## Infinities are not read -/

/-- Whether a scalar has bytes if an infinity may be written as a word. -/
def Literal.IsPrinted : Literal → Prop
  | .float _ => True
  | s => s.IsWritten

theorem isWritten_of_isFinite {v : Tree} (hv : AllValid Literal.IsPrinted v)
    (h : ∀ x, Literal.float x ∈ v.scalars → x.isFinite = true) : AllValid Literal.IsWritten v := by
  refine ⟨fun s hs => ?_, hv.keys⟩
  cases s with
  | float x => exact h x hs
  | _ => exact hv.scalars _ hs

/-- How a float is written that is no number. -/
theorem floatText_of_not_isFinite {x : Float} (hx : x.isFinite = false) :
    floatText x = "NaN".toList ∨ floatText x = "Infinity".toList ∨ floatText x = "-Infinity".toList := by
  rw [Float.isFinite, Float.Model.isFinite] at hx
  rw [floatText]
  cases hunpack : x.toModel.unpack with
  | notANumber => exact Or.inl rfl
  | infinity sign =>
      cases sign with
      | positive => exact Or.inr (Or.inl rfl)
      | negative => exact Or.inr (Or.inr rfl)
  | zero sign =>
      rw [hunpack] at hx
      cases hx
  | finite sign mantissa exponent hpos =>
      rw [hunpack] at hx
      cases hx

/-- Every scalar that is no text starts like a word or a number. -/
theorem exists_literalText_of_isPrinted {s : Literal} (hs : s.IsPrinted) (htext : s.isText = false) :
    ∃ c rest, literalTextUtf8 s = c :: rest ∧ c ∉ ['"', '{', '[', ']', '}', ' ', '\t', '\n', '\r'] := by
  cases s with
  | float x =>
      cases hx : x.isFinite with
      | true => exact readBack_utf8Syntax.start (s := .float x) hx rfl
      | false =>
          change ∃ c rest, floatText x = c :: rest ∧ _
          rcases floatText_of_not_isFinite hx with h | h | h
          · exact ⟨'N', _, h, by decide⟩
          · exact ⟨'I', _, h, by decide⟩
          · exact ⟨'-', _, h, by decide⟩
  | str s => cases htext
  | null => exact readBack_utf8Syntax.start (s := .null) hs rfl
  | bool b => exact readBack_utf8Syntax.start (s := .bool b) hs rfl
  | int n => exact readBack_utf8Syntax.start (s := .int n) hs rfl

theorem readLiteral_of_not_isFinite {x : Float} (hx : x.isFinite = false) (rest : List Char) :
    ∃ e, readLiteral (floatText x ++ rest) = .error e := by
  rcases floatText_of_not_isFinite hx with h | h | h
  · rw [h]
    exact ⟨_, rfl⟩
  · rw [h]
    exact ⟨_, rfl⟩
  · rw [h]
    exact ⟨_, rfl⟩

/-- Whether a value that is read has only finite floats. -/
def FiniteIfRead (v : Tree) : Prop :=
  ∀ {n : ℕ} {rest : List Char} {p : Tree × List Char}, (Json.text utf8Syntax v).length ≤ n →
    readValue n (Json.text utf8Syntax v ++ rest) = .ok p → AllValid Literal.IsWritten v

theorem finiteIfRead_scalar {s : Literal} (hs : s.IsPrinted) : FiniteIfRead (.scalar s) := by
  intro n rest p hn h
  have hwritten : s.IsWritten := by
    cases s with
    | float x =>
        by_contra hx
        obtain ⟨c, t, hcons, hc⟩ := exists_literalText_of_isPrinted hs rfl
        obtain ⟨e, hread⟩ := readLiteral_of_not_isFinite (Bool.not_eq_true _ ▸ hx) rest
        change floatText x = c :: t at hcons
        have htext : Json.text utf8Syntax (.scalar (.float x)) = floatText x := by rw [Json.text]; rfl
        rw [htext] at h hn
        rw [hcons] at h hn hread
        obtain ⟨n, rfl⟩ : ∃ m, n = m + 1 := ⟨n - 1, by
          rw [List.length_cons] at hn
          omega⟩
        rw [List.cons_append] at h hread
        rw [readValue_cons_of_ne, hread] at h
        · cases h
        · simp only [List.mem_cons, List.not_mem_nil, or_false, not_or] at hc ⊢
          tauto
    | _ => exact hs
  refine ⟨fun t ht => ?_, fun _ hkey => absurd hkey List.not_mem_nil⟩
  rw [Json.scalars, List.mem_singleton] at ht
  exact ht ▸ hwritten

theorem exists_text_of_isPrinted {v : Tree} (hv : AllValid Literal.IsPrinted v) :
    ∃ c rest, Json.text utf8Syntax v = c :: rest ∧ c ∉ [']', '}', ' ', '\t', '\n', '\r'] := by
  cases v with
  | scalar s =>
      rw [Json.text]
      cases htext : s.isText with
      | true =>
          cases s with
          | str s => exact ⟨'"', _, rfl, by decide⟩
          | _ => cases htext
      | false =>
          obtain ⟨c, rest, hcons, hc⟩ := exists_literalText_of_isPrinted (hv.scalars s List.mem_cons_self) htext
          refine ⟨c, rest, hcons, fun hmem => hc ?_⟩
          simp only [List.mem_cons, List.not_mem_nil, or_false] at hmem ⊢
          tauto
  | arr items =>
      obtain ⟨rest, hcons⟩ := Json.exists_text_arr (x := utf8Syntax) items
      exact ⟨'[', rest, hcons, by decide⟩
  | obj entries =>
      obtain ⟨rest, hcons⟩ := Json.exists_text_obj (x := utf8Syntax) entries
      exact ⟨'\x7b', rest, hcons, by decide⟩

theorem skipBlanks_text_of_isPrinted {v : Tree} (hv : AllValid Literal.IsPrinted v) (rest : List Char) :
    skipBlanks (Json.text utf8Syntax v ++ rest) = Json.text utf8Syntax v ++ rest := by
  obtain ⟨c, t, hcons, hc⟩ := exists_text_of_isPrinted hv
  rw [hcons, List.cons_append, skipBlanks_cons]
  simp only [List.mem_cons, List.not_mem_nil, or_false, not_or] at hc ⊢
  tauto

/-- A value with finite floats only is read up to where it ends. -/
theorem rest_of_readValue {v u : Tree} {n : ℕ} {rest rest' : List Char} (hv : AllValid Literal.IsWritten v)
    (hrest : Json.Ends rest) (hn : (Json.text utf8Syntax v).length ≤ n)
    (h : readValue n (Json.text utf8Syntax v ++ rest) = .ok (u, rest')) : rest' = rest := by
  rw [readBack_utf8Syntax.readValue_text v hv hrest hn] at h
  obtain ⟨_, -, h⟩ := Imp.except_bind_eq_ok.mp h
  cases h
  rfl

theorem isWritten_of_readItems {items : List Tree} :
    ∀ {v : Tree} {n : ℕ} {r : List Char} {p : List Tree × List Char},
      (∀ w ∈ v :: items, AllValid Literal.IsPrinted w ∧ FiniteIfRead w) →
        (Json.text utf8Syntax v ++ Json.itemsText utf8Syntax items).length ≤ n →
          readItems n (Json.text utf8Syntax v ++ (Json.itemsText utf8Syntax items ++ r)) = .ok p →
            ∀ w ∈ v :: items, AllValid Literal.IsWritten w := by
  induction items with
  | nil =>
      intro v n r p hall hn h
      rw [List.length_append, Json.itemsText, List.length_singleton] at hn
      obtain ⟨n, rfl⟩ : ∃ m, n = m + 1 := ⟨n - 1, by omega⟩
      rw [readItems] at h
      obtain ⟨_, hread, -⟩ := Imp.except_bind_eq_ok.mp h
      exact List.forall_mem_singleton.mpr ((hall v List.mem_cons_self).2 (by omega) hread)
  | cons w items ih =>
      intro v n r p hall hn h
      obtain ⟨⟨-, hfinite⟩, hitems⟩ := List.forall_mem_cons.mp hall
      have htext : Json.itemsText utf8Syntax (w :: items) =
          ',' :: (Json.text utf8Syntax w ++ Json.itemsText utf8Syntax items) := rfl
      obtain ⟨c, t, hcons, -⟩ := exists_text_of_isPrinted (hall v List.mem_cons_self).1
      have hpos : 0 < (Json.text utf8Syntax v).length := hcons ▸ Nat.succ_pos _
      rw [List.length_append, htext, List.length_cons] at hn
      obtain ⟨n, rfl⟩ : ∃ m, n = m + 1 := ⟨n - 1, by omega⟩
      rw [readItems] at h
      obtain ⟨⟨u, rest⟩, hread, h⟩ := Imp.except_bind_eq_ok.mp h
      have hv := hfinite (by omega) hread
      have hrest := rest_of_readValue hv (Json.ends_itemsText _ _) (by omega) hread
      rw [htext, List.cons_append, List.append_assoc] at hrest
      subst hrest
      change (readItems n (skipBlanks (Json.text utf8Syntax w ++ _)) >>= _) = _ at h
      rw [skipBlanks_text_of_isPrinted (hitems w List.mem_cons_self).1] at h
      obtain ⟨q, hnext, -⟩ := Imp.except_bind_eq_ok.mp h
      exact List.forall_mem_cons.mpr ⟨hv, ih hitems (by omega) hnext⟩

theorem isWritten_of_readEntries {entries : List (Text × Tree)} :
    ∀ {key : Text} {v : Tree} {n : ℕ} {r : List Char} {p : List (Text × Tree) × List Char},
      (∀ e ∈ (key, v) :: entries, (∀ c ∈ e.1, isSurrogate c = false) ∧ AllValid Literal.IsPrinted e.2 ∧
        FiniteIfRead e.2) →
        (quoteUtf8 key ++ ':' :: (Json.text utf8Syntax v ++ Json.entriesText utf8Syntax entries)).length ≤ n →
          readEntries n (quoteUtf8 key ++ ':' ::
            (Json.text utf8Syntax v ++ (Json.entriesText utf8Syntax entries ++ r))) = .ok p →
              ∀ e ∈ (key, v) :: entries, AllValid Literal.IsWritten e.2 := by
  induction entries with
  | nil =>
      intro key v n r p hall hn h
      obtain ⟨hkey, hprinted, hfinite⟩ : (∀ c ∈ key, isSurrogate c = false) ∧ AllValid Literal.IsPrinted v ∧
        FiniteIfRead v := hall _ List.mem_cons_self
      rw [List.length_append, List.length_cons, List.length_append] at hn
      obtain ⟨n, rfl⟩ : ∃ m, n = m + 1 := ⟨n - 1, by omega⟩
      have hreadKey := fun rest => readText_quoteUtf8 hkey rest (n := n) (by omega)
      rw [quoteUtf8, List.cons_append, List.tail_cons] at hreadKey
      rw [quoteUtf8, List.cons_append, List.cons_append, readEntries, hreadKey] at h
      change (readValue n (skipBlanks (Json.text utf8Syntax v ++ _)) >>= _) = _ at h
      rw [skipBlanks_text_of_isPrinted hprinted] at h
      obtain ⟨_, hread, -⟩ := Imp.except_bind_eq_ok.mp h
      exact List.forall_mem_singleton.mpr (hfinite (by omega) hread)
  | cons e entries ih =>
      intro key v n r p hall hn h
      obtain ⟨hfirst, hentries⟩ := List.forall_mem_cons.mp hall
      obtain ⟨hkey, hprinted, hfinite⟩ : (∀ c ∈ key, isSurrogate c = false) ∧ AllValid Literal.IsPrinted v ∧
        FiniteIfRead v := hfirst
      rw [List.length_append, List.length_cons, List.length_append, ReadBack.entriesText_cons,
        List.length_cons] at hn
      change _ + (_ + ((quoteUtf8 e.1 ++ _).length + 1) + 1) ≤ n at hn
      obtain ⟨n, rfl⟩ : ∃ m, n = m + 1 := ⟨n - 1, by omega⟩
      have hreadKey := fun rest => readText_quoteUtf8 hkey rest (n := n) (by omega)
      rw [quoteUtf8, List.cons_append, List.tail_cons] at hreadKey
      rw [quoteUtf8, List.cons_append, List.cons_append, readEntries, hreadKey] at h
      change (readValue n (skipBlanks (Json.text utf8Syntax v ++ _)) >>= _) = _ at h
      rw [skipBlanks_text_of_isPrinted hprinted] at h
      obtain ⟨⟨u, rest⟩, hread, h⟩ := Imp.except_bind_eq_ok.mp h
      have hv := hfinite (by omega) hread
      have hrest := rest_of_readValue hv (Json.ends_entriesText _ _) (by omega) hread
      rw [ReadBack.entriesText_cons, List.cons_append, List.append_assoc, List.cons_append,
        List.append_assoc] at hrest
      subst hrest
      change (readEntries n (skipBlanks ('"' :: _)) >>= _) = _ at h
      rw [skipBlanks_cons _ (by decide)] at h
      obtain ⟨q, hnext, -⟩ := Imp.except_bind_eq_ok.mp h
      exact List.forall_mem_cons.mpr ⟨hv, ih hentries (by omega) hnext⟩

theorem isWritten_arr {items : List Tree} (h : ∀ v ∈ items, AllValid Literal.IsWritten v) :
    AllValid Literal.IsWritten (.arr items) := by
  refine ⟨fun s hs => ?_, fun key hkey => ?_⟩
  · obtain ⟨v, hv, hs⟩ := Json.mem_itemsScalars.mp hs
    exact (h v hv).scalars s hs
  · obtain ⟨v, hv, hkey⟩ := Json.mem_itemsKeys.mp hkey
    exact (h v hv).keys key hkey

/-- A value that is read as it was written has only finite floats. -/
theorem finiteIfRead (v : Tree) (hv : AllValid Literal.IsPrinted v) : FiniteIfRead v := by
  induction v using Json.induction with
  | scalar s => exact finiteIfRead_scalar (hv.scalars s List.mem_cons_self)
  | arr items ih =>
      intro n rest p hn h
      cases items with
      | nil => exact isWritten_arr (List.forall_mem_nil _)
      | cons v items =>
          have htext : Json.text utf8Syntax (.arr (v :: items)) =
              '[' :: (Json.text utf8Syntax v ++ Json.itemsText utf8Syntax items) := rfl
          have hall := fun w hw => (⟨ReadBack.allValid_of_mem_items hv hw, ih w hw (ReadBack.allValid_of_mem_items hv hw)⟩ :
            AllValid Literal.IsPrinted w ∧ FiniteIfRead w)
          obtain ⟨c, t, hcons, hc⟩ := exists_text_of_isPrinted (hall v List.mem_cons_self).1
          rw [htext, List.length_cons] at hn
          obtain ⟨n, rfl⟩ : ∃ m, n = m + 1 := ⟨n - 1, by omega⟩
          rw [htext, List.cons_append, List.append_assoc, hcons, List.cons_append, readValue_arr n _ hc,
            ← List.cons_append, ← hcons] at h
          obtain ⟨_, hread, -⟩ := Imp.except_bind_eq_ok.mp h
          exact isWritten_arr (isWritten_of_readItems hall (Nat.succ_le_succ_iff.mp hn) hread)
  | obj entries ih =>
      intro n rest p hn h
      have hkeys : ∀ e ∈ entries, ∀ c ∈ e.1, isSurrogate c = false := fun e he =>
        (ReadBack.allValid_of_mem_entries hv he).1
      suffices hall : ∀ e ∈ entries, AllValid Literal.IsWritten e.2 by
        refine ⟨fun s hs => ?_, hv.keys⟩
        obtain ⟨e, he, hs⟩ := Json.mem_entriesScalars.mp hs
        exact (hall e he).scalars s hs
      cases entries with
      | nil => exact List.forall_mem_nil _
      | cons e entries =>
          have htext : Json.text utf8Syntax (.obj (e :: entries)) =
              '\x7b' :: (quoteUtf8 e.1 ++ ':' :: (Json.text utf8Syntax e.2 ++ Json.entriesText utf8Syntax entries)) := by
            rw [Json.text, List.cons_append, List.cons_append, List.append_assoc, List.cons_append]
            rfl
          have hall : ∀ e' ∈ e :: entries, (∀ c ∈ e'.1, isSurrogate c = false) ∧
              AllValid Literal.IsPrinted e'.2 ∧ FiniteIfRead e'.2 := fun e' he' =>
            have hprinted := (ReadBack.allValid_of_mem_entries hv he').2
            ⟨hkeys e' he', hprinted, ih e' he' hprinted⟩
          rw [htext, List.length_cons] at hn
          obtain ⟨n, rfl⟩ : ∃ m, n = m + 1 := ⟨n - 1, by omega⟩
          rw [htext, List.cons_append, List.append_assoc, List.cons_append, List.append_assoc] at h
          change readValue (n + 1) ('\x7b' :: '"' :: _) = _ at h
          rw [readValue_obj] at h
          obtain ⟨_, hread, -⟩ := Imp.except_bind_eq_ok.mp h
          exact isWritten_of_readEntries hall (Nat.succ_le_succ_iff.mp hn) hread

/-- What is read where a value was written has only finite floats. -/
theorem isWritten_of_loads {v u : Tree} {rest : List Char} (hv : AllValid Literal.IsPrinted v)
    (h : loads (Json.text utf8Syntax v ++ rest) = .ok u) : AllValid Literal.IsWritten v := by
  rw [loads, skipBlanks_text_of_isPrinted hv] at h
  obtain ⟨_, hread, -⟩ := Imp.except_bind_eq_ok.mp h
  refine finiteIfRead v hv ?_ hread
  rw [List.length_append]
  omega

/-! ## Characters of a written value -/

section Characters

variable {x : Json.Syntax Literal Text} {p : Char → Prop}
  (hmarks : ∀ c ∈ ['[', ']', '\x7b', '\x7d', ',', ':'], p c)

include hmarks

theorem forall_mem_itemsText {items : List Tree} (h : ∀ v ∈ items, ∀ c ∈ Json.text x v, p c) :
    ∀ c ∈ Json.itemsText x items, p c := by
  induction items with
  | nil => exact List.forall_mem_singleton.mpr (hmarks _ (by decide))
  | cons v items ih =>
      obtain ⟨hv, hitems⟩ := List.forall_mem_cons.mp h
      rw [Json.itemsText, List.forall_mem_append]
      exact ⟨List.forall_mem_cons.mpr ⟨hmarks _ (by decide), hv⟩, ih hitems⟩

theorem forall_mem_entriesText {entries : List (Text × Tree)}
    (h : ∀ e ∈ entries, (∀ c ∈ x.key e.1, p c) ∧ ∀ c ∈ Json.text x e.2, p c) :
    ∀ c ∈ Json.entriesText x entries, p c := by
  induction entries with
  | nil => exact List.forall_mem_singleton.mpr (hmarks _ (by decide))
  | cons e entries ih =>
      obtain ⟨⟨hkey, hv⟩, hentries⟩ := List.forall_mem_cons.mp h
      rw [Json.entriesText, List.forall_mem_append, List.forall_mem_append]
      exact ⟨⟨List.forall_mem_cons.mpr ⟨hmarks _ (by decide), hkey⟩,
        List.forall_mem_cons.mpr ⟨hmarks _ (by decide), hv⟩⟩, ih hentries⟩

/-- What holds of punctuation, of the keys and of the scalars holds of every character of a written value. -/
theorem forall_mem_text {v : Tree} (hscalars : ∀ s ∈ v.scalars, ∀ c ∈ x.scalar s, p c)
    (hkeys : ∀ key ∈ v.keys, ∀ c ∈ x.key key, p c) : ∀ c ∈ Json.text x v, p c := by
  induction v using Json.induction with
  | scalar s => exact hscalars s List.mem_cons_self
  | arr items ih =>
      have hitems : ∀ v ∈ items, ∀ c ∈ Json.text x v, p c := fun v hv =>
        ih v hv (fun s hs => hscalars s (Json.mem_itemsScalars.mpr ⟨v, hv, hs⟩))
          fun key hkey => hkeys key (Json.mem_itemsKeys.mpr ⟨v, hv, hkey⟩)
      cases items with
      | nil => exact List.forall_mem_cons.mpr ⟨hmarks _ (by decide), List.forall_mem_singleton.mpr (hmarks _ (by decide))⟩
      | cons v items =>
          obtain ⟨hv, hitems⟩ := List.forall_mem_cons.mp hitems
          rw [Json.text, List.forall_mem_append]
          exact ⟨List.forall_mem_cons.mpr ⟨hmarks _ (by decide), hv⟩, forall_mem_itemsText hmarks hitems⟩
  | obj entries ih =>
      have hentries : ∀ e ∈ entries, (∀ c ∈ x.key e.1, p c) ∧ ∀ c ∈ Json.text x e.2, p c := fun e he =>
        ⟨hkeys e.1 (Json.mem_entriesKeys.mpr ⟨e, he, Or.inl rfl⟩),
          ih e he (fun s hs => hscalars s (Json.mem_entriesScalars.mpr ⟨e, he, hs⟩))
            fun key hkey => hkeys key (Json.mem_entriesKeys.mpr ⟨e, he, Or.inr hkey⟩)⟩
      cases entries with
      | nil => exact List.forall_mem_cons.mpr ⟨hmarks _ (by decide), List.forall_mem_singleton.mpr (hmarks _ (by decide))⟩
      | cons e entries =>
          obtain ⟨⟨hkey, hv⟩, hentries⟩ := List.forall_mem_cons.mp hentries
          rw [Json.text, List.forall_mem_append, List.forall_mem_append]
          exact ⟨⟨List.forall_mem_cons.mpr ⟨hmarks _ (by decide), hkey⟩,
            List.forall_mem_cons.mpr ⟨hmarks _ (by decide), hv⟩⟩, forall_mem_entriesText hmarks hentries⟩

end Characters

/-- A control character is not written as it is. -/
theorem not_lt_of_mem_escape {c d : Char} (h : d ∈ escape c) : ¬d.toNat < 32 := by
  have hsimple : ∀ e : Char, ¬e.toNat < 32 → d ∈ ['\\', e] → ¬d.toNat < 32 := fun e he hd => by
    rcases List.mem_cons.mp hd with rfl | hd
    · decide
    · rwa [List.mem_singleton.mp hd]
  rw [escape] at h
  split_ifs at h with h1 h2 h3 h4 h5 h6 h7 h8
  · exact hsimple _ (by decide) h
  · exact hsimple _ (by decide) h
  · exact hsimple _ (by decide) h
  · exact hsimple _ (by decide) h
  · exact hsimple _ (by decide) h
  · exact hsimple _ (by decide) h
  · exact hsimple _ (by decide) h
  · have hdigit : ∀ n < 16, ¬(Nat.digitChar n).toNat < 32 := by decide
    have hhigh := hdigit (c.toNat / 16) (by omega)
    have hlow := hdigit (c.toNat % 16) (Nat.mod_lt _ (by decide))
    simp only [List.mem_cons, List.not_mem_nil, or_false] at h
    rcases h with rfl | rfl | rfl | rfl | rfl | rfl
    · decide
    · decide
    · decide
    · decide
    · exact hhigh
    · exact hlow
  · rwa [List.mem_singleton.mp h]

theorem ne_of_mem_quoteUtf8 {s : Text} {c : Char} (h : c ∈ quoteUtf8 s) : c ≠ '\n' ∧ c ≠ '\r' := by
  have hc : ¬c.toNat < 32 := by
    rw [quoteUtf8, List.cons_append, List.mem_cons, List.mem_append, List.mem_flatMap, List.mem_singleton] at h
    rcases h with rfl | ⟨d, -, hd⟩ | rfl
    · decide
    · exact not_lt_of_mem_escape hd
    · decide
  constructor
  · rintro rfl
    exact hc (by decide)
  · rintro rfl
    exact hc (by decide)

theorem ne_of_all {token : List Char} (h : (token.all fun c => c != '\n' && c != '\r') = true) :
    ∀ c ∈ token, c ≠ '\n' ∧ c ≠ '\r' := by
  intro c hc
  have hboth := List.all_eq_true.mp h c hc
  rwa [Bool.and_eq_true, bne_iff_ne, bne_iff_ne] at hboth

/-- A written value is on one line. -/
theorem ne_of_mem_text {v : Tree} (hv : AllValid Literal.IsPrinted v) {c : Char} (h : c ∈ Json.text utf8Syntax v) :
    c ≠ '\n' ∧ c ≠ '\r' := by
  refine forall_mem_text (p := fun c => c ≠ '\n' ∧ c ≠ '\r') (ne_of_all (by decide +kernel)) (fun s hs c hc => ?_)
    (fun key _ c hc => ne_of_mem_quoteUtf8 hc) c h
  have htoken : ∀ s : Literal, s.IsWritten → s.isText = false → ∀ c ∈ literalTextUtf8 s, c ≠ '\n' ∧ c ≠ '\r' := by
    intro s hs htext c hc
    have hread := @ReadBack.literal _ _ _ _ readBack_utf8Syntax s [] hs htext nofun
    obtain ⟨token, -, htoken, heq⟩ := exists_of_readLiteral hread
    obtain rfl := List.append_cancel_right heq
    have hdelimiter := (htoken c hc).1
    exact ⟨(ne_of_isDelimiter (by decide) hdelimiter).symm, (ne_of_isDelimiter (by decide) hdelimiter).symm⟩
  have hprinted := hv.scalars s hs
  cases s with
  | str s => exact ne_of_mem_quoteUtf8 hc
  | float x =>
      cases hx : x.isFinite with
      | true => exact htoken (.float x) hx rfl c hc
      | false =>
          change c ∈ floatText x at hc
          rcases floatText_of_not_isFinite hx with h | h | h
          · rw [h] at hc
            exact @ne_of_all "NaN".toList (by decide +kernel) c hc
          · rw [h] at hc
            exact @ne_of_all "Infinity".toList (by decide +kernel) c hc
          · rw [h] at hc
            exact @ne_of_all "-Infinity".toList (by decide +kernel) c hc
  | null => exact htoken .null hprinted rfl c hc
  | bool b => exact htoken (.bool b) hprinted rfl c hc
  | int n => exact htoken (.int n) hprinted rfl c hc

end Py
