import StateWeaver.Lib.JsonReader

/-!
# A reader with a budget

The reader of JSON, stopped before it opens a container too deep or builds a value too many. If a scanner that only
sees tokens accepts a text, the reader never comes to its limits there: as long as the reader has not failed, the
scanner has opened the same containers and has counted the same values (`loadsWithin_eq`).
-/

namespace Py

/-- Why a reader with a budget stops. -/
inductive Stop where
  /-- One container too deep, or one value too many. -/
  | budget
  | failure (error : LoadsError)
  deriving DecidableEq

/-- What has been read, what comes after it, and how many values have been built. -/
abbrev Metered (α : Type) := α × List Char × ℕ

section Budget

variable (maxDepth maxNodes : ℕ)

/-- One more value. -/
def build (count : ℕ) : Except Stop ℕ :=
  if maxNodes < count + 1 then .error .budget else .ok (count + 1)

/-- One more container inside others. -/
def openContainer (depth count : ℕ) : Except Stop ℕ :=
  if maxDepth < depth + 1 then .error .budget else build maxNodes count

/-- A text as a value or as a key. -/
def textWithin (n count : ℕ) (rest : List Char) : Except Stop (Metered Text) := do
  let (s, rest) ← (readText n rest).mapError .failure
  let count ← build maxNodes count
  return (s, rest, count)

/-- A word or a number. -/
def literalWithin (count : ℕ) (rest : List Char) : Except Stop (Metered Tree) := do
  let (s, rest) ← (readLiteral rest).mapError .failure
  let count ← build maxNodes count
  return (.scalar s, rest, count)

mutual

/-- `readValue` inside some containers, after some values. -/
def valueWithin : ℕ → ℕ → ℕ → List Char → Except Stop (Metered Tree)
  | 0, _, _, _ => .error (.failure .malformed)
  | n + 1, _, count, '"' :: rest => do
      let (s, rest, count) ← textWithin maxNodes n count rest
      return (.scalar (.str s), rest, count)
  | n + 1, depth, count, '{' :: rest => do
      let count ← openContainer maxDepth maxNodes depth count
      match skipBlanks rest with
      | '}' :: rest => .ok (.obj [], rest, count)
      | rest => do
          let (entries, rest, count) ← entriesWithin n (depth + 1) count rest
          return (← (uniqueObject entries).mapError .failure, rest, count)
  | n + 1, depth, count, '[' :: rest => do
      let count ← openContainer maxDepth maxNodes depth count
      match skipBlanks rest with
      | ']' :: rest => .ok (.arr [], rest, count)
      | rest => do
          let (items, rest, count) ← itemsWithin n (depth + 1) count rest
          return (.arr items, rest, count)
  | _ + 1, _, count, rest => literalWithin maxNodes count rest

/-- `readItems`. -/
def itemsWithin : ℕ → ℕ → ℕ → List Char → Except Stop (Metered (List Tree))
  | 0, _, _, _ => .error (.failure .malformed)
  | n + 1, depth, count, rest => do
      let (v, rest, count) ← valueWithin n depth count rest
      match skipBlanks rest with
      | ']' :: rest => return ([v], rest, count)
      | ',' :: rest => do
          let (items, rest, count) ← itemsWithin n depth count (skipBlanks rest)
          return (v :: items, rest, count)
      | _ => .error (.failure .malformed)

/-- `readEntries`. -/
def entriesWithin : ℕ → ℕ → ℕ → List Char → Except Stop (Metered (List (Text × Tree)))
  | n + 1, depth, count, '"' :: rest => do
      let (key, rest, count) ← textWithin maxNodes n count rest
      match skipBlanks rest with
      | ':' :: rest => do
          let (v, rest, count) ← valueWithin n depth count (skipBlanks rest)
          match skipBlanks rest with
          | '}' :: rest => return ([(key, v)], rest, count)
          | ',' :: rest => do
              let (entries, rest, count) ← entriesWithin n depth count (skipBlanks rest)
              return ((key, v) :: entries, rest, count)
          | _ => .error (.failure .malformed)
      | _ => .error (.failure .malformed)
  | _, _, _, _ => .error (.failure .malformed)

end

/-- `loads` in at most `n` steps, within the budget. -/
def loadsWithin (n : ℕ) (text : List Char) : Except Stop Tree := do
  let (v, rest, _) ← valueWithin maxDepth maxNodes n 0 0 (skipBlanks text)
  Imp.require (skipBlanks rest = []) (.failure .malformed)
  return v

end Budget

/-! ## Scanners -/

/-- What separates tokens. -/
def isDelimiter (c : Char) : Bool := ['{', '}', '[', ']', ',', ':', ' ', '\t', '\r', '\n'].contains c

/-- Whether a text goes on with something that cannot follow a value. -/
def Stuck (text : List Char) : Prop := ∃ c rest, text = c :: rest ∧ isDelimiter c = false

/-- What a scanner of tokens knows that accepts a text inside some containers after some values. -/
structure Scanner (accepts : ℕ → ℕ → List Char → Prop) (maxDepth maxNodes : ℕ) : Prop where
  blank {depth count : ℕ} {c : Char} {rest : List Char} : isBlank c = true →
    accepts depth count (c :: rest) → accepts depth count rest
  separator {depth count : ℕ} {c : Char} {rest : List Char} : c = ',' ∨ c = ':' →
    accepts depth count (c :: rest) → accepts depth count rest
  opening {depth count : ℕ} {c : Char} {rest : List Char} : c = '[' ∨ c = '{' →
    accepts depth count (c :: rest) →
      depth + 1 ≤ maxDepth ∧ count + 1 ≤ maxNodes ∧ accepts (depth + 1) (count + 1) rest
  closing {depth count : ℕ} {c : Char} {rest : List Char} : c = ']' ∨ c = '}' →
    accepts (depth + 1) count (c :: rest) → accepts depth count rest
  text {depth count n : ℕ} {s : Text} {text rest : List Char} : readText n text = .ok (s, rest) →
    accepts depth count ('"' :: text) → count + 1 ≤ maxNodes ∧ accepts depth (count + 1) rest
  literal {depth count : ℕ} {s : Literal} {text rest : List Char} : readLiteral text = .ok (s, rest) →
    accepts depth count text → count + 1 ≤ maxNodes ∧ (accepts depth (count + 1) rest ∨ Stuck rest)

/-- Whether a reader with a budget does what a reader does, with the scanner at the same place if it succeeds. -/
def Follows {α : Type} (accepts : ℕ → List Char → Prop) (x : Except Stop (Metered α))
    (y : Except LoadsError (α × List Char)) : Prop :=
  match y with
  | .error e => x = .error (.failure e)
  | .ok (a, rest) => ∃ count, x = .ok (a, rest, count) ∧ (accepts count rest ∨ Stuck rest)

/-- What comes next is told what was read, and where. -/
theorem Follows.bind {α β : Type} {accepts accepts' : ℕ → List Char → Prop} {x : Except Stop (Metered α)}
    {y : Except LoadsError (α × List Char)} {f : Metered α → Except Stop (Metered β)}
    {g : α × List Char → Except LoadsError (β × List Char)} (h : Follows accepts x y)
    (hnext : ∀ a rest count, accepts count rest ∨ Stuck rest → Follows accepts' (f (a, rest, count)) (g (a, rest))) :
    Follows accepts' (x >>= f) (y >>= g) := by
  cases y with
  | error e =>
      have hx : x = .error (.failure e) := h
      rw [hx]
      rfl
  | ok p =>
      obtain ⟨count, hx, hrest⟩ := h
      rw [hx]
      exact hnext p.1 p.2 count hrest

theorem Follows.ok {α : Type} {accepts : ℕ → List Char → Prop} {a : α} {rest : List Char} {count : ℕ}
    (h : accepts count rest ∨ Stuck rest) : Follows accepts (.ok (a, rest, count)) (.ok (a, rest)) :=
  ⟨count, rfl, h⟩

theorem skipBlanks_of_stuck {text : List Char} (h : Stuck text) : skipBlanks text = text := by
  obtain ⟨c, rest, rfl, hc⟩ := h
  refine skipBlanks_cons rest fun hmem => ?_
  simp only [List.mem_cons, List.not_mem_nil, or_false] at hmem
  rcases hmem with rfl | rfl | rfl | rfl <;> cases hc

/-- A text that goes on with a delimiter is not stuck. -/
theorem not_stuck_cons {c : Char} {text : List Char} (hc : isDelimiter c = true) : ¬ Stuck (c :: text) := by
  rintro ⟨c', rest, heq, hc'⟩
  rw [(List.cons.inj heq).1, hc'] at hc
  cases hc

namespace Scanner

variable {accepts : ℕ → ℕ → List Char → Prop} {maxDepth maxNodes : ℕ}

theorem skipBlanks (hs : Scanner accepts maxDepth maxNodes) {depth count : ℕ} {text : List Char}
    (h : accepts depth count text) : accepts depth count (Py.skipBlanks text) := by
  induction text with
  | nil => exact h
  | cons c rest ih =>
      rw [Py.skipBlanks, List.dropWhile_cons]
      split
      · next hblank => exact ih (hs.blank hblank h)
      · exact h

theorem skipBlanks_or (hs : Scanner accepts maxDepth maxNodes) {depth count : ℕ} {text : List Char}
    (h : accepts depth count text ∨ Stuck text) :
    accepts depth count (Py.skipBlanks text) ∨ Stuck (Py.skipBlanks text) := by
  rcases h with h | h
  · exact Or.inl (hs.skipBlanks h)
  · rw [skipBlanks_of_stuck h]
    exact Or.inr h

/-- Where a delimiter follows, the scanner is not lost. -/
theorem accepts_of_skipBlanks_eq (hs : Scanner accepts maxDepth maxNodes) {depth count : ℕ} {c : Char}
    {text rest : List Char} (h : accepts depth count text ∨ Stuck text) (heq : Py.skipBlanks text = c :: rest)
    (hc : isDelimiter c = true) : accepts depth count (c :: rest) := by
  have hskip := hs.skipBlanks_or h
  rw [heq] at hskip
  exact hskip.resolve_right (not_stuck_cons hc)

theorem openContainer_eq (hs : Scanner accepts maxDepth maxNodes) {depth count : ℕ} {c : Char} {rest : List Char}
    (hc : c = '[' ∨ c = '{') (h : accepts depth count (c :: rest)) :
    openContainer maxDepth maxNodes depth count = .ok (count + 1) := by
  obtain ⟨hdepth, hcount, -⟩ := hs.opening hc h
  rw [openContainer, if_neg (Nat.not_lt.mpr hdepth), build, if_neg (Nat.not_lt.mpr hcount)]

theorem textWithin_follows (hs : Scanner accepts maxDepth maxNodes) {depth count : ℕ} (n : ℕ) {text : List Char}
    (h : accepts depth count ('"' :: text)) :
    Follows (accepts depth) (textWithin maxNodes n count text) (readText n text) := by
  rw [textWithin]
  cases hread : readText n text with
  | error e => rfl
  | ok p =>
      obtain ⟨s, rest⟩ := p
      obtain ⟨hcount, hrest⟩ := hs.text hread h
      refine ⟨count + 1, ?_, Or.inl hrest⟩
      change (build maxNodes count >>= _) = _
      rw [build, if_neg (Nat.not_lt.mpr hcount)]
      rfl

theorem literalWithin_follows (hs : Scanner accepts maxDepth maxNodes) {depth count : ℕ} {text : List Char}
    (h : accepts depth count text) : Follows (accepts depth) (literalWithin maxNodes count text) (do
      let (s, rest) ← readLiteral text
      return (.scalar s, rest)) := by
  rw [literalWithin]
  cases hread : readLiteral text with
  | error e => rfl
  | ok p =>
      obtain ⟨s, rest⟩ := p
      obtain ⟨hcount, hrest⟩ := hs.literal hread h
      refine ⟨count + 1, ?_, hrest⟩
      change (build maxNodes count >>= _) = _
      rw [build, if_neg (Nat.not_lt.mpr hcount)]
      rfl

section Step

variable (hs : Scanner accepts maxDepth maxNodes) {n : ℕ}
  (hvalue : ∀ {depth count : ℕ} {text : List Char}, accepts depth count text →
    Follows (accepts depth) (valueWithin maxDepth maxNodes n depth count text) (readValue n text))
  (hitems : ∀ {depth count : ℕ} {text : List Char}, accepts (depth + 1) count text →
    Follows (accepts depth) (itemsWithin maxDepth maxNodes n (depth + 1) count text) (readItems n text))
  (hentries : ∀ {depth count : ℕ} {text : List Char}, accepts (depth + 1) count text →
    Follows (accepts depth) (entriesWithin maxDepth maxNodes n (depth + 1) count text) (readEntries n text))

include hs

include hvalue hitems in
theorem itemsWithin_follows {depth count : ℕ} {text : List Char} (h : accepts (depth + 1) count text) :
    Follows (accepts depth) (itemsWithin maxDepth maxNodes (n + 1) (depth + 1) count text)
      (readItems (n + 1) text) := by
  rw [itemsWithin, readItems]
  refine (hvalue h).bind fun v rest count hrest => ?_
  dsimp only
  cases hskip : Py.skipBlanks rest with
  | nil => rfl
  | cons c tail =>
      by_cases hclose : c = ']'
      · subst hclose
        exact Follows.ok (Or.inl (hs.closing (Or.inl rfl) (hs.accepts_of_skipBlanks_eq hrest hskip (by decide))))
      by_cases hcomma : c = ','
      · subst hcomma
        have hnext := hs.separator (Or.inl rfl) (hs.accepts_of_skipBlanks_eq hrest hskip (by decide))
        exact (hitems (hs.skipBlanks hnext)).bind fun _ _ _ hrest => Follows.ok hrest
      · split
        · next heq => exact absurd (List.cons.inj heq).1 hclose
        · next heq => exact absurd (List.cons.inj heq).1 hcomma
        · first
          | rfl
          | split
            · next heq => exact absurd (List.cons.inj heq).1 hclose
            · next heq => exact absurd (List.cons.inj heq).1 hcomma
            · rfl

include hvalue hentries in
theorem entriesWithin_follows {depth count : ℕ} {text : List Char} (h : accepts (depth + 1) count text) :
    Follows (accepts depth) (entriesWithin maxDepth maxNodes (n + 1) (depth + 1) count text)
      (readEntries (n + 1) text) := by
  cases text with
  | nil =>
      unfold entriesWithin readEntries
      rfl
  | cons c text =>
      by_cases hquote : c = '"'
      · subst hquote
        rw [entriesWithin, readEntries]
        refine (hs.textWithin_follows n h).bind fun key rest count hrest => ?_
        dsimp only
        cases hskip : Py.skipBlanks rest with
        | nil => rfl
        | cons c tail =>
            by_cases hcolon : c = ':'
            · subst hcolon
              have hnext := hs.separator (Or.inr rfl) (hs.accepts_of_skipBlanks_eq hrest hskip (by decide))
              refine (hvalue (hs.skipBlanks hnext)).bind fun v rest count hrest => ?_
              dsimp only
              cases hskip : Py.skipBlanks rest with
              | nil => rfl
              | cons c tail =>
                  by_cases hclose : c = '}'
                  · subst hclose
                    exact Follows.ok (Or.inl (hs.closing (Or.inr rfl)
                      (hs.accepts_of_skipBlanks_eq hrest hskip (by decide))))
                  by_cases hcomma : c = ','
                  · subst hcomma
                    have hnext := hs.separator (Or.inl rfl) (hs.accepts_of_skipBlanks_eq hrest hskip (by decide))
                    exact (hentries (hs.skipBlanks hnext)).bind fun _ _ _ hrest => Follows.ok hrest
                  · split
                    · next heq => exact absurd (List.cons.inj heq).1 hclose
                    · next heq => exact absurd (List.cons.inj heq).1 hcomma
                    · first
                      | rfl
                      | split
                        · next heq => exact absurd (List.cons.inj heq).1 hclose
                        · next heq => exact absurd (List.cons.inj heq).1 hcomma
                        · rfl
            · split
              · next heq => exact absurd (List.cons.inj heq).1 hcolon
              · first
                | rfl
                | split
                  · next heq => exact absurd (List.cons.inj heq).1 hcolon
                  · rfl
      · unfold entriesWithin readEntries
        split
        · next _ heq => exact absurd (List.cons.inj heq).1 hquote
        · split
          · next _ heq => exact absurd (List.cons.inj heq).1 hquote
          · rfl

include hitems in
theorem valueWithin_arr_follows {depth count : ℕ} {text : List Char} (h : accepts depth count ('[' :: text)) :
    Follows (accepts depth) (valueWithin maxDepth maxNodes (n + 1) depth count ('[' :: text))
      (readValue (n + 1) ('[' :: text)) := by
  have hinside := (hs.opening (Or.inl rfl) h).2.2
  rw [valueWithin, readValue, hs.openContainer_eq (Or.inl rfl) h]
  change Follows _ (match Py.skipBlanks text with
    | ']' :: rest => _
    | rest => _) _
  by_cases hclose : ∃ rest, Py.skipBlanks text = ']' :: rest
  · obtain ⟨rest, hskip⟩ := hclose
    rw [hskip]
    exact Follows.ok (Or.inl (hs.closing (Or.inl rfl)
      (hs.accepts_of_skipBlanks_eq (Or.inl hinside) hskip (by decide))))
  · split
    · next hskip => exact absurd ⟨_, hskip⟩ hclose
    · try
        split
        next hskip => exact absurd ⟨_, hskip⟩ hclose
      exact (hitems (hs.skipBlanks hinside)).bind fun _ _ _ hrest => Follows.ok hrest

include hentries in
theorem valueWithin_obj_follows {depth count : ℕ} {text : List Char} (h : accepts depth count ('{' :: text)) :
    Follows (accepts depth) (valueWithin maxDepth maxNodes (n + 1) depth count ('{' :: text))
      (readValue (n + 1) ('{' :: text)) := by
  have hinside := (hs.opening (Or.inr rfl) h).2.2
  rw [valueWithin, readValue, hs.openContainer_eq (Or.inr rfl) h]
  change Follows _ (match Py.skipBlanks text with
    | '}' :: rest => _
    | rest => _) _
  by_cases hclose : ∃ rest, Py.skipBlanks text = '}' :: rest
  · obtain ⟨rest, hskip⟩ := hclose
    rw [hskip]
    exact Follows.ok (Or.inl (hs.closing (Or.inr rfl)
      (hs.accepts_of_skipBlanks_eq (Or.inl hinside) hskip (by decide))))
  · split
    · next hskip => exact absurd ⟨_, hskip⟩ hclose
    · try
        split
        next hskip => exact absurd ⟨_, hskip⟩ hclose
      refine (hentries (hs.skipBlanks hinside)).bind fun entries rest count hrest => ?_
      dsimp only
      cases uniqueObject entries with
      | error e => rfl
      | ok v => exact Follows.ok hrest

include hitems hentries in
theorem valueWithin_follows {depth count : ℕ} {text : List Char} (h : accepts depth count text) :
    Follows (accepts depth) (valueWithin maxDepth maxNodes (n + 1) depth count text)
      (readValue (n + 1) text) := by
  by_cases hquote : ∃ rest, text = '"' :: rest
  · obtain ⟨rest, rfl⟩ := hquote
    rw [valueWithin, readValue]
    exact (hs.textWithin_follows n h).bind fun _ _ _ hrest => Follows.ok hrest
  by_cases hobj : ∃ rest, text = '{' :: rest
  · obtain ⟨rest, rfl⟩ := hobj
    exact hs.valueWithin_obj_follows hentries h
  by_cases harr : ∃ rest, text = '[' :: rest
  · obtain ⟨rest, rfl⟩ := harr
    exact hs.valueWithin_arr_follows hitems h
  · rw [valueWithin, readValue]
    · exact hs.literalWithin_follows h
    all_goals
      intro rest heq
      simp_all

end Step

/-- A reader of a text that a scanner accepts does not come to its limits. -/
theorem follows (hs : Scanner accepts maxDepth maxNodes) (n : ℕ) :
    (∀ {depth count : ℕ} {text : List Char}, accepts depth count text →
      Follows (accepts depth) (valueWithin maxDepth maxNodes n depth count text) (readValue n text)) ∧
    (∀ {depth count : ℕ} {text : List Char}, accepts (depth + 1) count text →
      Follows (accepts depth) (itemsWithin maxDepth maxNodes n (depth + 1) count text) (readItems n text)) ∧
    ∀ {depth count : ℕ} {text : List Char}, accepts (depth + 1) count text →
      Follows (accepts depth) (entriesWithin maxDepth maxNodes n (depth + 1) count text) (readEntries n text) := by
  induction n with
  | zero =>
      refine ⟨fun _ => ?_, fun _ => ?_, fun _ => ?_⟩
      · rw [valueWithin, readValue]
        rfl
      · rw [itemsWithin, readItems]
        rfl
      · unfold entriesWithin readEntries
        rfl
  | succ n ih =>
      obtain ⟨hvalue, hitems, hentries⟩ := ih
      exact ⟨hs.valueWithin_follows hitems hentries, hs.itemsWithin_follows hvalue hitems,
        hs.entriesWithin_follows hvalue hentries⟩

/-- A reader with a budget stops for the budget on no text that a scanner accepts, whatever the number of steps. -/
theorem loadsWithin_ne_budget (hs : Scanner accepts maxDepth maxNodes) {text : List Char} (h : accepts 0 0 text)
    (n : ℕ) : loadsWithin maxDepth maxNodes n text ≠ .error .budget := by
  have hvalue := (hs.follows n).1 (hs.skipBlanks h)
  rw [loadsWithin]
  cases hread : readValue n (Py.skipBlanks text) with
  | error e =>
      rw [hread] at hvalue
      have hx : valueWithin maxDepth maxNodes n 0 0 (Py.skipBlanks text) = .error (.failure e) := hvalue
      rw [hx]
      nofun
  | ok p =>
      rw [hread] at hvalue
      obtain ⟨count, hx, -⟩ := hvalue
      rw [hx]
      change (Imp.require (Py.skipBlanks p.2 = []) (Stop.failure .malformed) >>= _) ≠ _
      rw [Imp.require]
      split <;> nofun

/-- On a text that a scanner accepts, a reader with a budget is the reader. -/
theorem loadsWithin_eq (hs : Scanner accepts maxDepth maxNodes) {text : List Char} (h : accepts 0 0 text) :
    loadsWithin maxDepth maxNodes (text.length + 1) text = (loads text).mapError .failure := by
  have hvalue := (hs.follows (text.length + 1)).1 (hs.skipBlanks h)
  rw [loadsWithin, loads]
  cases hread : readValue (text.length + 1) (Py.skipBlanks text) with
  | error e =>
      rw [hread] at hvalue
      have hx : valueWithin maxDepth maxNodes (text.length + 1) 0 0 (Py.skipBlanks text) = .error (.failure e) := hvalue
      rw [hx]
      rfl
  | ok p =>
      rw [hread] at hvalue
      obtain ⟨count, hx, -⟩ := hvalue
      rw [hx]
      change (Imp.require (Py.skipBlanks p.2 = []) (Stop.failure .malformed) >>= _) =
        (Imp.require (Py.skipBlanks p.2 = []) LoadsError.malformed >>= _).mapError _
      rw [Imp.require, Imp.require]
      split <;> rfl

end Scanner

end Py
