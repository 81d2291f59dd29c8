import StateWeaver.Bridge.WireReaders

/-!
# What PostgreSQL replies

After a query PostgreSQL sends messages up to one that says it is ready: descriptions of the columns, rows with a
value for each column, and notices. The reader of the rows keeps the last number of columns and the rows so far.
-/

namespace StateWeaver.Bridge

open Wire (Reader Connection Reads Sequence unsigned signed)

/-- A row, with nothing for a null. -/
abbrev TextRow := List (Option (List Char))

/-! ## The reader -/

/-- `_postgres_message`, after the length. -/
def messagePayload (kind : List UInt8) (length : ℕ) : Reader Exc (List UInt8 × List UInt8) :=
  if 4 ≤ length ∧ length - 4 ≤ maxProviderReplyBytes then do
    let payload ← readExact (length - 4)
    return (kind, payload.1)
  else
    reject "PostgreSQL reply exceeded its fixed boundary"

/-- `_postgres_message`. -/
def postgresMessage : Reader Exc (List UInt8 × List UInt8) := do
  let kind ← readExact 1
  let header ← readExact 4
  messagePayload kind.1 (unsigned header.1)

/-- `payload.find(b"\0", cursor)`. -/
def findZero (payload : List UInt8) (cursor : ℕ) : Option ℕ :=
  ((payload.drop cursor).findIdx? (· == 0)).map (cursor + ·)

/-- A column of a description: its name, and where the next one starts. -/
def fieldAt (payload : List UInt8) (cursor : ℕ) : Except Exc (List UInt8 × ℕ) :=
  match findZero payload cursor with
  | none => .error (.bridge "PostgreSQL row metadata was invalid")
  | some terminator =>
      if terminator + 19 ≤ payload.length then
        .ok ((payload.drop cursor).take (terminator - cursor), terminator + 19)
      else .error (.bridge "PostgreSQL row metadata was invalid")

/-- The number of columns in a description. -/
def rowMetadata (payload : List UInt8) : Except Exc ℕ := do
  Imp.require (2 ≤ payload.length) (.bridge "PostgreSQL row metadata was invalid")
  let fieldCount := unsigned (payload.take 2)
  let fields ← Wire.itemsAt (fieldAt payload) fieldCount 2
  Imp.require (fields.2 = payload.length) (.bridge "PostgreSQL row metadata was invalid")
  return fieldCount

/-- A value of a row, and where the next one starts. -/
def valueAt (payload : List UInt8) (cursor : ℕ) : Except Exc (Option (List Char) × ℕ) :=
  if cursor + 4 ≤ payload.length then
    let size := signed ((payload.drop cursor).take 4)
    if size = -1 then .ok (none, cursor + 4)
    else if 0 ≤ size ∧ cursor + 4 + size ≤ payload.length then
      match Py.decodeUtf8 ((payload.drop (cursor + 4)).take size.toNat) with
      | none => .error (.bridge "PostgreSQL text reply was invalid")
      | some chars => .ok (some chars, cursor + 4 + size.toNat)
    else .error (.bridge "PostgreSQL row reply was invalid")
  else .error (.bridge "PostgreSQL row reply was invalid")

/-- The values of a row. -/
def rowReply (fieldCount : Option ℕ) (payload : List UInt8) : Except Exc TextRow := do
  Imp.require (fieldCount.isSome ∧ 2 ≤ payload.length) (.bridge "PostgreSQL row reply was invalid")
  let count := unsigned (payload.take 2)
  Imp.require (fieldCount = some count) (.bridge "PostgreSQL row reply was invalid")
  let values ← Wire.itemsAt (valueAt payload) count 2
  Imp.require (values.2 = payload.length) (.bridge "PostgreSQL row reply was invalid")
  return values.1

/-- What the loop of `_postgres_query` keeps. -/
structure QueryState where
  fieldCount : Option ℕ := none
  rows : List TextRow := []

/-- A message in the loop of `_postgres_query`, once the query is sent. -/
def queryStep (s : QueryState) (message : List UInt8 × List UInt8) : Except Exc (QueryState ⊕ List TextRow) :=
  if message.1 = [84] then do
    let count ← rowMetadata message.2
    return .inl { s with fieldCount := some count }
  else if message.1 = [68] then do
    let values ← rowReply s.fieldCount message.2
    return .inl { s with rows := s.rows ++ [values] }
  else if message.1 = [69] then .error (.bridge "PostgreSQL rejected the fixed query")
  else if message.1 = [90] then .ok (.inr s.rows)
  else if message.1 ∈ [[67], [73], [78]] then .ok (.inl s)
  else .error (.bridge "PostgreSQL query reply was invalid")

/-! ## The grammar -/

/-- A message is a byte, the length of the rest with its own four bytes, and a payload within the bound. -/
def IsMessage (message : List UInt8 × List UInt8) (encoding : List UInt8) : Prop :=
  message.1.length = 1 ∧ message.2.length ≤ maxProviderReplyBytes ∧ ∃ header : List UInt8, header.length = 4 ∧
    unsigned header = message.2.length + 4 ∧ encoding = message.1 ++ header ++ message.2

/-- A column is a name, a zero and eighteen bytes. -/
def IsField (name encoding : List UInt8) : Prop :=
  0 ∉ name ∧ ∃ attributes : List UInt8, attributes.length = 18 ∧ encoding = name ++ 0 :: attributes

/-- A value is its size and its text, or a size of -1. -/
def IsValue : Option (List Char) → List UInt8 → Prop
  | none, encoding => encoding.length = 4 ∧ signed encoding = -1
  | some chars, encoding => ∃ size value : List UInt8, size.length = 4 ∧ signed size = value.length ∧
      Py.decodeUtf8 value = some chars ∧ encoding = size ++ value

/-- Some items, after their number in two bytes. -/
def IsCounted {α : Type} (grammar : α → List UInt8 → Prop) (values : List α) (payload : List UInt8) : Prop :=
  ∃ count body : List UInt8, count.length = 2 ∧ unsigned count = values.length ∧ Sequence grammar values body ∧
    payload = count ++ body

/-- The messages of a reply with some rows, if a number of columns is known or none. -/
inductive IsQueryReply : Option ℕ → List TextRow → List UInt8 → Prop
  | ready {fieldCount : Option ℕ} {payload encoding : List UInt8} : IsMessage ([90], payload) encoding →
      IsQueryReply fieldCount [] encoding
  | description {fieldCount : Option ℕ} {names : List (List UInt8)} {rows : List TextRow}
      {payload first second : List UInt8} : IsCounted IsField names payload → IsMessage ([84], payload) first →
      IsQueryReply (some names.length) rows second → IsQueryReply fieldCount rows (first ++ second)
  | row {values : TextRow} {rows : List TextRow} {payload first second : List UInt8} :
      IsCounted IsValue values payload → IsMessage ([68], payload) first →
      IsQueryReply (some values.length) rows second →
      IsQueryReply (some values.length) (values :: rows) (first ++ second)
  | notice {fieldCount : Option ℕ} {kind payload first second : List UInt8} {rows : List TextRow} :
      kind ∈ [[67], [73], [78]] → IsMessage (kind, payload) first → IsQueryReply fieldCount rows second →
      IsQueryReply fieldCount rows (first ++ second)

/-! ## Messages -/

theorem reads_postgresMessage : Reads IsUnexpected postgresMessage IsMessage fun _ => False := by
  refine ((reads_readExact 1).bind fun kind => (reads_readExact 4).bind fun header =>
    ((reads_readExact (unsigned header.1 - 4)).bind fun payload => Wire.reads_pure (kind.1, payload.1)).require
      (Bool.noConfusion : ¬IsUnexpected (Exc.bridge _))).congr (fun message encoding => ?_) fun data => ?_
  · constructor
    · rintro ⟨kind, _, _, ⟨-, rfl⟩, ⟨header, _, _, ⟨-, rfl⟩, ⟨hlength, payload, _, _, ⟨-, rfl⟩, ⟨rfl, rfl⟩, rfl⟩, rfl⟩, rfl⟩
      have hpayload := payload.2
      refine ⟨kind.2, ?_, header.1, header.2, ?_, ?_⟩
      · dsimp only
        omega
      · dsimp only
        omega
      · simp only [List.append_nil, List.append_assoc]
    · rcases message with ⟨kind, payload⟩
      rintro ⟨hkind, hbound, header, hheader, hlength, rfl⟩
      dsimp only at hkind hbound hlength ⊢
      refine ⟨⟨kind, hkind⟩, kind, header ++ payload, ⟨by decide, rfl⟩, ⟨⟨header, hheader⟩, header, payload,
        ⟨by decide, rfl⟩, ⟨?_, ⟨payload, ?_⟩, payload, [], ⟨?_, rfl⟩, ⟨rfl, rfl⟩, (List.append_nil _).symm⟩, rfl⟩,
        List.append_assoc _ _ _⟩ <;> rw [hlength] <;> omega
  · refine iff_of_false ?_ id
    rintro (h | ⟨_, _, _, _, h | ⟨_, _, _, _, ⟨-, h | ⟨_, _, _, _, h, _⟩⟩, _⟩, _⟩) <;> exact h

theorem progress_postgresMessage : Wire.Progress postgresMessage :=
  reads_postgresMessage.progress fun message h => by
    obtain ⟨hkind, -, _, -, -, hnil⟩ := h
    rw [eq_comm, List.append_eq_nil_iff, List.append_eq_nil_iff] at hnil
    rw [hnil.1.1] at hkind
    cases hkind

/-- `_postgres_query`, once the query is sent. -/
def postgresReply : Reader Exc (List TextRow) := Wire.loop postgresMessage queryStep progress_postgresMessage {}

/-! ## Descriptions and rows -/

theorem findIdx?_eq_some_iff {content : List UInt8} {i : ℕ} : content.findIdx? (· == 0) = some i ↔
    ∃ name rest, 0 ∉ name ∧ content = name ++ 0 :: rest ∧ i = name.length := by
  induction content generalizing i with
  | nil => simp
  | cons b content ih =>
      rw [List.findIdx?_cons]
      by_cases hb : b = 0
      · subst hb
        rw [if_pos (beq_self_eq_true _), Option.some.injEq]
        constructor
        · rintro rfl
          exact ⟨[], content, List.not_mem_nil, rfl, rfl⟩
        · rintro ⟨name, rest, hname, h, rfl⟩
          cases name with
          | nil => rfl
          | cons c name => exact absurd ((List.cons.inj h).1 ▸ List.mem_cons_self) hname
      · rw [if_neg (by rwa [beq_iff_eq]), Option.map_eq_some_iff]
        constructor
        · rintro ⟨j, hj, rfl⟩
          obtain ⟨name, rest, hname, rfl, rfl⟩ := ih.mp hj
          exact ⟨b :: name, rest, List.not_mem_cons_of_ne_of_not_mem (Ne.symm hb) hname, rfl, rfl⟩
        · rintro ⟨name, rest, hname, h, rfl⟩
          cases name with
          | nil => exact absurd (List.cons.inj h).1 hb
          | cons c name =>
              exact ⟨name.length, ih.mpr ⟨name, rest, List.not_mem_of_not_mem_cons hname, (List.cons.inj h).2, rfl⟩, rfl⟩

theorem fieldAt_eq_ok {payload : List UInt8} (cursor : ℕ) (name : List UInt8) (stop : ℕ) :
    fieldAt payload cursor = .ok (name, stop) ↔ Wire.TakesAt payload IsField name cursor stop := by
  rw [fieldAt, findZero]
  constructor
  · intro h
    split at h
    · cases h
    · next terminator hfind =>
      obtain ⟨i, hi, rfl⟩ := Option.map_eq_some_iff.mp hfind
      obtain ⟨name, rest, hname, hdrop, rfl⟩ := findIdx?_eq_some_iff.mp hi
      split at h
      · next hfits =>
        cases h
        have hlengths := congrArg List.length hdrop
        rw [List.length_drop, List.length_append, List.length_cons] at hlengths
        rw [hdrop, Nat.add_sub_cancel_left, List.take_left]
        refine ⟨name ++ 0 :: rest.take 18, ⟨hname, rest.take 18, ?_, rfl⟩, ?_, ?_⟩
        · rw [List.length_take]
          omega
        · rw [hdrop]
          exact (List.prefix_append_right_inj name).mpr ((List.prefix_cons_inj 0).mpr (List.take_prefix 18 rest))
        · rw [List.length_append, List.length_cons, List.length_take]
          omega
      · cases h
  · rintro ⟨_, ⟨hname, attributes, hattributes, rfl⟩, ⟨rest, hrest⟩, rfl⟩
    rw [List.append_assoc, List.cons_append] at hrest
    have hlengths := congrArg List.length hrest
    rw [List.length_drop, List.length_append, List.length_cons, List.length_append] at hlengths
    rw [findIdx?_eq_some_iff.mpr ⟨name, attributes ++ rest, hname, hrest.symm, rfl⟩]
    change (if cursor + name.length + 19 ≤ payload.length then _ else _) = _
    rw [if_pos (by omega), ← hrest, Nat.add_sub_cancel_left, List.take_left, List.length_append, List.length_cons,
      hattributes]
    rfl

theorem valueAt_eq_ok {payload : List UInt8} (cursor : ℕ) (value : Option (List Char)) (stop : ℕ) :
    valueAt payload cursor = .ok (value, stop) ↔ Wire.TakesAt payload IsValue value cursor stop := by
  rw [valueAt]
  constructor
  · intro h
    split at h
    · next hfits =>
      have hsize : ((payload.drop cursor).take 4).length = 4 := by
        rw [List.length_take, List.length_drop]
        omega
      dsimp only at h
      split at h
      · next hnull =>
        cases h
        exact ⟨_, ⟨hsize, hnull⟩, List.take_prefix 4 _, by rw [hsize]⟩
      · split at h
        · next hbound =>
          split at h
          · cases h
          · next chars hchars =>
            cases h
            have hvalue : ((payload.drop (cursor + 4)).take
                (signed ((payload.drop cursor).take 4)).toNat).length = (signed ((payload.drop cursor).take 4)).toNat := by
              rw [List.length_take, List.length_drop]
              omega
            refine ⟨_, ⟨_, _, hsize, ?_, hchars, rfl⟩, ?_, ?_⟩
            · rw [hvalue]
              omega
            · rw [← List.drop_drop, ← List.take_add]
              exact List.take_prefix _ _
            · rw [List.length_append, hsize, hvalue, Nat.add_assoc]
        · cases h
    · cases h
  · rintro ⟨encoding, hvalue, ⟨rest, hrest⟩, rfl⟩
    have hlengths := congrArg List.length hrest
    rw [List.length_drop, List.length_append] at hlengths
    cases value with
    | none =>
        obtain ⟨hlength, hsigned⟩ := hvalue
        rw [if_pos (by omega), ← hrest, List.take_left' hlength]
        dsimp only
        rw [if_pos hsigned, hlength]
    | some chars =>
        obtain ⟨size, text, hsize, hsigned, hchars, rfl⟩ := hvalue
        rw [List.length_append] at hlengths
        rw [List.append_assoc] at hrest
        rw [if_pos (by omega), ← List.drop_drop, ← hrest, List.take_left' hsize, List.drop_left' hsize]
        dsimp only
        rw [hsigned, if_neg (by omega), if_pos (by omega), Int.toNat_natCast, List.take_left, hchars,
          List.length_append, hsize, Nat.add_assoc]

/-- Items after their number fill a payload. -/
theorem isCounted_iff {α : Type} {item : List UInt8 → ℕ → Except Exc (α × ℕ)} {grammar : α → List UInt8 → Prop}
    (hitem : ∀ {payload} cursor a stop, item payload cursor = .ok (a, stop) ↔ Wire.TakesAt payload grammar a cursor stop)
    {values : List α} {payload : List UInt8} : IsCounted grammar values payload ↔ 2 ≤ payload.length ∧
      Wire.itemsAt (item payload) (unsigned (payload.take 2)) 2 = .ok (values, payload.length) := by
  rw [Wire.itemsAt_eq_ok hitem]
  constructor
  · rintro ⟨count, body, hcount, hlength, hsequence, rfl⟩
    have hle : 2 ≤ (count ++ body).length := by
      rw [List.length_append]
      omega
    rw [List.take_left' hcount]
    refine ⟨hle, hlength.symm, body, hsequence, ?_, ?_⟩
    · rw [List.drop_left' hcount]
    · rw [List.length_append, hcount]
  · rintro ⟨hle, hlength, body, hsequence, hprefix, hstop⟩
    have htake : (payload.take 2).length = 2 := by
      rw [List.length_take]
      omega
    have hbody : body = payload.drop 2 := hprefix.eq_of_length (by
      rw [List.length_drop]
      omega)
    exact ⟨payload.take 2, body, htake, hlength.symm, hsequence, by rw [hbody, List.take_append_drop]⟩

theorem rowMetadata_eq_ok {payload : List UInt8} {fieldCount : ℕ} : rowMetadata payload = .ok fieldCount ↔
    ∃ names : List (List UInt8), names.length = fieldCount ∧ IsCounted IsField names payload := by
  rw [rowMetadata, Imp.check_bind_eq_ok, Imp.require_eq_ok]
  constructor
  · rintro ⟨hle, h⟩
    obtain ⟨⟨names, stop⟩, hfields, h⟩ := Imp.except_bind_eq_ok.mp h
    rw [Imp.check_bind_eq_ok, Imp.require_eq_ok] at h
    obtain ⟨rfl, h⟩ := h
    cases h
    exact ⟨names, ((Wire.itemsAt_eq_ok fieldAt_eq_ok).mp hfields).1, (isCounted_iff fieldAt_eq_ok).mpr ⟨hle, hfields⟩⟩
  · rintro ⟨names, rfl, hcounted⟩
    obtain ⟨hle, hfields⟩ := (isCounted_iff fieldAt_eq_ok).mp hcounted
    refine ⟨hle, Imp.except_bind_eq_ok.mpr ⟨_, hfields, ?_⟩⟩
    rw [Imp.check_bind_eq_ok, Imp.require_eq_ok, ((Wire.itemsAt_eq_ok fieldAt_eq_ok).mp hfields).1]
    exact ⟨rfl, rfl⟩

theorem rowReply_eq_ok {fieldCount : Option ℕ} {payload : List UInt8} {values : TextRow} :
    rowReply fieldCount payload = .ok values ↔ fieldCount = some values.length ∧ IsCounted IsValue values payload := by
  rw [rowReply, Imp.check_bind_eq_ok, Imp.require_eq_ok]
  constructor
  · rintro ⟨⟨-, hle⟩, h⟩
    rw [Imp.check_bind_eq_ok, Imp.require_eq_ok] at h
    obtain ⟨hcount, h⟩ := h
    obtain ⟨⟨values', stop⟩, hvalues, h⟩ := Imp.except_bind_eq_ok.mp h
    rw [Imp.check_bind_eq_ok, Imp.require_eq_ok] at h
    obtain ⟨rfl, h⟩ := h
    cases h
    rw [hcount, ((Wire.itemsAt_eq_ok valueAt_eq_ok).mp hvalues).1]
    exact ⟨rfl, (isCounted_iff valueAt_eq_ok).mpr ⟨hle, hvalues⟩⟩
  · rintro ⟨rfl, hcounted⟩
    obtain ⟨hle, hvalues⟩ := (isCounted_iff valueAt_eq_ok).mp hcounted
    refine ⟨⟨rfl, hle⟩, ?_⟩
    rw [Imp.check_bind_eq_ok, Imp.require_eq_ok]
    refine ⟨congrArg some ((Wire.itemsAt_eq_ok valueAt_eq_ok).mp hvalues).1,
      Imp.except_bind_eq_ok.mpr ⟨_, hvalues, ?_⟩⟩
    rw [Imp.check_bind_eq_ok, Imp.require_eq_ok]
    exact ⟨rfl, rfl⟩

/-! ## What is raised -/

theorem fieldAt_eq_error {payload : List UInt8} (cursor : ℕ) (e : Exc) (h : fieldAt payload cursor = .error e) :
    e.isBridgeError := by
  rw [fieldAt] at h
  split at h
  · cases h
    rfl
  · split at h <;> cases h
    rfl

theorem valueAt_eq_error {payload : List UInt8} (cursor : ℕ) (e : Exc) (h : valueAt payload cursor = .error e) :
    e.isBridgeError := by
  rw [valueAt] at h
  dsimp only at h
  split at h
  · split at h
    · cases h
    · split at h
      · split at h <;> cases h
        rfl
      · cases h
        rfl
  · cases h
    rfl

theorem rowMetadata_eq_error {payload : List UInt8} {e : Exc} (h : rowMetadata payload = .error e) :
    e.isBridgeError := by
  rw [rowMetadata] at h
  rcases Imp.except_bind_eq_error.mp h with h | ⟨_, -, h⟩
  · rw [(Imp.require_eq_error.mp h).2]
    rfl
  · rcases Imp.except_bind_eq_error.mp h with h | ⟨_, -, h⟩
    · exact Wire.itemsAt_eq_error fieldAt_eq_error h
    · rcases Imp.except_bind_eq_error.mp h with h | ⟨_, -, h⟩
      · rw [(Imp.require_eq_error.mp h).2]
        rfl
      · cases h

theorem rowReply_eq_error {fieldCount : Option ℕ} {payload : List UInt8} {e : Exc}
    (h : rowReply fieldCount payload = .error e) : e.isBridgeError := by
  rw [rowReply] at h
  rcases Imp.except_bind_eq_error.mp h with h | ⟨_, -, h⟩
  · rw [(Imp.require_eq_error.mp h).2]
    rfl
  · rcases Imp.except_bind_eq_error.mp h with h | ⟨_, -, h⟩
    · rw [(Imp.require_eq_error.mp h).2]
      rfl
    · rcases Imp.except_bind_eq_error.mp h with h | ⟨_, -, h⟩
      · exact Wire.itemsAt_eq_error valueAt_eq_error h
      · rcases Imp.except_bind_eq_error.mp h with h | ⟨_, -, h⟩
        · rw [(Imp.require_eq_error.mp h).2]
          rfl
        · cases h

theorem queryStep_eq_error {s : QueryState} {message : List UInt8 × List UInt8} {e : Exc}
    (h : queryStep s message = .error e) : e.isBridgeError := by
  rw [queryStep] at h
  split_ifs at h
  · rcases Imp.except_bind_eq_error.mp h with h | ⟨_, -, h⟩
    · exact rowMetadata_eq_error h
    · cases h
  · rcases Imp.except_bind_eq_error.mp h with h | ⟨_, -, h⟩
    · exact rowReply_eq_error h
    · cases h
  all_goals
    cases h
    rfl

/-! ## Replies -/

/-- What a message does that does not end the loop. -/
theorem queryStep_eq_next {s s' : QueryState} {kind payload : List UInt8} :
    queryStep s (kind, payload) = .ok (.inl s') ↔
      (kind = [84] ∧ ∃ names, IsCounted IsField names payload ∧ s' = { s with fieldCount := some names.length }) ∨
      (kind = [68] ∧ ∃ values, s.fieldCount = some values.length ∧ IsCounted IsValue values payload ∧
        s' = { s with rows := s.rows ++ [values] }) ∨
      (kind ∈ [[67], [73], [78]] ∧ s' = s) := by
  rw [queryStep]
  dsimp only
  split_ifs with hdescription hrow herror hready hnotice
  · subst hdescription
    simp only [true_and, show ([84] : List UInt8) ≠ [68] by decide, false_and, or_false,
      show ([84] : List UInt8) ∉ [[67], [73], [78]] by decide]
    rw [Imp.except_bind_eq_ok]
    constructor
    · rintro ⟨count, hcount, hret⟩
      cases hret
      obtain ⟨names, rfl, hcounted⟩ := rowMetadata_eq_ok.mp hcount
      exact ⟨names, hcounted, rfl⟩
    · rintro ⟨names, hcounted, rfl⟩
      exact ⟨names.length, rowMetadata_eq_ok.mpr ⟨names, rfl, hcounted⟩, rfl⟩
  · subst hrow
    simp only [true_and, show ([68] : List UInt8) ≠ [84] by decide, false_and, false_or, or_false,
      show ([68] : List UInt8) ∉ [[67], [73], [78]] by decide]
    rw [Imp.except_bind_eq_ok]
    constructor
    · rintro ⟨values, hvalues, hret⟩
      cases hret
      obtain ⟨hcount, hcounted⟩ := rowReply_eq_ok.mp hvalues
      exact ⟨values, hcount, hcounted, rfl⟩
    · rintro ⟨values, hcount, hcounted, rfl⟩
      exact ⟨values, rowReply_eq_ok.mpr ⟨hcount, hcounted⟩, rfl⟩
  · subst herror
    exact iff_of_false nofun (by simp)
  · subst hready
    exact iff_of_false nofun (by simp)
  · simp only [hdescription, hrow, hnotice, false_and, true_and, false_or]
    rw [Except.ok.injEq, Sum.inl.injEq, eq_comm]
  · exact iff_of_false nofun (by simp only [hdescription, hrow, hnotice, false_and, or_self, not_false_iff])

/-- Only the message that the server is ready ends the loop, with the rows so far. -/
theorem queryStep_eq_last {s : QueryState} {rows : List TextRow} {kind payload : List UInt8} :
    queryStep s (kind, payload) = .ok (.inr rows) ↔ kind = [90] ∧ rows = s.rows := by
  rw [queryStep]
  dsimp only
  split_ifs with hdescription hrow herror hready hnotice
  · subst hdescription
    rw [Imp.except_bind_eq_ok]
    exact iff_of_false (fun ⟨_, _, h⟩ => nomatch h) (fun h => absurd h.1 (by decide))
  · subst hrow
    rw [Imp.except_bind_eq_ok]
    exact iff_of_false (fun ⟨_, _, h⟩ => nomatch h) (fun h => absurd h.1 (by decide))
  · subst herror
    exact iff_of_false nofun (fun h => absurd h.1 (by decide))
  · rw [Except.ok.injEq, Sum.inr.injEq, eq_comm]
    exact (and_iff_right hready).symm
  · exact iff_of_false nofun (fun h => hready h.1)
  · exact iff_of_false nofun (fun h => hready h.1)

/-- The loop reads the rows of a reply after those it has. -/
theorem loop_iff {s : QueryState} {rows : List TextRow} {encoding : List UInt8} :
    Wire.Loop queryStep IsMessage s rows encoding ↔
      ∃ more, rows = s.rows ++ more ∧ IsQueryReply s.fieldCount more encoding := by
  constructor
  · intro h
    induction h with
    | @last s m rows _ hmessage hlast =>
        rcases m with ⟨kind, payload⟩
        obtain ⟨rfl, rfl⟩ := queryStep_eq_last.mp hlast
        exact ⟨[], (List.append_nil _).symm, .ready hmessage⟩
    | @next s s' m rows first second hmessage hnext _ ih =>
        rcases m with ⟨kind, payload⟩
        obtain ⟨more, rfl, hreply⟩ := ih
        rcases queryStep_eq_next.mp hnext with
          ⟨rfl, names, hcounted, rfl⟩ | ⟨rfl, values, hcount, hcounted, rfl⟩ | ⟨hkind, rfl⟩
        · exact ⟨more, rfl, .description hcounted hmessage hreply⟩
        · refine ⟨values :: more, ?_, ?_⟩
          · rw [List.append_assoc, List.singleton_append]
          · dsimp only at hreply
            rw [hcount] at hreply ⊢
            exact .row hcounted hmessage hreply
        · exact ⟨more, rfl, .notice hkind hmessage hreply⟩
  · rintro ⟨more, rfl, hreply⟩
    rcases s with ⟨fieldCount, done⟩
    dsimp only at hreply ⊢
    induction hreply generalizing done with
    | ready hmessage =>
        rw [List.append_nil]
        exact .last hmessage (queryStep_eq_last.mpr ⟨rfl, rfl⟩)
    | description hcounted hmessage _ ih =>
        exact .next hmessage (queryStep_eq_next.mpr (.inl ⟨rfl, _, hcounted, rfl⟩)) (ih done)
    | @row values rows payload first second hcounted hmessage _ ih =>
        have hloop := ih (done ++ [values])
        rw [List.append_assoc, List.singleton_append] at hloop
        exact .next hmessage (queryStep_eq_next.mpr (.inr (.inl ⟨rfl, values, rfl, hcounted, rfl⟩))) hloop
    | notice hkind hmessage _ ih =>
        exact .next hmessage (queryStep_eq_next.mpr (.inr (.inr ⟨hkind, rfl⟩))) (ih done)

/-- The rows that are read, and that nothing unexpected is raised. -/
theorem reads_postgresReply : Reads IsUnexpected postgresReply (IsQueryReply none) fun _ => False :=
  (reads_postgresMessage.loop (fun _ _ _ h => Bool.eq_false_iff.not.mpr (not_not.mpr (queryStep_eq_error h))) {}).congr
    (fun rows _ => loop_iff.trans ⟨fun ⟨_, heq, h⟩ => heq ▸ h, fun h => ⟨rows, rfl, h⟩⟩) fun _ => Iff.rfl

/-- Where the reader takes exactly the messages of a reply, and raises only `ProviderBridgeError`. -/
structure PostgresExact (c : Connection) : Prop where
  returns_iff : ∀ rows rest, (∃ c', postgresReply c = .ok rows c' ∧ c'.data = rest) ↔
    ∃ encoding, IsQueryReply none rows encoding ∧ c.data = encoding ++ rest
  raises : ∀ e c', postgresReply c = .error (.raised e) c' → e.isBridgeError
  waits : ∀ c', postgresReply c = .error .waits c' → c.closed = false

theorem postgresExact (c : Connection) : PostgresExact c where
  returns_iff := reads_postgresReply.ok_iff c
  raises e c' h := Bool.of_not_eq_false fun hunexpected => (reads_postgresReply.wrong_iff c).mp ⟨e, c', hunexpected, h⟩
  waits := reads_postgresReply.open_of_waits c

end StateWeaver.Bridge
