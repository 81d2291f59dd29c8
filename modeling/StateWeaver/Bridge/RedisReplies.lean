import StateWeaver.Bridge.WireReaders

/-!
# What Redis replies

A reply of Redis is a text, a number, nothing, or a list of replies. The reader leaves the numbers to `int` and the
texts to the decoder of UTF-8, which take more than they should and raise what they like. So what the reader takes has
the grammar of replies with what those two take for numbers and texts, and the streams on which it breaks are those on
which one of the two does, or where replies are nested too deeply.
-/

namespace StateWeaver.Bridge

open Wire (Reader Connection Reads Sequence)

/-- What Redis replies. -/
inductive Reply where
  | null
  | integer (n : ℤ)
  | text (content : List Char)
  | array (items : List Reply)

/-! ## The reader -/

/-- `int(line())`. -/
def redisNumber : Reader Exc ℤ := do
  let content ← line
  Imp.lift ((match Py.intOfBytes content with
    | none => .error (Exc.other "ValueError")
    | some n => .ok n : Except Exc ℤ).mapError .raised)

/-- `content.decode("utf-8")`. -/
def decodedText (content : List UInt8) : Reader Exc (List Char) :=
  Imp.lift ((match Py.decodeUtf8 content with
    | none => .error (Exc.other "UnicodeDecodeError")
    | some chars => .ok chars : Except Exc (List Char)).mapError .raised)

/-- The branch for `+`. -/
def redisSimple : Reader Exc Reply := do
  let content ← line
  let chars ← decodedText content
  return .text chars

/-- The branch for `-`. -/
def redisRejected : Reader Exc Reply := do
  let _ ← line
  reject "Redis rejected the fixed command"

/-- The branch for `:`. -/
def redisInteger : Reader Exc Reply := do
  let n ← redisNumber
  return .integer n

/-- The branch for `$`, after the length. -/
def redisBulk (length : ℤ) : Reader Exc Reply :=
  if length = -1 then
    return .null
  else do
    let value ← readExact length
    let ending ← readExact 2
    if ending.1 = crlf then do
      let chars ← decodedText value.1
      return .text chars
    else
      reject "Redis bulk reply was invalid"

/-- The branch for `*`, after the length. -/
def redisArray (item : Reader Exc Reply) (length : ℤ) : Reader Exc Reply :=
  if 0 ≤ length ∧ length ≤ 64 then do
    let items ← Wire.many item length.toNat
    return .array items
  else
    reject "Redis array reply was invalid"

/-- `_redis_read`, after the first byte. -/
def redisBody (item : Reader Exc Reply) (kind : List UInt8) : Reader Exc Reply :=
  if kind = [43] then redisSimple
  else if kind = [45] then redisRejected
  else if kind = [58] then redisInteger
  else if kind = [36] then do
    let length ← redisNumber
    redisBulk length
  else if kind = [42] then do
    let length ← redisNumber
    redisArray item length
  else reject "Redis reply type was invalid"

/-- `_redis_read`, if so many calls of it may be nested. -/
def redisRead : ℕ → Reader Exc Reply
  | 0 => throw (.raised (Exc.other "RecursionError"))
  | frames + 1 => do
    let kind ← readExact 1
    redisBody (redisRead frames) kind.1

/-! ## The grammar -/

/-- What some content stands for as a number, and as a text in one line. -/
structure Notation where
  number : List UInt8 → ℤ → Prop
  simple : List UInt8 → List Char → Prop

mutual

/-- The encodings of a reply. -/
def IsReply (how : Notation) : Reply → List UInt8 → Prop
  | .null, encoding => ∃ content, IsLine content ∧ how.number content (-1) ∧ encoding = 36 :: (content ++ crlf)
  | .integer n, encoding => ∃ content, IsLine content ∧ how.number content n ∧ encoding = 58 :: (content ++ crlf)
  | .text chars, encoding =>
      (∃ content, IsLine content ∧ how.simple content chars ∧ encoding = 43 :: (content ++ crlf)) ∨
        ∃ content value : List UInt8, IsLine content ∧ how.number content value.length ∧
          value.length ≤ maxProviderReplyBytes ∧ Py.decodeUtf8 value = some chars ∧
          encoding = 36 :: (content ++ crlf ++ value ++ crlf)
  | .array items, encoding => ∃ content body, IsLine content ∧ how.number content items.length ∧ items.length ≤ 64 ∧
      IsReplies how items body ∧ encoding = 42 :: (content ++ crlf ++ body)

/-- The encodings of some replies, one after another. -/
def IsReplies (how : Notation) : List Reply → List UInt8 → Prop
  | [], encoding => encoding = []
  | reply :: replies, encoding =>
      ∃ first second, IsReply how reply first ∧ IsReplies how replies second ∧ encoding = first ++ second

end

/-- Numbers are an optional minus sign and decimal digits, and a text in one line has no line ends. -/
def strict : Notation where
  number := Py.IsDecimal
  simple content chars := Py.decodeUtf8 content = some chars ∧ 13 ∉ content ∧ 10 ∉ content

/-- What `int` and the decoder take. -/
def tolerant : Notation where
  number content n := Py.intOfBytes content = some n
  simple content chars := Py.decodeUtf8 content = some chars

/-- Whether replies are nested at most so deeply. -/
def Reply.DepthLe : ℕ → Reply → Prop
  | 0, _ => False
  | frames + 1, .array items => ∀ item ∈ items, item.DepthLe frames
  | _ + 1, _ => True

/-- The encodings that the reader takes. -/
def Taken (frames : ℕ) (reply : Reply) (encoding : List UInt8) : Prop :=
  reply.DepthLe frames ∧ IsReply tolerant reply encoding

/-- The streams on which `int` or the decoder raises, or where replies are nested too deeply. -/
inductive Escapes : ℕ → List UInt8 → Prop
  | deep (data : List UInt8) : Escapes 0 data
  | simple {frames : ℕ} {content : List UInt8} (rest : List UInt8) : IsLine content → Py.decodeUtf8 content = none →
      Escapes (frames + 1) (43 :: (content ++ crlf ++ rest))
  | number {frames : ℕ} {kind : UInt8} {content : List UInt8} (rest : List UInt8) : kind ∈ [58, 36, 42] →
      IsLine content → Py.intOfBytes content = none → Escapes (frames + 1) (kind :: (content ++ crlf ++ rest))
  | bulk {frames : ℕ} {content value : List UInt8} (rest : List UInt8) : IsLine content →
      Py.intOfBytes content = some (value.length : ℤ) → value.length ≤ maxProviderReplyBytes →
      Py.decodeUtf8 value = none → Escapes (frames + 1) (36 :: (content ++ crlf ++ value ++ crlf ++ rest))
  | item {frames count : ℕ} {content body rest : List UInt8} {items : List Reply} : IsLine content →
      Py.intOfBytes content = some (count : ℤ) → count ≤ 64 → items.length < count →
      Sequence (Taken frames) items body → Escapes frames rest →
      Escapes (frames + 1) (42 :: (content ++ crlf ++ body ++ rest))

theorem sequence_taken_iff {frames : ℕ} {items : List Reply} {encoding : List UInt8} :
    Sequence (Taken frames) items encoding ↔
      (Reply.array items).DepthLe (frames + 1) ∧ IsReplies tolerant items encoding := by
  rw [Reply.DepthLe]
  induction items generalizing encoding with
  | nil =>
      rw [Sequence, IsReplies]
      exact (and_iff_right nofun).symm
  | cons item items ih =>
      rw [Sequence, IsReplies, List.forall_mem_cons]
      simp only [ih, Taken]
      constructor
      · rintro ⟨first, second, ⟨hdepth, hfirst⟩, ⟨hdepths, hsecond⟩, rfl⟩
        exact ⟨⟨hdepth, hdepths⟩, first, second, hfirst, hsecond, rfl⟩
      · rintro ⟨⟨hdepth, hdepths⟩, first, second, hfirst, hsecond, rfl⟩
        exact ⟨first, second, ⟨hdepth, hfirst⟩, ⟨hdepths, hsecond⟩, rfl⟩

/-! ## What the reader takes -/

theorem reads_redisNumber : Reads IsUnexpected redisNumber
    (fun n encoding => ∃ content, IsLine content ∧ Py.intOfBytes content = some n ∧ encoding = content ++ crlf)
    fun data => ∃ content rest, IsLine content ∧ Py.intOfBytes content = none ∧ data = content ++ crlf ++ rest := by
  refine (reads_line.bind fun content => Wire.reads_lift _).congr (fun n encoding => ?_) fun data => ?_
  · constructor
    · rintro ⟨content, _, _, ⟨hline, rfl⟩, ⟨hnumber, rfl⟩, rfl⟩
      refine ⟨content, hline, ?_, List.append_nil _⟩
      split at hnumber
      · cases hnumber
      · next hsome => rw [hsome, Except.ok.inj hnumber]
    · rintro ⟨content, hline, hnumber, rfl⟩
      exact ⟨content, _, [], ⟨hline, rfl⟩, ⟨by rw [hnumber], rfl⟩, (List.append_nil _).symm⟩
  · constructor
    · rintro (h | ⟨content, _, rest, ⟨hline, rfl⟩, ⟨e, -, hnumber⟩, rfl⟩)
      · exact h.elim
      · refine ⟨content, rest, hline, ?_, rfl⟩
        split at hnumber
        · next hnone => exact hnone
        · cases hnumber
    · rintro ⟨content, rest, hline, hnone, rfl⟩
      exact .inr ⟨content, _, rest, ⟨hline, rfl⟩, ⟨Exc.other "ValueError", rfl, by rw [hnone]⟩, rfl⟩

theorem reads_decodedText (content : List UInt8) : Reads IsUnexpected (decodedText content)
    (fun chars encoding => Py.decodeUtf8 content = some chars ∧ encoding = [])
    fun _ => Py.decodeUtf8 content = none := by
  refine (Wire.reads_lift _).congr (fun chars encoding => and_congr_left fun _ => ?_) fun data => ?_
  · split
    · next hnone => rw [hnone]; exact iff_of_false nofun nofun
    · next hsome => rw [hsome, Except.ok.injEq, Option.some.injEq]
  · split
    · next hnone => exact iff_of_true ⟨Exc.other "UnicodeDecodeError", rfl, rfl⟩ hnone
    · next hsome =>
      rw [hsome]
      exact iff_of_false (fun ⟨_, _, h⟩ => nomatch h) nofun

theorem reads_redisSimple (frames : ℕ) : Reads IsUnexpected redisSimple
    (fun reply encoding => Taken (frames + 1) reply (43 :: encoding)) fun data => Escapes (frames + 1) (43 :: data) := by
  refine (reads_line.bind fun content => (reads_decodedText content).bind fun chars => Wire.reads_pure _).congr
    (fun reply encoding => ?_) fun data => ?_
  · constructor
    · rintro ⟨content, _, _, ⟨hline, rfl⟩, ⟨chars, _, _, ⟨hchars, rfl⟩, ⟨rfl, rfl⟩, rfl⟩, rfl⟩
      exact ⟨trivial, .inl ⟨content, hline, hchars, by rw [List.append_nil, List.append_nil]⟩⟩
    · rintro ⟨-, hreply⟩
      cases reply with
      | text chars =>
          rcases hreply with ⟨content, hline, hchars, h⟩ | ⟨_, _, -, -, -, -, h⟩ <;> cases h
          exact ⟨content, _, [], ⟨hline, rfl⟩, ⟨chars, [], [], ⟨hchars, rfl⟩, ⟨rfl, rfl⟩, rfl⟩,
            (List.append_nil _).symm⟩
      | null => obtain ⟨_, -, -, h⟩ := hreply; cases h
      | integer n => obtain ⟨_, -, -, h⟩ := hreply; cases h
      | array items => obtain ⟨_, _, -, -, -, -, h⟩ := hreply; cases h
  · constructor
    · rintro (h | ⟨content, _, rest, ⟨hline, rfl⟩, hnone | ⟨_, _, _, _, h, _⟩, rfl⟩)
      · exact h.elim
      · exact .simple rest hline hnone
      · exact h.elim
    · intro h
      cases h with
      | simple rest hline hnone => exact .inr ⟨_, _, rest, ⟨hline, rfl⟩, .inl hnone, rfl⟩
      | number rest hkind => exact absurd hkind (by decide)

theorem reads_redisRejected (frames : ℕ) : Reads IsUnexpected redisRejected
    (fun reply encoding => Taken (frames + 1) reply (45 :: encoding)) fun data => Escapes (frames + 1) (45 :: data) := by
  refine (reads_line.bind fun content => reads_reject _).congr (fun reply encoding => ?_) fun data => ?_
  · refine iff_of_false (fun ⟨_, _, _, _, h, _⟩ => h) fun ⟨_, hreply⟩ => ?_
    cases reply with
    | text chars => rcases hreply with ⟨_, -, -, h⟩ | ⟨_, _, -, -, -, -, h⟩ <;> cases h
    | null => obtain ⟨_, -, -, h⟩ := hreply; cases h
    | integer n => obtain ⟨_, -, -, h⟩ := hreply; cases h
    | array items => obtain ⟨_, _, -, -, -, -, h⟩ := hreply; cases h
  · refine iff_of_false (fun h => h.elim id fun ⟨_, _, _, _, h, _⟩ => h) fun h => ?_
    cases h with
    | number rest hkind => exact absurd hkind (by decide)

theorem reads_redisInteger (frames : ℕ) : Reads IsUnexpected redisInteger
    (fun reply encoding => Taken (frames + 1) reply (58 :: encoding)) fun data => Escapes (frames + 1) (58 :: data) := by
  refine (reads_redisNumber.bind fun n => Wire.reads_pure _).congr (fun reply encoding => ?_) fun data => ?_
  · constructor
    · rintro ⟨n, _, _, ⟨content, hline, hnumber, rfl⟩, ⟨rfl, rfl⟩, rfl⟩
      exact ⟨trivial, content, hline, hnumber, by rw [List.append_nil]⟩
    · rintro ⟨-, hreply⟩
      cases reply with
      | integer n =>
          obtain ⟨content, hline, hnumber, h⟩ := hreply
          cases h
          exact ⟨n, _, [], ⟨content, hline, hnumber, rfl⟩, ⟨rfl, rfl⟩, (List.append_nil _).symm⟩
      | text chars => rcases hreply with ⟨_, -, -, h⟩ | ⟨_, _, -, -, -, -, h⟩ <;> cases h
      | null => obtain ⟨_, -, -, h⟩ := hreply; cases h
      | array items => obtain ⟨_, _, -, -, -, -, h⟩ := hreply; cases h
  · constructor
    · rintro (⟨content, rest, hline, hnone, rfl⟩ | ⟨_, _, _, _, h, _⟩)
      · exact .number rest (by decide) hline hnone
      · exact h.elim
    · intro h
      cases h with
      | number rest hkind hline hnone => exact .inl ⟨_, rest, hline, hnone, rfl⟩

/-- What comes after the length of a bulk string. -/
theorem reads_redisBulk (length : ℤ) : Reads IsUnexpected (redisBulk length)
    (fun reply encoding => (length = -1 ∧ reply = .null ∧ encoding = []) ∨
      ∃ (value : List UInt8) (chars : List Char), length = value.length ∧ value.length ≤ maxProviderReplyBytes ∧
        Py.decodeUtf8 value = some chars ∧ reply = .text chars ∧ encoding = value ++ crlf)
    fun data => ∃ value rest : List UInt8, length = value.length ∧ value.length ≤ maxProviderReplyBytes ∧
      Py.decodeUtf8 value = none ∧ data = value ++ crlf ++ rest := by
  rw [redisBulk]
  split
  · next hminus =>
    subst hminus
    refine (Wire.reads_pure _).congr (fun reply encoding => ?_) fun data => ?_
    · constructor
      · exact fun h => .inl ⟨rfl, h⟩
      · rintro (⟨-, h⟩ | ⟨value, -, h, -⟩)
        · exact h
        · omega
    · refine iff_of_false id ?_
      rintro ⟨value, -, h, -⟩
      omega
  · next hminus =>
    refine ((reads_readExact length).bind fun value => (reads_readExact 2).bind fun ending =>
      ((reads_decodedText value.1).bind fun chars => Wire.reads_pure (Reply.text chars)).require
        (Bool.noConfusion : ¬IsUnexpected (Exc.bridge _))).congr (fun reply encoding => ?_) fun data => ?_
    · constructor
      · rintro ⟨value, _, _, ⟨hbound, rfl⟩, ⟨ending, _, _, ⟨-, rfl⟩, ⟨hcrlf, chars, _, _, ⟨hchars, rfl⟩, ⟨rfl, rfl⟩, rfl⟩,
          rfl⟩, rfl⟩
        have hlength := value.2
        refine .inr ⟨value.1, chars, by omega, by omega, hchars, rfl, ?_⟩
        rw [hcrlf, List.append_nil, List.append_nil]
      · rintro (⟨h, -⟩ | ⟨value, chars, rfl, hbound, hchars, rfl, rfl⟩)
        · exact absurd h hminus
        · refine ⟨⟨value, rfl⟩, value, crlf, ⟨⟨by omega, by omega⟩, rfl⟩, ⟨⟨crlf, rfl⟩, crlf, [], ⟨by decide, rfl⟩,
            ⟨rfl, chars, [], [], ⟨hchars, rfl⟩, ⟨rfl, rfl⟩, rfl⟩, rfl⟩, rfl⟩
    · constructor
      · rintro (h | ⟨value, _, _, ⟨hbound, rfl⟩, h | ⟨ending, _, rest, ⟨-, rfl⟩, ⟨hcrlf, hnone | ⟨_, _, _, _, h, _⟩⟩, rfl⟩,
          rfl⟩)
        · exact h.elim
        · exact h.elim
        · have hlength := value.2
          exact ⟨value.1, rest, by omega, by omega, hnone, by rw [hcrlf, List.append_assoc]⟩
        · exact h.elim
      · rintro ⟨value, rest, rfl, hbound, hnone, rfl⟩
        exact .inr ⟨⟨value, rfl⟩, value, crlf ++ rest, ⟨⟨by omega, by omega⟩, rfl⟩,
          .inr ⟨⟨crlf, rfl⟩, crlf, rest, ⟨by decide, rfl⟩, ⟨rfl, .inl hnone⟩, rfl⟩, List.append_assoc _ _ _⟩

/-- What comes after the length of a list. -/
theorem reads_redisArray {frames : ℕ} {item : Reader Exc Reply}
    (h : Reads IsUnexpected item (Taken frames) (Escapes frames)) (length : ℤ) :
    Reads IsUnexpected (redisArray item length)
      (fun reply encoding => ∃ items : List Reply, length = items.length ∧ items.length ≤ 64 ∧
        Sequence (Taken frames) items encoding ∧ reply = .array items)
      fun data => ∃ (count : ℕ) (items : List Reply) (body rest : List UInt8), length = count ∧ count ≤ 64 ∧
        items.length < count ∧ Sequence (Taken frames) items body ∧ Escapes frames rest ∧ data = body ++ rest := by
  refine Reads.congr (((h.many length.toNat).bind fun items => Wire.reads_pure (Reply.array items)).require
    (Bool.noConfusion : ¬IsUnexpected (Exc.bridge _))) (fun reply encoding => ?_) fun data => ?_
  · constructor
    · rintro ⟨hbound, items, body, _, ⟨hlength, hitems⟩, ⟨rfl, rfl⟩, rfl⟩
      refine ⟨items, by omega, by omega, ?_, rfl⟩
      rwa [List.append_nil]
    · rintro ⟨items, rfl, hbound, hitems, rfl⟩
      exact ⟨⟨by omega, by omega⟩, items, encoding, [], ⟨rfl, hitems⟩, ⟨rfl, rfl⟩, (List.append_nil _).symm⟩
  · constructor
    · rintro ⟨hbound, ⟨items, body, rest, hlength, hitems, hescapes, rfl⟩ | ⟨_, _, _, _, hfalse, _⟩⟩
      · exact ⟨length.toNat, items, body, rest, by omega, by omega, hlength, hitems, hescapes, rfl⟩
      · exact hfalse.elim
    · rintro ⟨count, items, body, rest, rfl, hbound, hlength, hitems, hescapes, rfl⟩
      exact ⟨⟨by omega, by omega⟩, .inl ⟨items, body, rest, hlength, hitems, hescapes, rfl⟩⟩

/-- The branch for `$`. -/
theorem reads_bulkBranch (frames : ℕ) : Reads IsUnexpected (redisNumber >>= redisBulk)
    (fun reply encoding => Taken (frames + 1) reply (36 :: encoding)) fun data => Escapes (frames + 1) (36 :: data) := by
  refine (reads_redisNumber.bind reads_redisBulk).congr (fun reply encoding => ?_) fun data => ?_
  · constructor
    · rintro ⟨_, _, _, ⟨content, hline, hnumber, rfl⟩, ⟨rfl, rfl, rfl⟩ | ⟨value, chars, rfl, hbound, hchars, rfl, rfl⟩,
        rfl⟩
      · exact ⟨trivial, content, hline, hnumber, by rw [List.append_nil]⟩
      · exact ⟨trivial, .inr ⟨content, value, hline, hnumber, hbound, hchars, by simp only [List.append_assoc]⟩⟩
    · rintro ⟨-, hreply⟩
      cases reply with
      | null =>
          obtain ⟨content, hline, hnumber, h⟩ := hreply
          cases h
          exact ⟨-1, _, [], ⟨content, hline, hnumber, rfl⟩, .inl ⟨rfl, rfl, rfl⟩, (List.append_nil _).symm⟩
      | text chars =>
          rcases hreply with ⟨_, -, -, h⟩ | ⟨content, value, hline, hnumber, hbound, hchars, h⟩ <;> cases h
          exact ⟨value.length, _, value ++ crlf, ⟨content, hline, hnumber, rfl⟩,
            .inr ⟨value, chars, rfl, hbound, hchars, rfl, rfl⟩, by simp only [List.append_assoc]⟩
      | integer n => obtain ⟨_, -, -, h⟩ := hreply; cases h
      | array items => obtain ⟨_, _, -, -, -, -, h⟩ := hreply; cases h
  · constructor
    · rintro (⟨content, rest, hline, hnone, rfl⟩ |
        ⟨_, _, _, ⟨content, hline, hnumber, rfl⟩, ⟨value, rest, rfl, hbound, hnone, rfl⟩, rfl⟩)
      · exact .number rest (by decide) hline hnone
      · have h := @Escapes.bulk frames _ _ rest hline hnumber hbound hnone
        simpa only [List.append_assoc] using h
    · intro h
      cases h with
      | number rest hkind hline hnone => exact .inl ⟨_, rest, hline, hnone, rfl⟩
      | bulk rest hline hnumber hbound hnone =>
          exact .inr ⟨_, _, _, ⟨_, hline, hnumber, rfl⟩, ⟨_, rest, rfl, hbound, hnone, rfl⟩, by
            simp only [List.append_assoc]⟩

/-- The branch for `*`. -/
theorem reads_arrayBranch {frames : ℕ} {item : Reader Exc Reply}
    (h : Reads IsUnexpected item (Taken frames) (Escapes frames)) :
    Reads IsUnexpected (redisNumber >>= redisArray item)
      (fun reply encoding => Taken (frames + 1) reply (42 :: encoding))
      fun data => Escapes (frames + 1) (42 :: data) := by
  refine (reads_redisNumber.bind (reads_redisArray h)).congr (fun reply encoding => ?_) fun data => ?_
  · constructor
    · rintro ⟨_, _, body, ⟨content, hline, hnumber, rfl⟩, ⟨items, rfl, hbound, hitems, rfl⟩, rfl⟩
      obtain ⟨hdepth, hitems⟩ := sequence_taken_iff.mp hitems
      exact ⟨hdepth, content, body, hline, hnumber, hbound, hitems, rfl⟩
    · rintro ⟨hdepth, hreply⟩
      cases reply with
      | array items =>
          obtain ⟨content, body, hline, hnumber, hbound, hitems, h⟩ := hreply
          cases h
          exact ⟨items.length, _, body, ⟨content, hline, hnumber, rfl⟩,
            ⟨items, rfl, hbound, sequence_taken_iff.mpr ⟨hdepth, hitems⟩, rfl⟩, rfl⟩
      | text chars => rcases hreply with ⟨_, -, -, h⟩ | ⟨_, _, -, -, -, -, h⟩ <;> cases h
      | null => obtain ⟨_, -, -, h⟩ := hreply; cases h
      | integer n => obtain ⟨_, -, -, h⟩ := hreply; cases h
  · constructor
    · rintro (⟨content, rest, hline, hnone, rfl⟩ | ⟨_, _, _, ⟨content, hline, hnumber, rfl⟩,
        ⟨count, items, body, rest, rfl, hbound, hlength, hitems, hescapes, rfl⟩, rfl⟩)
      · exact .number rest (by decide) hline hnone
      · have h := Escapes.item hline hnumber hbound hlength hitems hescapes
        simpa only [List.append_assoc] using h
    · intro h
      cases h with
      | number rest hkind hline hnone => exact .inl ⟨_, rest, hline, hnone, rfl⟩
      | item hline hnumber hbound hlength hitems hescapes =>
          exact .inr ⟨_, _, _, ⟨_, hline, hnumber, rfl⟩, ⟨_, _, _, _, rfl, hbound, hlength, hitems, hescapes, rfl⟩, by
            simp only [List.append_assoc]⟩

/-- An encoding starts with one of four bytes. -/
theorem exists_of_isReply {how : Notation} {reply : Reply} {encoding : List UInt8} (h : IsReply how reply encoding) :
    ∃ kind rest, kind ∈ [43, 58, 36, 42] ∧ encoding = kind :: rest := by
  cases reply with
  | null => obtain ⟨_, -, -, rfl⟩ := h; exact ⟨36, _, by decide, rfl⟩
  | integer n => obtain ⟨_, -, -, rfl⟩ := h; exact ⟨58, _, by decide, rfl⟩
  | text chars =>
      rcases h with ⟨_, -, -, rfl⟩ | ⟨_, _, -, -, -, -, rfl⟩
      · exact ⟨43, _, by decide, rfl⟩
      · exact ⟨36, _, by decide, rfl⟩
  | array items => obtain ⟨_, _, -, -, -, -, rfl⟩ := h; exact ⟨42, _, by decide, rfl⟩

theorem exists_of_escapes {frames : ℕ} {data : List UInt8} (h : Escapes (frames + 1) data) :
    ∃ kind rest, kind ∈ [43, 58, 36, 42] ∧ data = kind :: rest := by
  cases h with
  | simple => exact ⟨43, _, by decide, rfl⟩
  | @number _ kind _ rest hkind =>
      exact ⟨kind, _, List.mem_cons_of_mem 43 hkind, rfl⟩
  | bulk => exact ⟨36, _, by decide, rfl⟩
  | item => exact ⟨42, _, by decide, rfl⟩

theorem reads_redisBody {frames : ℕ} {item : Reader Exc Reply}
    (h : Reads IsUnexpected item (Taken frames) (Escapes frames)) {kind : List UInt8} (hkind : kind.length = 1) :
    Reads IsUnexpected (redisBody item kind) (fun reply encoding => Taken (frames + 1) reply (kind ++ encoding))
      fun data => Escapes (frames + 1) (kind ++ data) := by
  obtain ⟨b, rfl⟩ := List.length_eq_one_iff.mp hkind
  rw [redisBody]
  split_ifs with hsimple hrejected hinteger hbulk harray
  · rw [hsimple]
    exact reads_redisSimple frames
  · rw [hrejected]
    exact reads_redisRejected frames
  · rw [hinteger]
    exact reads_redisInteger frames
  · rw [hbulk]
    exact reads_bulkBranch frames
  · rw [harray]
    exact reads_arrayBranch h
  · have hnone : ∀ k ∈ [43, 58, 36, 42], b ≠ k := by
      simp only [List.cons.injEq, and_true] at hsimple hinteger hbulk harray
      simp only [List.forall_mem_cons]
      exact ⟨hsimple, hinteger, hbulk, harray, nofun⟩
    refine (reads_reject _).congr (fun reply encoding => iff_of_false id fun hreply => ?_) fun data =>
      iff_of_false id fun hescapes => ?_
    · obtain ⟨k, _, hmem, hcons⟩ := exists_of_isReply hreply.2
      exact hnone k hmem (List.cons.inj hcons).1
    · obtain ⟨k, _, hmem, hcons⟩ := exists_of_escapes hescapes
      exact hnone k hmem (List.cons.inj hcons).1

/-- What `_redis_read` takes, and the streams on which it breaks. -/
theorem reads_redisRead (frames : ℕ) : Reads IsUnexpected (redisRead frames) (Taken frames) (Escapes frames) := by
  induction frames with
  | zero =>
      refine (Wire.reads_throw (Exc.other "RecursionError")).congr (fun reply encoding => ?_) fun data => ?_
      · refine iff_of_false id fun h => ?_
        cases reply <;> exact h.1
      · exact iff_of_true rfl (.deep data)
  | succ frames ih =>
      refine ((reads_readExact 1).bind fun kind => reads_redisBody ih kind.2).congr (fun reply encoding => ?_)
        fun data => ?_
      · constructor
        · rintro ⟨kind, _, second, ⟨-, rfl⟩, htaken, rfl⟩
          exact htaken
        · intro htaken
          obtain ⟨kind, rest, -, rfl⟩ := exists_of_isReply htaken.2
          exact ⟨⟨[kind], rfl⟩, [kind], rest, ⟨by decide, rfl⟩, htaken, rfl⟩
      · constructor
        · rintro (hfalse | ⟨kind, _, rest, ⟨-, rfl⟩, hescapes, rfl⟩)
          · exact hfalse.elim
          · exact hescapes
        · intro hescapes
          obtain ⟨kind, rest, -, rfl⟩ := exists_of_escapes hescapes
          exact .inr ⟨⟨[kind], rfl⟩, [kind], rest, ⟨by decide, rfl⟩, hescapes, rfl⟩

/-! ## What the reader should take -/

theorem intOfBytes_eq_or_none {content : List UInt8} {n : ℤ} (h : Py.IsDecimal content n) :
    Py.intOfBytes content = some n ∨ Py.intOfBytes content = none := by
  rw [Py.intOfBytes_of_isDecimal h]
  split
  · exact .inl rfl
  · exact .inr rfl

/-- Encodings of replies are taken one after another, up to the first one on which the reader breaks. -/
theorem sequence_taken_or_escapes {frames : ℕ} {replies : List Reply} {encoding : List UInt8} (rest : List UInt8)
    (h : IsReplies strict replies encoding)
    (hitem : ∀ {reply encoding} rest, IsReply strict reply encoding →
      Taken frames reply encoding ∨ Escapes frames (encoding ++ rest)) :
    Sequence (Taken frames) replies encoding ∨ ∃ (items : List Reply) (body remaining : List UInt8),
      items.length < replies.length ∧ Sequence (Taken frames) items body ∧ Escapes frames remaining ∧
        encoding ++ rest = body ++ remaining := by
  induction replies generalizing encoding with
  | nil => exact .inl h
  | cons reply replies ih =>
      obtain ⟨first, second, hfirst, hsecond, rfl⟩ := h
      rcases hitem (second ++ rest) hfirst with htaken | hescapes
      · rcases ih hsecond with htaken' | ⟨items, body, remaining, hlength, hitems, hescapes, heq⟩
        · exact .inl ⟨first, second, htaken, htaken', rfl⟩
        · refine .inr ⟨reply :: items, first ++ body, remaining, Nat.succ_lt_succ hlength,
            ⟨first, body, htaken, hitems, rfl⟩, hescapes, ?_⟩
          rw [List.append_assoc, List.append_assoc, heq]
      · refine .inr ⟨[], [], first ++ (second ++ rest), Nat.succ_pos _, rfl, hescapes, ?_⟩
        rw [List.append_assoc, List.nil_append]

/-- An encoding of a reply is taken for it, or the reader breaks on it. -/
theorem taken_or_escapes (frames : ℕ) {reply : Reply} {encoding : List UInt8} (rest : List UInt8)
    (h : IsReply strict reply encoding) : Taken frames reply encoding ∨ Escapes frames (encoding ++ rest) := by
  induction frames generalizing reply encoding rest with
  | zero => exact .inr (.deep _)
  | succ frames ih =>
      cases reply with
      | null =>
          obtain ⟨content, hline, hnumber, rfl⟩ := h
          rcases intOfBytes_eq_or_none hnumber with hsome | hnone
          · exact .inl ⟨trivial, content, hline, hsome, rfl⟩
          · exact .inr (.number rest (by decide) hline hnone)
      | integer n =>
          obtain ⟨content, hline, hnumber, rfl⟩ := h
          rcases intOfBytes_eq_or_none hnumber with hsome | hnone
          · exact .inl ⟨trivial, content, hline, hsome, rfl⟩
          · exact .inr (.number rest (by decide) hline hnone)
      | text chars =>
          rcases h with ⟨content, hline, hsimple, rfl⟩ | ⟨content, value, hline, hnumber, hbound, hchars, rfl⟩
          · exact .inl ⟨trivial, .inl ⟨content, hline, hsimple.1, rfl⟩⟩
          · rcases intOfBytes_eq_or_none hnumber with hsome | hnone
            · exact .inl ⟨trivial, .inr ⟨content, value, hline, hsome, hbound, hchars, rfl⟩⟩
            · have hescapes := @Escapes.number frames _ _ (value ++ crlf ++ rest)
                (by decide : (36 : UInt8) ∈ [58, 36, 42]) hline hnone
              rw [← List.append_assoc, ← List.append_assoc] at hescapes
              exact .inr hescapes
      | array items =>
          obtain ⟨content, body, hline, hnumber, hbound, hitems, rfl⟩ := h
          rcases intOfBytes_eq_or_none hnumber with hsome | hnone
          · rcases sequence_taken_or_escapes rest hitems (fun rest h => ih rest h) with
              htaken | ⟨before, first, remaining, hlength, hbefore, hescapes, heq⟩
            · obtain ⟨hdepth, htaken⟩ := sequence_taken_iff.mp htaken
              exact .inl ⟨hdepth, content, body, hline, hsome, hbound, htaken, rfl⟩
            · have hescapes := Escapes.item hline hsome hbound hlength hbefore hescapes
              rw [List.append_assoc, ← heq, ← List.append_assoc] at hescapes
              exact .inr hescapes
          · have hescapes := @Escapes.number frames _ _ (body ++ rest)
              (by decide : (42 : UInt8) ∈ [58, 36, 42]) hline hnone
            rw [← List.append_assoc] at hescapes
            exact .inr hescapes

/-- Where the reader takes exactly the encodings of replies, and raises only `ProviderBridgeError`. -/
structure RedisExact (frames : ℕ) (c : Connection) : Prop where
  returns_iff : ∀ reply rest, (∃ c', redisRead frames c = .ok reply c' ∧ c'.data = rest) ↔
    ∃ encoding, IsReply strict reply encoding ∧ c.data = encoding ++ rest
  raises : ∀ e c', redisRead frames c = .error (.raised e) c' → e.isBridgeError
  waits : ∀ c', redisRead frames c = .error .waits c' → c.closed = false

/-- Whether the stream begins with what is taken for a reply and is no encoding of it. -/
def Tolerated (frames : ℕ) (data : List UInt8) : Prop :=
  ∃ reply encoding rest, Taken frames reply encoding ∧ ¬IsReply strict reply encoding ∧ data = encoding ++ rest

theorem redisExact_iff {frames : ℕ} {c : Connection} :
    RedisExact frames c ↔ ¬Escapes frames c.data ∧ ¬Tolerated frames c.data := by
  have hreads := reads_redisRead frames
  constructor
  · intro h
    constructor
    · intro hescapes
      obtain ⟨e, c', hunexpected, hrun⟩ := (hreads.wrong_iff c).mpr hescapes
      exact absurd (h.raises e c' hrun) (Bool.eq_false_iff.mp hunexpected)
    · rintro ⟨reply, encoding, rest, htaken, hnot, hdata⟩
      obtain ⟨encoding', hreply, hdata'⟩ :=
        (h.returns_iff reply rest).mp ((hreads.ok_iff c reply rest).mpr ⟨encoding, htaken, hdata⟩)
      obtain rfl : encoding = encoding' := List.append_cancel_right (hdata.symm.trans hdata')
      exact hnot hreply
  · rintro ⟨hescapes, htolerated⟩
    refine ⟨fun reply rest => (hreads.ok_iff c reply rest).trans ⟨?_, ?_⟩, fun e c' hrun => ?_, hreads.open_of_waits c⟩
    · rintro ⟨encoding, htaken, hdata⟩
      exact ⟨encoding, not_not.mp fun hnot => htolerated ⟨reply, encoding, rest, htaken, hnot, hdata⟩, hdata⟩
    · rintro ⟨encoding, hreply, hdata⟩
      exact ⟨encoding, (taken_or_escapes frames rest hreply).resolve_right (hdata ▸ hescapes), hdata⟩
    · refine Bool.not_eq_false _ ▸ fun hunexpected => hescapes ?_
      exact (hreads.wrong_iff c).mp ⟨e, c', hunexpected, hrun⟩

end StateWeaver.Bridge
