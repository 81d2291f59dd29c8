import StateWeaver.Lab.ProviderCheckpoint

/-!
# The text of a checkpoint

The canonical texts of a checkpoint and of the payloads that its name and its digest are computed from,
and that a checkpoint whose state is not nested too deep and has no surrogates is read back from its
bytes, with the entries of its state in order (`fromCanonicalBytes_canonicalBytes`).
-/

namespace StateWeaver.Lab

open Py (Text Tree JsonObject text)

/-! ## Bounded values -/

theorem boundItems_eq_ok {items : List Tree} {depth : ℕ} :
    boundItems items depth = .ok () ↔ ∀ v ∈ items, bound v depth = .ok () := by
  induction items with
  | nil => exact iff_of_true rfl (List.forall_mem_nil _)
  | cons v items ih => rw [boundItems, Imp.check_bind_eq_ok, ih, List.forall_mem_cons]

theorem boundEntries_eq_ok {entries : List (Text × Tree)} {depth : ℕ} :
    boundEntries entries depth = .ok () ↔
      ∀ e ∈ entries, e.1.length ≤ 128 ∧ bound e.2 depth = .ok () := by
  induction entries with
  | nil => exact iff_of_true rfl (List.forall_mem_nil _)
  | cons e entries ih =>
      rw [boundEntries, Imp.check_bind_eq_ok, Imp.require_eq_ok, Imp.check_bind_eq_ok, ih,
        List.forall_mem_cons, and_assoc]

theorem bound_scalar {s : Py.Literal} {depth : ℕ} :
    bound (.scalar s) depth = .ok () ↔ depth ≤ 16 ∧ boundLiteral s = .ok () := by
  rw [bound, Imp.check_bind_eq_ok, Imp.require_eq_ok]

theorem bound_arr {items : List Tree} {depth : ℕ} :
    bound (.arr items) depth = .ok () ↔
      depth ≤ 16 ∧ items.length ≤ 256 ∧ ∀ v ∈ items, bound v (depth + 1) = .ok () := by
  rw [bound, Imp.check_bind_eq_ok, Imp.require_eq_ok, Imp.check_bind_eq_ok, Imp.require_eq_ok,
    boundItems_eq_ok]

theorem bound_obj {entries : List (Text × Tree)} {depth : ℕ} :
    bound (.obj entries) depth = .ok () ↔
      depth ≤ 16 ∧ entries.length ≤ 256 ∧
        ∀ e ∈ entries, e.1.length ≤ 128 ∧ bound e.2 (depth + 1) = .ok () := by
  rw [bound, Imp.check_bind_eq_ok, Imp.require_eq_ok, Imp.check_bind_eq_ok, Imp.require_eq_ok,
    boundEntries_eq_ok]

/-- The bounds do not depend on the order of entries. -/
theorem bound_sort {v : Tree} {depth : ℕ} : bound v.sort depth = .ok () ↔ bound v depth = .ok () := by
  induction v using Json.induction generalizing depth with
  | scalar s => rw [Json.sort]
  | arr items ih =>
      rw [Json.sort, Json.sortItems_eq, bound_arr, bound_arr, List.length_map, List.forall_mem_map]
      exact and_congr_right fun _ => and_congr_right fun _ => forall₂_congr fun v hv => ih v hv
  | obj entries ih =>
      rw [Json.sort, bound_obj, bound_obj, List.length_insertionSort, Json.sortEntries_eq, List.length_map]
      refine and_congr_right fun _ => and_congr_right fun _ => ?_
      simp only [List.mem_insertionSort, List.forall_mem_map]
      exact forall₂_congr fun e he => and_congr_right fun _ => ih e he

/-- A bounded value that can be written has no floats. -/
theorem isPlain_of_bound {v : Tree} {depth : ℕ} (h : bound v depth = .ok ())
    (herror : ∀ s ∈ v.scalars, Py.literalError s = none) : ∀ s ∈ v.scalars, s.IsPlain := by
  induction v using Json.induction generalizing depth with
  | scalar s =>
      have hs := (bound_scalar.mp h).2
      have hwritten := herror s List.mem_cons_self
      refine List.forall_mem_singleton.mpr ?_
      cases s with
      | float x => cases hs
      | int n =>
          rw [Py.literalError] at hwritten
          split at hwritten
          · assumption
          · cases hwritten
      | _ => trivial
  | arr items ih =>
      intro s hs
      obtain ⟨v, hv, hmem⟩ := Json.mem_itemsScalars.mp hs
      exact ih v hv ((bound_arr.mp h).2.2 v hv)
        (fun s hs => herror s (Json.mem_itemsScalars.mpr ⟨v, hv, hs⟩)) s hmem
  | obj entries ih =>
      intro s hs
      obtain ⟨e, he, hmem⟩ := Json.mem_entriesScalars.mp hs
      exact ih e he ((bound_obj.mp h).2.2 e he).2
        (fun s hs => herror s (Json.mem_entriesScalars.mpr ⟨e, he, hs⟩)) s hmem

/-! ## Canonical bytes -/

theorem canonical_eq_ok {v : Tree} {raw : ByteArray} :
    canonical v = .ok raw ↔
      (∀ s ∈ v.scalars, Py.literalError s = none) ∧ raw = Py.encode (Py.canonicalText v) := by
  rw [canonical]
  split
  · next t hdumps =>
      obtain ⟨herror, rfl⟩ := Py.dumpsAscii_eq_ok.mp hdumps
      rw [Except.ok.injEq, eq_comm, and_iff_right herror]
  · next e hdumps =>
      refine iff_of_false nofun fun h => ?_
      rw [Py.dumpsAscii_eq_ok.mpr ⟨h.1, rfl⟩] at hdumps
      cases hdumps

/-- The canonical bytes are those of the sorted value. -/
theorem canonical_congr {v w : Tree} (h : v.sort = w.sort) : canonical v = canonical w := by
  rw [canonical, canonical, Py.dumpsAscii, Py.dumpsAscii, Py.canonicalText, Py.canonicalText, h]

/-- The text of an entry of an object. -/
def fieldText (key : String) (value : List Char) : List Char := Py.quoteAscii (text key) ++ ':' :: value

/-- What all texts of a checkpoint end with. -/
def payloadTail (mode state fingerprint : List Char) : List Char :=
  fieldText "mode" mode ++ ',' :: (fieldText "schema_version" (Py.quoteAscii schemaVersion) ++
    ',' :: (fieldText "seed" (Py.quoteAscii canonicalSeed) ++ ',' :: (fieldText "state" state ++
      ',' :: (fieldText "state_fingerprint" fingerprint ++ ['}']))))

/-- The text of the payload that a generation is the digest of. -/
def generationText (mode state fingerprint : List Char) : List Char :=
  '{' :: payloadTail mode state fingerprint

/-- The text of the payload that is sealed. -/
def unsignedText (generation mode state fingerprint : List Char) : List Char :=
  '{' :: (fieldText "generation" generation ++ ',' :: payloadTail mode state fingerprint)

/-- The text of a checkpoint. -/
def checkpointText (digest generation mode state fingerprint : List Char) : List Char :=
  '{' :: (fieldText "checkpoint_digest" digest ++
    ',' :: (fieldText "generation" generation ++ ',' :: payloadTail mode state fingerprint))

theorem sort_generationPayload (mode : LabMode) (state : JsonObject) (fingerprint : Text) :
    (generationPayload mode state fingerprint).sort = .obj [(text "mode", str mode.value),
      (text "schema_version", str schemaVersion), (text "seed", str canonicalSeed),
      (text "state", (Json.obj state.entries).sort), (text "state_fingerprint", str fingerprint)] := rfl

theorem canonicalText_generationPayload (mode : LabMode) (state : JsonObject) (fingerprint : Text) :
    Py.canonicalText (generationPayload mode state fingerprint) =
      generationText (Py.quoteAscii mode.value) (Py.canonicalText (.obj state.entries))
        (Py.quoteAscii fingerprint) := by
  rw [Py.canonicalText, sort_generationPayload]
  simp only [Json.text, Json.entriesText, generationText, payloadTail, fieldText, str, Py.asciiSyntax,
    Py.literalText, Py.canonicalText, List.cons_append, List.append_assoc]

theorem sort_unsignedPayload (generation : Text) (mode : LabMode) (state : JsonObject)
    (fingerprint : Text) : (unsignedPayload generation mode state fingerprint).sort =
      .obj [(text "generation", str generation), (text "mode", str mode.value),
        (text "schema_version", str schemaVersion), (text "seed", str canonicalSeed),
        (text "state", (Json.obj state.entries).sort), (text "state_fingerprint", str fingerprint)] := rfl

theorem canonicalText_unsignedPayload (generation : Text) (mode : LabMode) (state : JsonObject)
    (fingerprint : Text) : Py.canonicalText (unsignedPayload generation mode state fingerprint) =
      unsignedText (Py.quoteAscii generation) (Py.quoteAscii mode.value)
        (Py.canonicalText (.obj state.entries)) (Py.quoteAscii fingerprint) := by
  rw [Py.canonicalText, sort_unsignedPayload]
  simp only [Json.text, Json.entriesText, unsignedText, payloadTail, fieldText, str, Py.asciiSyntax,
    Py.literalText, Py.canonicalText, List.cons_append, List.append_assoc]

/-- The document of a checkpoint with its entries in order. -/
def sortedDump (c : CheckpointFields) : List (Text × Tree) :=
  [(text "checkpoint_digest", str c.checkpointDigest), (text "generation", str c.generation),
    (text "mode", str c.mode.value), (text "schema_version", str schemaVersion),
    (text "seed", str canonicalSeed), (text "state", (Json.obj c.state.entries).sort),
    (text "state_fingerprint", str c.stateFingerprint)]

theorem sort_dump (c : CheckpointFields) : c.dump.sort = .obj (sortedDump c) := rfl

theorem canonicalText_dump (c : CheckpointFields) :
    Py.canonicalText c.dump =
      checkpointText (Py.quoteAscii c.checkpointDigest) (Py.quoteAscii c.generation)
        (Py.quoteAscii c.mode.value) (Py.canonicalText (.obj c.state.entries))
        (Py.quoteAscii c.stateFingerprint) := by
  rw [Py.canonicalText, sort_dump, sortedDump]
  simp only [Json.text, Json.entriesText, checkpointText, payloadTail, fieldText, str, Py.asciiSyntax,
    Py.literalText, Py.canonicalText, List.cons_append, List.append_assoc]

/-! ## Names and digests -/

/-- A digit of a name or a digest. -/
def IsHexUnit (c : Py.CodePoint) : Prop := 48 ≤ c.val ∧ c.val ≤ 57 ∨ 97 ≤ c.val ∧ c.val ≤ 102

theorem isHexText_iff {t : Text} : isHexText t = true ↔ t.length = 64 ∧ ∀ c ∈ t, IsHexUnit c := by
  simp only [isHexText, Bool.and_eq_true, beq_iff_eq, List.all_eq_true, Bool.or_eq_true,
    decide_eq_true_eq, IsHexUnit]

theorem isHexText_text {s : String} (h : isHexDigest s = true) : isHexText (text s) = true := by
  rw [isHexDigest, Bool.and_eq_true, beq_iff_eq, List.all_eq_true] at h
  refine isHexText_iff.mpr ⟨by rw [text, List.length_map, h.1], fun c hc => ?_⟩
  obtain ⟨d, hd, rfl⟩ := List.mem_map.mp hc
  have hhex := h.2 d hd
  simp only [Char.isLowerHex, Char.isDigit, Bool.or_eq_true, Bool.and_eq_true, decide_eq_true_eq,
    ge_iff_le, Char.le_def, UInt32.le_iff_toNat_le] at hhex
  exact hhex

/-- A text that is written as it is. -/
def IsPlainText (t : Text) : Prop := ∀ c ∈ t, 35 ≤ c.val ∧ c.val ≤ 126 ∧ c.val ≠ 92

theorem isPlainText_of_isHexText {t : Text} (h : isHexText t = true) : IsPlainText t := by
  intro c hc
  have hunit := (isHexText_iff.mp h).2 c hc
  rw [IsHexUnit] at hunit
  omega

theorem isPlainText_of_isSha256Text {t : Text} (h : isSha256Text t = true) : IsPlainText t := by
  rw [isSha256Text, Bool.and_eq_true, beq_iff_eq] at h
  intro c hc
  rw [← List.take_append_drop 7 t, List.mem_append, h.1] at hc
  rcases hc with hc | hc
  · have htag : (text "sha256:").all
        (fun c => decide (35 ≤ c.val ∧ c.val ≤ 126 ∧ c.val ≠ 92)) = true := by decide
    exact of_decide_eq_true (List.all_eq_true.mp htag c hc)
  · exact isPlainText_of_isHexText h.2 c hc

theorem length_of_isSha256Text {t : Text} (h : isSha256Text t = true) : t.length = 71 := by
  rw [isSha256Text, Bool.and_eq_true, beq_iff_eq] at h
  have htake := congrArg List.length h.1
  have hdrop := (isHexText_iff.mp h.2).1
  rw [List.length_drop] at hdrop
  omega

theorem not_isSurrogate_of_isPlainText {t : Text} (h : IsPlainText t) :
    ∀ c ∈ t, Py.isSurrogate c = false := by
  intro c hc
  have hplain := h c hc
  simp only [Py.isSurrogate, Py.isHighSurrogate, Py.isLowSurrogate, Bool.or_eq_false_iff,
    Bool.and_eq_false_iff, decide_eq_false_iff_not]
  omega

theorem escapeUnit_of_plain {c : Py.CodePoint} (h : 35 ≤ c.val ∧ c.val ≤ 126 ∧ c.val ≠ 92) :
    Py.escapeUnit c = [Char.ofNat c.val] := by
  rw [Py.escapeUnit, if_neg (by omega), if_neg (by omega), if_neg (by omega), if_neg (by omega),
    if_neg (by omega), if_neg (by omega), if_neg (by omega), if_pos (by omega)]

theorem length_quoteAscii {t : Text} (h : IsPlainText t) : (Py.quoteAscii t).length = t.length + 2 := by
  have hunits : t.flatMap Py.units = t := by
    refine (List.flatMap_congr fun c hc => ?_).trans (List.flatMap_singleton' t)
    refine Py.units_of_inPlane ?_
    have hplain := h c hc
    rw [Py.InPlane]
    omega
  have hescape : t.flatMap Py.escapeUnit = t.map fun c => Char.ofNat c.val := by
    rw [List.map_eq_flatMap]
    exact List.flatMap_congr fun c hc => escapeUnit_of_plain (h c hc)
  rw [Py.quoteAscii, hunits, hescape, List.cons_append, List.length_cons, List.length_append,
    List.length_map, List.length_singleton]

/-! ## What the texts tell -/

/-- The two modes are written differently. -/
theorem eq_of_quoteAscii_mode {mode mode' : LabMode} {rest rest' : List Char}
    (h : Py.quoteAscii mode.value ++ rest = Py.quoteAscii mode'.value ++ rest') :
    mode = mode' ∧ rest = rest' := by
  cases mode <;> cases mode'
  · exact ⟨rfl, List.append_cancel_left h⟩
  · exact absurd (List.cons.inj (List.cons.inj h).2).1 (by decide)
  · exact absurd (List.cons.inj (List.cons.inj h).2).1 (by decide)
  · exact ⟨rfl, List.append_cancel_left h⟩

/-- The text of a payload tells the texts of its parts, since fingerprints have one length. -/
theorem eq_of_payloadTail {mode mode' : LabMode} {state state' fingerprint fingerprint' : List Char}
    (hlength : fingerprint.length = fingerprint'.length)
    (h : payloadTail (Py.quoteAscii mode.value) state fingerprint =
      payloadTail (Py.quoteAscii mode'.value) state' fingerprint') :
    mode = mode' ∧ state = state' ∧ fingerprint = fingerprint' := by
  simp only [payloadTail, fieldText, List.cons.injEq, List.append_assoc, List.cons_append,
    List.append_cancel_left_eq, true_and] at h
  obtain ⟨rfl, hrest⟩ := eq_of_quoteAscii_mode h
  refine ⟨rfl, ?_⟩
  simp only [List.append_cancel_left_eq, List.cons.injEq, true_and] at hrest
  obtain ⟨hstate, htail⟩ := List.append_inj' hrest (by
    simp only [List.length_cons, List.length_append, hlength])
  simp only [List.append_cancel_left_eq, List.cons.injEq, true_and] at htail
  exact ⟨hstate, List.append_cancel_right htail⟩

/-! ## Checkpoints are read back -/

/-- An object with its entries in order. -/
def sortObject (state : JsonObject) : JsonObject where
  entries := (Json.sortEntries state.entries).insertionSort fun e e' => e.1 ≤ e'.1
  distinct := (Json.distinct_sort_iff (.obj state.entries)).mpr state.distinct

theorem obj_sortObject (state : JsonObject) :
    (Json.obj (sortObject state).entries : Tree) = (Json.obj state.entries).sort := by
  rw [Json.sort]
  rfl

theorem sort_obj_sortObject (state : JsonObject) :
    (Json.obj (sortObject state).entries : Tree).sort = (Json.obj state.entries).sort := by
  rw [obj_sortObject, ((Json.ascending_iff _).mp (Json.ascending_sort state.distinct)).2]

/-- The fields of a checkpoint with the entries of its state in order. -/
def sortFields (c : CheckpointFields) : CheckpointFields := { c with state := sortObject c.state }

theorem distinct_dump (c : CheckpointFields) : c.dump.Distinct := by
  have hkeys : fieldNames.Nodup := by decide
  refine .obj hkeys fun e he => ?_
  simp only [List.mem_cons, List.not_mem_nil, or_false] at he
  rcases he with rfl | rfl | rfl | rfl | rfl | rfl | rfl
  · exact .scalar _
  · exact .scalar _
  · exact .scalar _
  · exact .scalar _
  · exact c.state.distinct
  · exact .scalar _
  · exact .scalar _

/-- The texts of a checkpoint outside its state. -/
def fieldValues (c : CheckpointFields) : List Text :=
  [schemaVersion, c.generation, c.mode.value, canonicalSeed, c.stateFingerprint, c.checkpointDigest]

theorem mem_scalars_dump {c : CheckpointFields} {s : Py.Literal} (h : s ∈ c.dump.scalars) :
    (∃ t ∈ fieldValues c, s = .str t) ∨ s ∈ (Json.obj c.state.entries : Tree).scalars := by
  simp only [CheckpointFields.dump, str, Json.scalars, Json.entriesScalars, List.mem_append,
    List.mem_singleton, List.not_mem_nil, or_false] at h
  simp only [fieldValues, List.mem_cons, List.not_mem_nil, or_false, Json.scalars]
  rcases h with h | h | h | h | h | h | h
  · exact Or.inl ⟨_, Or.inl rfl, h⟩
  · exact Or.inl ⟨_, Or.inr (Or.inl rfl), h⟩
  · exact Or.inl ⟨_, Or.inr (Or.inr (Or.inl rfl)), h⟩
  · exact Or.inl ⟨_, Or.inr (Or.inr (Or.inr (Or.inl rfl))), h⟩
  · exact Or.inr h
  · exact Or.inl ⟨_, Or.inr (Or.inr (Or.inr (Or.inr (Or.inl rfl)))), h⟩
  · exact Or.inl ⟨_, Or.inr (Or.inr (Or.inr (Or.inr (Or.inr rfl)))), h⟩

theorem mem_scalars_dump_of_state {c : CheckpointFields} {s : Py.Literal}
    (h : s ∈ (Json.obj c.state.entries : Tree).scalars) : s ∈ c.dump.scalars := by
  simp only [CheckpointFields.dump, str, Json.scalars, Json.entriesScalars, List.mem_append]
  exact Or.inr (Or.inr (Or.inr (Or.inr (Or.inl h))))

theorem mem_scalars_generationPayload {mode : LabMode} {state : JsonObject} {fingerprint : Text}
    {s : Py.Literal} (h : s ∈ (generationPayload mode state fingerprint).scalars) :
    (∃ t, s = .str t) ∨ s ∈ (Json.obj state.entries : Tree).scalars := by
  simp only [generationPayload, str, Json.scalars, Json.entriesScalars, List.mem_append,
    List.mem_singleton, List.not_mem_nil, or_false] at h
  rcases h with h | h | h | h | h
  · exact Or.inl ⟨_, h⟩
  · exact Or.inl ⟨_, h⟩
  · exact Or.inl ⟨_, h⟩
  · exact Or.inr h
  · exact Or.inl ⟨_, h⟩

theorem mem_scalars_unsignedPayload {generation : Text} {mode : LabMode} {state : JsonObject}
    {fingerprint : Text} {s : Py.Literal}
    (h : s ∈ (unsignedPayload generation mode state fingerprint).scalars) :
    (∃ t, s = .str t) ∨ s ∈ (Json.obj state.entries : Tree).scalars := by
  simp only [unsignedPayload, str, Json.scalars, Json.entriesScalars, List.mem_append,
    List.mem_singleton, List.not_mem_nil, or_false] at h
  rcases h with h | h | h | h | h | h
  · exact Or.inl ⟨_, h⟩
  · exact Or.inl ⟨_, h⟩
  · exact Or.inl ⟨_, h⟩
  · exact Or.inl ⟨_, h⟩
  · exact Or.inr h
  · exact Or.inl ⟨_, h⟩

theorem mem_keys_dump {c : CheckpointFields} {key : Text} (h : key ∈ c.dump.keys) :
    key ∈ fieldNames ∨ key ∈ (Json.obj c.state.entries : Tree).keys := by
  simp only [CheckpointFields.dump, str, Json.keys, Json.entriesKeys, List.mem_append, List.mem_cons,
    List.not_mem_nil, or_false] at h
  simp only [fieldNames, List.mem_cons, List.not_mem_nil, or_false, Json.keys]
  rcases h with h | h | h | h | (h | h) | h | h
  · exact Or.inl (Or.inl h)
  · exact Or.inl (Or.inr (Or.inl h))
  · exact Or.inl (Or.inr (Or.inr (Or.inl h)))
  · exact Or.inl (Or.inr (Or.inr (Or.inr (Or.inl h))))
  · exact Or.inl (Or.inr (Or.inr (Or.inr (Or.inr (Or.inl h)))))
  · exact Or.inr h
  · exact Or.inl (Or.inr (Or.inr (Or.inr (Or.inr (Or.inr (Or.inl h))))))
  · exact Or.inl (Or.inr (Or.inr (Or.inr (Or.inr (Or.inr (Or.inr h))))))

theorem loads_eq_ok {raw : ByteArray} {characters : List Char} {v : Tree}
    (hdecode : Py.decode raw = some characters) (hloads : Py.loads characters = .ok v) :
    ∃ h, loads raw = .ok ⟨v, h⟩ := by
  refine ⟨Py.distinct_of_loads hloads, ?_⟩
  rw [loads, hdecode]
  dsimp only
  split
  · next w hw =>
      rw [hloads] at hw
      cases hw
      rfl
  all_goals
    next hw =>
      rw [hloads] at hw
      cases hw

theorem mode?_str (mode : LabMode) : mode? (some (str mode.value)) = some mode := by
  cases mode <;> rfl

/-- What the document of a checkpoint is read as. -/
theorem readFields_sortedDump (c : CheckpointFields) (h : (Json.obj (sortedDump c)).Distinct) :
    readFields (.obj (sortedDump c)) h = some (sortFields c) := by
  have hkeys : ∀ key ∈ (sortedDump c).map Prod.fst, key ∈ fieldNames := by
    have hall : ∀ key ∈ [text "checkpoint_digest", text "generation", text "mode", text "schema_version",
      text "seed", text "state", text "state_fingerprint"], key ∈ fieldNames := by decide
    exact hall
  have hmode : mode? ((sortedDump c).lookup (text "mode")) = some c.mode := mode?_str c.mode
  rw [readFields, if_pos ⟨hkeys, rfl, rfl⟩, hmode]
  rfl

theorem sort_dump_sortFields (c : CheckpointFields) : (sortFields c).dump.sort = c.dump.sort := by
  rw [sort_dump, sort_dump, sortedDump, sortedDump, sortFields, sort_obj_sortObject]

theorem length_checkpointText (digest generation mode state fingerprint : List Char) :
    (checkpointText digest generation mode state fingerprint).length =
      digest.length + generation.length + mode.length + state.length + fingerprint.length + 148 := by
  have hlabels : (fieldNames.map fun key => (Py.quoteAscii key).length) = [16, 12, 6, 6, 7, 19, 19] := by
    decide
  have hvalues : (Py.quoteAscii schemaVersion).length = 31 ∧ (Py.quoteAscii canonicalSeed).length = 17 := by
    decide
  simp only [fieldNames, List.map_cons, List.map_nil, List.cons.injEq] at hlabels
  simp only [checkpointText, payloadTail, fieldText, List.length_cons, List.length_append, List.length_nil]
  omega

theorem bound_dump {c : CheckpointFields} (hgeneration : isHexText c.generation = true)
    (hfingerprint : isSha256Text c.stateFingerprint = true)
    (hdigest : isSha256Text c.checkpointDigest = true)
    (hdepth : bound (.obj c.state.entries) 1 = .ok ()) : bound c.dump 0 = .ok () := by
  have hstr : ∀ t : Text, t.length ≤ 512 → bound (str t) 1 = .ok () := fun t ht =>
    bound_scalar.mpr ⟨by decide, Imp.require_eq_ok.mpr ht⟩
  have hkeys : ∀ key ∈ fieldNames, key.length ≤ 128 := by decide
  have hmode : c.mode.value.length ≤ 512 := by cases c.mode <;> decide
  have hhex := (isHexText_iff.mp hgeneration).1
  have hlength := length_of_isSha256Text hfingerprint
  have hlength' := length_of_isSha256Text hdigest
  have hentries : (7 : ℕ) ≤ 256 := by decide
  refine bound_obj.mpr ⟨Nat.zero_le _, hentries, fun e he => ⟨?_, ?_⟩⟩
  · exact hkeys e.1 (List.mem_map_of_mem (f := Prod.fst) he)
  · simp only [List.mem_cons, List.not_mem_nil, or_false] at he
    rcases he with rfl | rfl | rfl | rfl | rfl | rfl | rfl
    · exact hstr schemaVersion (by decide)
    · exact hstr c.generation (by omega)
    · exact hstr c.mode.value hmode
    · exact hstr canonicalSeed (by decide)
    · exact hdepth
    · exact hstr c.stateFingerprint (by omega)
    · exact hstr c.checkpointDigest (by omega)

theorem isPlainText_of_mem_fieldValues {c : CheckpointFields} (hgeneration : isHexText c.generation = true)
    (hfingerprint : isSha256Text c.stateFingerprint = true)
    (hdigest : isSha256Text c.checkpointDigest = true) : ∀ t ∈ fieldValues c, IsPlainText t := by
  have hclosed : ∀ t ∈ [schemaVersion, canonicalSeed, LabMode.vulnerable.value, LabMode.patched.value],
      t.all (fun c => decide (35 ≤ c.val ∧ c.val ≤ 126 ∧ c.val ≠ 92)) = true := by decide
  have hplain : ∀ t ∈ [schemaVersion, canonicalSeed, LabMode.vulnerable.value, LabMode.patched.value],
      IsPlainText t := fun t ht a ha => of_decide_eq_true (List.all_eq_true.mp (hclosed t ht) a ha)
  have hmode : ∀ mode : LabMode, mode.value ∈
      [schemaVersion, canonicalSeed, LabMode.vulnerable.value, LabMode.patched.value] := fun mode => by
    cases mode <;> decide
  intro t ht
  simp only [fieldValues, List.mem_cons, List.not_mem_nil, or_false] at ht
  rcases ht with rfl | rfl | rfl | rfl | rfl | rfl
  · exact hplain _ (by simp only [List.mem_cons, true_or])
  · exact isPlainText_of_isHexText hgeneration
  · exact hplain _ (hmode c.mode)
  · exact hplain _ (by simp only [List.mem_cons, true_or, or_true])
  · exact isPlainText_of_isSha256Text hfingerprint
  · exact isPlainText_of_isSha256Text hdigest

theorem hasSurrogate_dump {c : CheckpointFields} (hgeneration : isHexText c.generation = true)
    (hfingerprint : isSha256Text c.stateFingerprint = true)
    (hdigest : isSha256Text c.checkpointDigest = true)
    (hsurrogate : Py.hasSurrogate (.obj c.state.entries) = false) : Py.hasSurrogate c.dump = false := by
  obtain ⟨hscalars, hkeys⟩ := Py.hasSurrogate_eq_false.mp hsurrogate
  have hnames : ∀ key ∈ fieldNames, key.all (fun a => Py.isSurrogate a == false) = true := by decide
  refine Py.hasSurrogate_eq_false.mpr ⟨fun t ht => ?_, fun key hkey => ?_⟩
  · rcases mem_scalars_dump ht with ⟨t', ht', heq⟩ | ht
    · obtain rfl := Py.Literal.str.inj heq
      exact not_isSurrogate_of_isPlainText
        (isPlainText_of_mem_fieldValues hgeneration hfingerprint hdigest t ht')
    · exact hscalars t ht
  · rcases mem_keys_dump hkey with hkey | hkey
    · exact fun a ha => eq_of_beq (List.all_eq_true.mp (hnames key hkey) a ha)
    · exact hkeys key hkey

variable [Sha256]

/-- A checkpoint whose state can be written has no floats. -/
theorem LabStateCheckpoint.isPlain (c : LabStateCheckpoint)
    (herror : ∀ s ∈ c.dump.scalars, Py.literalError s = none) : ∀ s ∈ c.dump.scalars, s.IsPlain := by
  have hstate : ∀ s ∈ (Json.obj c.state.entries : Tree).scalars, s.IsPlain :=
    isPlain_of_bound c.bounded fun s hs => herror s (mem_scalars_dump_of_state hs)
  intro s hs
  rcases mem_scalars_dump hs with ⟨t, -, rfl⟩ | hs
  · trivial
  · exact hstate s hs

/-- A checkpoint of a short state is within the bound. -/
theorem LabStateCheckpoint.canonicalBytes_of_short (c : LabStateCheckpoint)
    (herror : ∀ s ∈ (Json.obj c.state.entries : Tree).scalars, Py.literalError s = none)
    (hshort : (Py.canonicalText (.obj c.state.entries)).length ≤ 500) :
    ∃ raw, c.canonicalBytes = .ok raw ∧ raw.size ≠ 0 ∧ raw.size ≤ maxCheckpointBytes := by
  have hdump : ∀ s ∈ c.dump.scalars, Py.literalError s = none := fun s hs => by
    rcases mem_scalars_dump hs with ⟨t, -, rfl⟩ | hs
    · rfl
    · exact herror s hs
  have hlength : (Py.canonicalText c.dump).length ≤ 1000 := by
    have hmode : (Py.quoteAscii c.mode.value).length ≤ 20 := by cases c.mode <;> decide
    have hname := (isHexText_iff.mp c.generation_hex).1
    rw [canonicalText_dump, length_checkpointText, length_quoteAscii (isPlainText_of_isHexText c.generation_hex),
      length_quoteAscii (isPlainText_of_isSha256Text c.fingerprint_hex),
      length_quoteAscii (isPlainText_of_isSha256Text c.digest_hex),
      length_of_isSha256Text c.fingerprint_hex, length_of_isSha256Text c.digest_hex]
    omega
  have hsize := Py.size_encode_le (Py.canonicalText c.dump)
  refine ⟨_, canonical_eq_ok.mpr ⟨hdump, rfl⟩, ?_, ?_⟩
  · rw [canonicalText_dump]
    exact Py.size_encode_pos (List.cons_ne_nil _ _)
  · rw [maxCheckpointBytes]
    omega

/-- A checkpoint with the entries of its state in order is sealed. -/
theorem validate_sortFields (c : LabStateCheckpoint) :
    ∃ c' : LabStateCheckpoint, validate (sortFields c.toCheckpointFields) = .ok c' ∧
      c'.toCheckpointFields = sortFields c.toCheckpointFields := by
  have hbounded : bound (.obj (sortFields c.toCheckpointFields).state.entries) 0 = .ok () := by
    rw [sortFields, obj_sortObject]
    exact bound_sort.mpr c.bounded
  have hsealed : digest (sortFields c.toCheckpointFields).unsignedPayload = .ok c.checkpointDigest := by
    have hsort : (sortFields c.toCheckpointFields).unsignedPayload.sort =
        c.toCheckpointFields.unsignedPayload.sort := by
      rw [CheckpointFields.unsignedPayload, CheckpointFields.unsignedPayload, sort_unsignedPayload,
        sort_unsignedPayload, sortFields, sort_obj_sortObject]
    rw [digest, hexdigest, canonical_congr hsort, ← hexdigest, ← digest]
    exact c.sealed
  exact ⟨_, dif_pos ⟨c.generation_hex, c.fingerprint_hex, c.digest_hex, hbounded, hsealed⟩, rfl⟩

/-- The bytes of a checkpoint are read back as the checkpoint, with the entries of its state in order. -/
theorem fromCanonicalBytes_canonicalBytes {c : LabStateCheckpoint} {raw : ByteArray}
    (hraw : c.canonicalBytes = .ok raw) (hsize : raw.size ≠ 0 ∧ raw.size ≤ maxCheckpointBytes)
    (hdepth : bound (.obj c.state.entries) 1 = .ok ())
    (hsurrogate : Py.hasSurrogate (.obj c.state.entries) = false) :
    ∃ c' : LabStateCheckpoint, fromCanonicalBytes raw = .ok c' ∧
      c'.toCheckpointFields = sortFields c.toCheckpointFields := by
  obtain ⟨herror, hencode⟩ := canonical_eq_ok.mp hraw
  have hplain : ∀ s ∈ c.dump.sort.scalars, s.IsPlain := fun s hs =>
    c.isPlain herror s ((Json.mem_scalars_sort _ s).mp hs)
  have hno := hasSurrogate_dump c.generation_hex c.fingerprint_hex c.digest_hex hsurrogate
  have hno' : Py.hasSurrogate c.dump.sort = false := (Py.hasSurrogate_sort _).trans hno
  have hdistinct : c.dump.sort.Distinct := (Json.distinct_sort_iff _).mpr (distinct_dump _)
  have hloads : Py.loads (Py.canonicalText c.dump) = .ok c.dump.sort :=
    (Py.loads_asciiText hplain).trans
      (Py.reread_eq_ok.mpr ⟨(Py.normalizeTree_eq_self hno').symm, hdistinct⟩)
  have hdecode : Py.decode raw = some (Py.canonicalText c.dump) := by
    rw [hencode, Py.decode_encode]
  obtain ⟨h, hread⟩ := loads_eq_ok hdecode hloads
  have hbound := bound_sort.mpr (bound_dump c.generation_hex c.fingerprint_hex c.digest_hex hdepth)
  obtain ⟨c', hvalidate, hfields⟩ := validate_sortFields c
  have hfields' : readFields c.dump.sort h = some (sortFields c.toCheckpointFields) :=
    readFields_sortedDump c.toCheckpointFields h
  have hmodel : modelValidateJson c.dump.sort h = .ok c' := by
    rw [modelValidateJson, hno', if_neg (by decide), hfields']
    exact hvalidate
  have hcanonical : c'.canonicalBytes = .ok raw := by
    rw [CheckpointFields.canonicalBytes, hfields, canonical_congr (sort_dump_sortFields _)]
    exact hraw
  refine ⟨c', ?_, hfields⟩
  refine Imp.check_bind_eq_ok.mpr ⟨Imp.require_eq_ok.mpr hsize, ?_⟩
  refine Imp.except_bind_eq_ok.mpr ⟨_, hread, ?_⟩
  refine Imp.check_bind_eq_ok.mpr ⟨hbound, ?_⟩
  refine Imp.except_bind_eq_ok.mpr ⟨c', congrArg (Except.mapError _) hmodel, ?_⟩
  refine Imp.except_bind_eq_ok.mpr ⟨raw, hcanonical, ?_⟩
  exact Imp.check_bind_eq_ok.mpr ⟨Imp.require_eq_ok.mpr rfl, rfl⟩

/-! ## Sealed bytes -/

/-- The digest of a sealed payload. -/
def sealOf (generation : Text) (mode : LabMode) (state : List Char) (fingerprint : Text) : Text :=
  text "sha256:" ++ text (Sha256.hexdigest (Py.encode (unsignedText (Py.quoteAscii generation)
    (Py.quoteAscii mode.value) state (Py.quoteAscii fingerprint))))

/-- Bytes that are the text of a checkpoint, sealed by the digest of its payload. -/
structure SealedAs (raw : ByteArray) (generation : Text) (mode : LabMode) (state : List Char)
    (fingerprint : Text) : Prop where
  fingerprint_hex : isSha256Text fingerprint = true
  bytes : raw = Py.encode (checkpointText (Py.quoteAscii (sealOf generation mode state fingerprint))
    (Py.quoteAscii generation) (Py.quoteAscii mode.value) state (Py.quoteAscii fingerprint))

/-- Sealed bytes are told by the generation and by the payload that it should be the digest of. -/
theorem SealedAs.eq {raw raw' : ByteArray} {generation : Text} {mode mode' : LabMode}
    {state state' : List Char} {fingerprint fingerprint' : Text}
    (h : SealedAs raw generation mode state fingerprint)
    (h' : SealedAs raw' generation mode' state' fingerprint')
    (hpayload : generationText (Py.quoteAscii mode.value) state (Py.quoteAscii fingerprint) =
      generationText (Py.quoteAscii mode'.value) state' (Py.quoteAscii fingerprint')) : raw = raw' := by
  have hlength : (Py.quoteAscii fingerprint).length = (Py.quoteAscii fingerprint').length := by
    rw [length_quoteAscii (isPlainText_of_isSha256Text h.fingerprint_hex),
      length_quoteAscii (isPlainText_of_isSha256Text h'.fingerprint_hex),
      length_of_isSha256Text h.fingerprint_hex, length_of_isSha256Text h'.fingerprint_hex]
  obtain ⟨rfl, rfl, hfingerprint⟩ := eq_of_payloadTail hlength (List.cons.inj hpayload).2
  rw [h.bytes, h'.bytes, sealOf, sealOf, hfingerprint]

theorem hexdigest_of_canonical {v : Tree} {raw : ByteArray} (h : canonical v = .ok raw) :
    hexdigest v = .ok (text (Sha256.hexdigest raw)) := by
  rw [hexdigest, h]
  rfl

theorem hexdigest_eq_ok {v : Tree} {t : Text} : hexdigest v = .ok t ↔
    (∀ s ∈ v.scalars, Py.literalError s = none) ∧
      t = text (Sha256.hexdigest (Py.encode (Py.canonicalText v))) := by
  rw [hexdigest, Imp.except_bind_eq_ok]
  constructor
  · rintro ⟨raw, hraw, ht⟩
    obtain ⟨herror, rfl⟩ := canonical_eq_ok.mp hraw
    exact ⟨herror, (Except.ok.inj ht).symm⟩
  · rintro ⟨herror, rfl⟩
    exact ⟨_, canonical_eq_ok.mpr ⟨herror, rfl⟩, rfl⟩

theorem digest_eq_ok {v : Tree} {t : Text} : digest v = .ok t ↔
    (∀ s ∈ v.scalars, Py.literalError s = none) ∧
      t = text "sha256:" ++ text (Sha256.hexdigest (Py.encode (Py.canonicalText v))) := by
  rw [digest, Imp.except_bind_eq_ok]
  constructor
  · rintro ⟨digits, hdigits, ht⟩
    obtain ⟨herror, rfl⟩ := hexdigest_eq_ok.mp hdigits
    exact ⟨herror, (Except.ok.inj ht).symm⟩
  · rintro ⟨herror, rfl⟩
    exact ⟨_, hexdigest_eq_ok.mpr ⟨herror, rfl⟩, rfl⟩

/-- The payload that a generation should be the digest of. -/
def CheckpointFields.generationPayload (c : CheckpointFields) : Tree :=
  Lab.generationPayload c.mode c.state c.stateFingerprint

/-- The bytes of a checkpoint are sealed. -/
theorem LabStateCheckpoint.sealedAs {c : LabStateCheckpoint} {raw : ByteArray}
    (hraw : c.canonicalBytes = .ok raw) : SealedAs raw c.generation c.mode
      (Py.canonicalText (.obj c.state.entries)) c.stateFingerprint := by
  refine ⟨c.fingerprint_hex, ?_⟩
  have hdigest := (digest_eq_ok.mp c.sealed).2
  rw [CheckpointFields.unsignedPayload, canonicalText_unsignedPayload] at hdigest
  rw [(canonical_eq_ok.mp hraw).2, canonicalText_dump, sealOf, ← hdigest]

/-- A checkpoint that can be written has a payload that can be written. -/
theorem LabStateCheckpoint.canonical_generationPayload {c : LabStateCheckpoint} {raw : ByteArray}
    (hraw : c.canonicalBytes = .ok raw) : canonical c.generationPayload =
      .ok (Py.encode (generationText (Py.quoteAscii c.mode.value)
        (Py.canonicalText (.obj c.state.entries)) (Py.quoteAscii c.stateFingerprint))) := by
  rw [← canonicalText_generationPayload]
  refine canonical_eq_ok.mpr ⟨fun s hs => ?_, rfl⟩
  rcases mem_scalars_generationPayload hs with ⟨t, rfl⟩ | hs
  · rfl
  · exact (canonical_eq_ok.mp hraw).1 s (mem_scalars_dump_of_state hs)

theorem validate_eq_ok {fields : CheckpointFields} {c : LabStateCheckpoint} (h : validate fields = .ok c) :
    c.toCheckpointFields = fields := by
  rw [validate] at h
  split at h
  · rw [← Except.ok.inj h]
  · cases h

/-- A checkpoint that is created is named after the digest of its payload. -/
theorem create_eq_ok {mode : LabMode} {state : JsonObject} {fingerprint : Text} {c : LabStateCheckpoint}
    (h : create mode state fingerprint = .ok c) :
    c.mode = mode ∧ c.state = state ∧ c.stateFingerprint = fingerprint ∧
      hexdigest c.generationPayload = .ok c.generation := by
  obtain ⟨-, hname⟩ := Imp.check_bind_eq_ok.mp h
  obtain ⟨generation, hgeneration, hseal⟩ := Imp.except_bind_eq_ok.mp hname
  obtain ⟨checkpointDigest, -, hvalidate⟩ := Imp.except_bind_eq_ok.mp hseal
  have hfields := validate_eq_ok hvalidate
  rw [CheckpointFields.generationPayload, hfields]
  exact ⟨rfl, rfl, rfl, hgeneration⟩

/-- Any name can be sealed. -/
theorem exists_sealed {generation fingerprint : Text} (mode : LabMode) {state : JsonObject}
    (hgeneration : isHexText generation = true) (hfingerprint : isSha256Text fingerprint = true)
    (hbound : bound (.obj state.entries) 0 = .ok ())
    (herror : ∀ s ∈ (Json.obj state.entries : Tree).scalars, Py.literalError s = none) :
    ∃ c : LabStateCheckpoint, c.toCheckpointFields = ⟨generation, mode, state, fingerprint,
      sealOf generation mode (Py.canonicalText (.obj state.entries)) fingerprint⟩ := by
  have hseal : isSha256Text (sealOf generation mode (Py.canonicalText (.obj state.entries)) fingerprint) =
      true := by
    rw [isSha256Text, Bool.and_eq_true, beq_iff_eq]
    exact ⟨List.take_left' (by rfl), by
      rw [sealOf, List.drop_left' (by rfl)]
      exact isHexText_text (Sha256.isHexDigest_hexdigest _)⟩
  refine ⟨⟨⟨generation, mode, state, fingerprint, _⟩, hgeneration, hfingerprint, hseal, hbound,
    digest_eq_ok.mpr ⟨fun s hs => ?_, ?_⟩⟩, rfl⟩
  · rcases mem_scalars_unsignedPayload hs with ⟨t, rfl⟩ | hs
    · rfl
    · exact herror s hs
  · rw [CheckpointFields.unsignedPayload, canonicalText_unsignedPayload]

theorem validate_toCheckpointFields (c : LabStateCheckpoint) : validate c.toCheckpointFields = .ok c :=
  dif_pos ⟨c.generation_hex, c.fingerprint_hex, c.digest_hex, c.bounded, c.sealed⟩

/-- A checkpoint is created of every bounded state that can be written. -/
theorem exists_create {fingerprint : Text} (mode : LabMode) {state : JsonObject}
    (hfingerprint : isSha256Text fingerprint = true) (hbound : bound (.obj state.entries) 0 = .ok ())
    (herror : ∀ s ∈ (Json.obj state.entries : Tree).scalars, Py.literalError s = none) :
    ∃ c, create mode state fingerprint = .ok c := by
  have hname : ∀ s ∈ (generationPayload mode state fingerprint).scalars, Py.literalError s = none :=
    fun s hs => by
      rcases mem_scalars_generationPayload hs with ⟨t, rfl⟩ | hs
      · rfl
      · exact herror s hs
  obtain ⟨c, hc⟩ := exists_sealed mode (isHexText_text (Sha256.isHexDigest_hexdigest
    (Py.encode (Py.canonicalText (generationPayload mode state fingerprint))))) hfingerprint hbound herror
  have hsealed := c.sealed
  rw [hc] at hsealed
  refine ⟨c, Imp.check_bind_eq_ok.mpr ⟨hbound, ?_⟩⟩
  refine Imp.except_bind_eq_ok.mpr ⟨_, hexdigest_eq_ok.mpr ⟨hname, rfl⟩, ?_⟩
  refine Imp.except_bind_eq_ok.mpr ⟨_, hsealed, ?_⟩
  rw [← hc]
  exact validate_toCheckpointFields c

theorem canonicalBytes_of_fromCanonicalBytes {raw : ByteArray} {c : LabStateCheckpoint}
    (h : fromCanonicalBytes raw = .ok c) : c.canonicalBytes = .ok raw := by
  obtain ⟨-, hread⟩ := Imp.check_bind_eq_ok.mp h
  obtain ⟨value, -, hbound⟩ := Imp.except_bind_eq_ok.mp hread
  obtain ⟨-, hmodel⟩ := Imp.check_bind_eq_ok.mp hbound
  obtain ⟨checkpoint, -, hwrite⟩ := Imp.except_bind_eq_ok.mp hmodel
  obtain ⟨bytes, hbytes, hcompare⟩ := Imp.except_bind_eq_ok.mp hwrite
  obtain ⟨hequal, hreturn⟩ := Imp.check_bind_eq_ok.mp hcompare
  rw [← Except.ok.inj hreturn, hbytes, Imp.require_eq_ok.mp hequal]

end StateWeaver.Lab
