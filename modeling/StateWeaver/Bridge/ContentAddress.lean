import StateWeaver.Bridge.CheckpointBytes
import StateWeaver.Lab.CheckpointText
import StateWeaver.Lib.Sha2

/-!
# Generations as content addresses

Bytes that the bridge accepts are told by their generation, since the bridge recomputes it. The lab
checks the seal only, so two checkpoints that it accepts may share a generation unless their payloads
agree. The bridge accepts a checkpoint that the lab creates if joining its surrogates leaves the keys of
its state distinct and in order (`content_address_spec`).
-/

namespace StateWeaver.Bridge

open Py (Text Tree text)
open Lab (LabMode LabStateCheckpoint SealedAs)

/-! ## Accepted bytes -/

theorem checkpointCanonical_eq_ok {v : Tree} {raw : ByteArray} : checkpointCanonical v = .ok raw ↔
    (∀ s ∈ v.scalars, Py.literalError s = none) ∧ raw = Py.encode (Py.canonicalText v) ∧
      raw.size ≠ 0 ∧ raw.size ≤ maxCheckpointBytes := by
  rw [checkpointCanonical]
  split
  · next e hdumps =>
      refine iff_of_false nofun fun h => ?_
      rw [Py.dumpsAscii_eq_ok.mpr ⟨h.1, rfl⟩] at hdumps
      cases hdumps
  · next t hdumps =>
      obtain ⟨herror, rfl⟩ := Py.dumpsAscii_eq_ok.mp hdumps
      rw [and_iff_right herror]
      dsimp only
      split
      · next hsize =>
          refine iff_of_false nofun ?_
          rintro ⟨rfl, hne, hle⟩
          omega
      · next hsize =>
          rw [Except.ok.injEq, eq_comm]
          refine (and_iff_left_of_imp ?_).symm
          rintro rfl
          omega

theorem text?_eq_some {v : Option Tree} {t : Text} : text? v = some t ↔ v = some (Lab.str t) := by
  cases v with
  | none => exact iff_of_false (fun h => by cases h) fun h => by cases h
  | some v =>
      cases v with
      | scalar s =>
          cases s with
          | str s =>
              rw [text?, Option.some.injEq, Option.some.injEq, Lab.str, Json.scalar.injEq,
                Py.Literal.str.injEq]
          | _ => exact iff_of_false (fun h => by cases h) fun h => by cases h
      | _ => exact iff_of_false (fun h => by cases h) fun h => by cases h

theorem isTextOf_eq_true {pattern : Text → Bool} {v : Option Tree} :
    isTextOf pattern v = true ↔ ∃ t, v = some (Lab.str t) ∧ pattern t = true := by
  rw [isTextOf, Option.any_eq_true]
  exact exists_congr fun t => and_congr_left' text?_eq_some

/-- The sorted document of a checkpoint with a given state. -/
def document (digest generation : Text) (mode : LabMode) (state : Tree) (fingerprint : Text) :
    List (Text × Tree) :=
  [(text "checkpoint_digest", Lab.str digest), (text "generation", Lab.str generation),
    (text "mode", Lab.str mode.value), (text "schema_version", Lab.str checkpointSchema),
    (text "seed", Lab.str Lab.canonicalSeed), (text "state", state),
    (text "state_fingerprint", Lab.str fingerprint)]

/-- The checks of the fields of a document. -/
structure HasShape (entries : List (Text × Tree)) : Prop where
  keys : (∀ key ∈ entries.map Prod.fst, key ∈ checkpointKeys) ∧
    ∀ key ∈ checkpointKeys, key ∈ entries.map Prod.fst
  schema : text? (entries.lookup (text "schema_version")) = some checkpointSchema
  hashable : isHashable (entries.lookup (text "mode")) = true
  fields : fieldsBound (fun key => entries.lookup (text key)) = true

theorem validateCheckpointBytes_eq_ok [Sha256] {raw : ByteArray} {out : ByteArray × Text × Text} :
    validateCheckpointBytes raw = .ok out ↔ (raw.size ≠ 0 ∧ raw.size ≤ maxCheckpointBytes) ∧
      ∃ entries, parse raw = some (.obj entries) ∧ HasShape entries ∧
        checkDigests raw entries ((text? (entries.lookup (text "generation"))).getD [])
          ((text? (entries.lookup (text "checkpoint_digest"))).getD []) = .ok out := by
  rw [validateCheckpointBytes, Imp.check_bind_eq_ok, Imp.require_eq_ok]
  refine and_congr_right' ?_
  split
  · next hparse =>
      rw [hparse]
      exact iff_of_false nofun nofun
  · next entries hparse =>
      simp only [hparse, Imp.check_bind_eq_ok, Imp.require_eq_ok]
      constructor
      · rintro ⟨hkeys, hschema, hhashable, hfields, hdigests⟩
        exact ⟨entries, rfl, ⟨hkeys, hschema, hhashable, hfields⟩, hdigests⟩
      · rintro ⟨entries', heq, hshape, hdigests⟩
        obtain rfl := Json.obj.inj (Option.some.inj heq)
        exact ⟨hshape.keys, hshape.schema, hshape.hashable, hshape.fields, hdigests⟩
  · next v hnot hparse =>
      refine iff_of_false nofun ?_
      rintro ⟨entries, heq, -⟩
      exact hnot entries (Option.some.inj (hparse.symm.trans heq))

/-- The values of the fields of a document. -/
structure FieldsAre (entries : List (Text × Tree)) (digest generation : Text) (mode : LabMode)
    (state : List (Text × Tree)) (fingerprint : Text) : Prop where
  lookup_digest : entries.lookup (text "checkpoint_digest") = some (Lab.str digest)
  lookup_generation : entries.lookup (text "generation") = some (Lab.str generation)
  lookup_mode : entries.lookup (text "mode") = some (Lab.str mode.value)
  lookup_schema : entries.lookup (text "schema_version") = some (Lab.str checkpointSchema)
  lookup_seed : entries.lookup (text "seed") = some (Lab.str Lab.canonicalSeed)
  lookup_state : entries.lookup (text "state") = some (.obj state)
  lookup_fingerprint : entries.lookup (text "state_fingerprint") = some (Lab.str fingerprint)
  digest_hex : isSha256 digest = true
  generation_hex : isGeneration generation = true
  fingerprint_hex : isSha256 fingerprint = true

theorem HasShape.exists_fields {entries : List (Text × Tree)} (h : HasShape entries) :
    ∃ digest generation mode state fingerprint,
      FieldsAre entries digest generation mode state fingerprint := by
  have hfields := h.fields
  simp only [fieldsBound, Bool.and_eq_true, Bool.or_eq_true, beq_iff_eq, isTextOf_eq_true] at hfields
  obtain ⟨⟨⟨⟨⟨hmode, hseed⟩, hstate⟩, generation, hgeneration, hhex⟩, fingerprint, hfingerprint, hhex'⟩,
    digest, hdigest, hhex''⟩ := hfields
  obtain ⟨mode, hmode⟩ : ∃ mode : LabMode, entries.lookup (text "mode") = some (Lab.str mode.value) := by
    rcases hmode with hmode | hmode
    · exact ⟨.vulnerable, text?_eq_some.mp hmode⟩
    · exact ⟨.patched, text?_eq_some.mp hmode⟩
  obtain ⟨state, hstate⟩ : ∃ state, entries.lookup (text "state") = some (.obj state) := by
    cases hlookup : entries.lookup (text "state") with
    | none =>
        rw [hlookup] at hstate
        cases hstate
    | some v =>
        rw [hlookup] at hstate
        cases v with
        | obj state => exact ⟨state, rfl⟩
        | _ => cases hstate
  exact ⟨digest, generation, mode, state, fingerprint, hdigest, hgeneration, hmode,
    text?_eq_some.mp h.schema, text?_eq_some.mp hseed, hstate, hfingerprint, hhex'', hhex, hhex'⟩

theorem lookup_of_mem {entries : List (Text × Tree)} (h : (entries.map Prod.fst).Nodup)
    {e : Text × Tree} (he : e ∈ entries) : entries.lookup e.1 = some e.2 := by
  induction entries with
  | nil => cases he
  | cons e' entries ih =>
      rw [List.map_cons, List.nodup_cons] at h
      rw [List.lookup_cons]
      rcases List.mem_cons.mp he with rfl | he
      · rw [beq_self_eq_true]
      · have hne : e.1 ≠ e'.1 := fun heq => h.1 (heq ▸ List.mem_map_of_mem he)
        rw [beq_eq_false_iff_ne.mpr hne]
        exact ih h.2 he

theorem without_nil (entries : List (Text × Tree)) : without [] entries = entries :=
  List.filter_eq_self.mpr fun _ _ => decide_eq_true List.not_mem_nil

section Fields

variable {entries state : List (Text × Tree)} {digest generation fingerprint : Text} {mode : LabMode}

/-- The document of accepted bytes without some keys, in order. -/
theorem FieldsAre.sort_without (h : FieldsAre entries digest generation mode state fingerprint)
    (hshape : HasShape entries) (hnodup : (entries.map Prod.fst).Nodup) (removed : List Text) :
    (Json.obj (without removed entries)).sort =
      .obj ((document digest generation mode (Json.obj state).sort fingerprint).filter
        fun e => e.1 ∉ removed) := by
  have hsorted : checkpointKeys.Pairwise (· < ·) := by decide
  have hperm : (entries.map Prod.fst).Perm checkpointKeys :=
    (List.perm_ext_iff_of_nodup hnodup (hsorted.imp ne_of_lt)).mpr fun key =>
      ⟨hshape.keys.1 key, hshape.keys.2 key⟩
  let value : Text → Tree := fun key => (entries.lookup key).getD (.scalar .null)
  have hvalue : ∀ e ∈ without removed entries, value e.1 = e.2 := fun e he => by
    change (entries.lookup e.1).getD _ = e.2
    rw [lookup_of_mem hnodup (List.mem_of_mem_filter he), Option.getD_some]
  have hkeys : ((without removed entries).map Prod.fst).Perm
      (checkpointKeys.filter fun key => key ∉ removed) := by
    have hfilter := hperm.filter fun key => decide (key ∉ removed)
    rw [List.filter_map] at hfilter
    exact hfilter
  have hdocument : checkpointKeys.map (fun key => (key, (value key).sort)) =
      document digest generation mode (Json.obj state).sort fingerprint := by
    simp only [checkpointKeys, document, List.map_cons, List.map_nil, value, h.lookup_digest,
      h.lookup_generation, h.lookup_mode, h.lookup_schema, h.lookup_seed, h.lookup_state,
      h.lookup_fingerprint, Option.getD_some, Lab.str]
    simp only [Json.sort]
  rw [Json.sort_obj (hsorted.filter _) hkeys hvalue, ← hdocument, List.filter_map]
  rfl

/-- The text of a document. -/
theorem text_document (state : Tree) :
    Json.text Py.asciiSyntax (.obj (document digest generation mode state fingerprint)) =
      Lab.checkpointText (Py.quoteAscii digest) (Py.quoteAscii generation) (Py.quoteAscii mode.value)
        (Json.text Py.asciiSyntax state) (Py.quoteAscii fingerprint) := by
  simp only [document, Json.text, Json.entriesText, Lab.checkpointText, Lab.payloadTail, Lab.fieldText,
    Lab.str, Py.asciiSyntax, Py.literalText, List.cons_append, List.append_assoc]
  rfl

/-- The text of a document without its digest. -/
theorem text_unsigned (state : Tree) :
    Json.text Py.asciiSyntax (.obj ((document digest generation mode state fingerprint).filter
      fun e => e.1 ∉ [text "checkpoint_digest"])) =
      Lab.unsignedText (Py.quoteAscii generation) (Py.quoteAscii mode.value)
        (Json.text Py.asciiSyntax state) (Py.quoteAscii fingerprint) := by
  have hfilter : (document digest generation mode state fingerprint).filter
      (fun e => e.1 ∉ [text "checkpoint_digest"]) =
        (document digest generation mode state fingerprint).drop 1 := rfl
  rw [hfilter]
  simp only [document, List.drop_succ_cons, List.drop_zero, Json.text, Json.entriesText,
    Lab.unsignedText, Lab.payloadTail, Lab.fieldText, Lab.str, Py.asciiSyntax, Py.literalText,
    List.cons_append, List.append_assoc]
  rfl

/-- The text of a document without its name and its digest. -/
theorem text_payload (state : Tree) :
    Json.text Py.asciiSyntax (.obj ((document digest generation mode state fingerprint).filter
      fun e => e.1 ∉ [text "generation", text "checkpoint_digest"])) =
      Lab.generationText (Py.quoteAscii mode.value) (Json.text Py.asciiSyntax state)
        (Py.quoteAscii fingerprint) := by
  have hfilter : (document digest generation mode state fingerprint).filter
      (fun e => e.1 ∉ [text "generation", text "checkpoint_digest"]) =
        (document digest generation mode state fingerprint).drop 2 := rfl
  rw [hfilter]
  simp only [document, List.drop_succ_cons, List.drop_zero, Json.text, Json.entriesText,
    Lab.generationText, Lab.payloadTail, Lab.fieldText, Lab.str, Py.asciiSyntax, Py.literalText,
    List.cons_append, List.append_assoc]
  rfl

end Fields

/-! ## The document of a checkpoint -/

section Document

variable {digest generation fingerprint : Text} {mode : LabMode}

theorem sort_document (state : Tree) :
    (Json.obj (document digest generation mode state fingerprint)).sort =
      .obj (document digest generation mode state.sort fingerprint) := rfl

theorem distinct_document {state : Tree} :
    (Json.obj (document digest generation mode state fingerprint)).Distinct ↔ state.Distinct := by
  have hkeys : checkpointKeys.Nodup := by decide
  constructor
  · intro h
    cases h with
    | obj hkeys hall => exact hall (text "state", state) (by simp only [document, List.mem_cons, true_or, or_true])
  · intro h
    refine .obj hkeys fun e he => ?_
    simp only [document, List.mem_cons, List.not_mem_nil, or_false] at he
    rcases he with rfl | rfl | rfl | rfl | rfl | rfl | rfl
    · exact .scalar _
    · exact .scalar _
    · exact .scalar _
    · exact .scalar _
    · exact .scalar _
    · exact h
    · exact .scalar _

theorem isPlain_document {state : Tree} (h : ∀ s ∈ state.scalars, s.IsPlain) :
    ∀ s ∈ (Json.obj (document digest generation mode state fingerprint)).scalars, s.IsPlain := by
  intro s hs
  simp only [document, Lab.str, Json.scalars, Json.entriesScalars, List.mem_append, List.mem_singleton,
    List.not_mem_nil, or_false] at hs
  rcases hs with rfl | rfl | rfl | rfl | rfl | hs | rfl
  · trivial
  · trivial
  · trivial
  · trivial
  · trivial
  · exact h s hs
  · trivial

theorem sublist_generationText (digest generation mode state fingerprint : List Char) :
    (Lab.generationText mode state fingerprint).Sublist
      (Lab.checkpointText digest generation mode state fingerprint) :=
  ((((List.Sublist.refl _).cons ',').trans (List.sublist_append_right _ _)).cons ',' |>.trans
    (List.sublist_append_right _ _)).cons_cons '{'

theorem sublist_unsignedText (digest generation mode state fingerprint : List Char) :
    (Lab.unsignedText generation mode state fingerprint).Sublist
      (Lab.checkpointText digest generation mode state fingerprint) :=
  (((List.Sublist.refl _).cons ',').trans (List.sublist_append_right _ _)).cons_cons '{'

theorem fieldsAre_document {state : List (Text × Tree)} (hdigest : isSha256 digest = true)
    (hgeneration : isGeneration generation = true) (hfingerprint : isSha256 fingerprint = true) :
    FieldsAre (document digest generation mode (.obj state) fingerprint) digest generation mode state
      fingerprint :=
  ⟨rfl, rfl, rfl, rfl, rfl, rfl, rfl, hdigest, hgeneration, hfingerprint⟩

/-- A document with the fields of a checkpoint has its shape. -/
theorem FieldsAre.hasShape {entries state : List (Text × Tree)}
    (h : FieldsAre entries digest generation mode state fingerprint)
    (hkeys : entries.map Prod.fst = checkpointKeys) : HasShape entries := by
  refine ⟨⟨fun key hkey => hkeys ▸ hkey, fun key hkey => hkeys ▸ hkey⟩, ?_, ?_, ?_⟩
  · rw [h.lookup_schema]
    rfl
  · rw [h.lookup_mode]
    rfl
  · simp only [fieldsBound, h.lookup_mode, h.lookup_seed, h.lookup_state, Bool.and_eq_true,
      Bool.or_eq_true, beq_iff_eq]
    refine ⟨⟨⟨⟨⟨?_, rfl⟩, rfl⟩, ?_⟩, ?_⟩, ?_⟩
    · cases mode
      · exact Or.inl rfl
      · exact Or.inr rfl
    · exact isTextOf_eq_true.mpr ⟨generation, h.lookup_generation, h.generation_hex⟩
    · exact isTextOf_eq_true.mpr ⟨fingerprint, h.lookup_fingerprint, h.fingerprint_hex⟩
    · exact isTextOf_eq_true.mpr ⟨digest, h.lookup_digest, h.digest_hex⟩

end Document

/-! ## Digests -/

theorem distinct_of_parse {raw : ByteArray} {v : Tree} (h : parse raw = some v) : v.Distinct := by
  rw [parse] at h
  split at h
  · cases h
  · obtain ⟨characters, -, hloads⟩ := Option.bind_eq_some_iff.mp h
    exact Py.distinct_of_loads (Imp.toOption_eq_some.mp hloads)

theorem nodup_of_parse {raw : ByteArray} {entries : List (Text × Tree)}
    (h : parse raw = some (.obj entries)) : (entries.map Prod.fst).Nodup := by
  cases distinct_of_parse h with
  | obj hkeys => exact hkeys

/-- The bytes that the generation of a document is the digest of. -/
def generationBytes (raw : ByteArray) : Except Exc ByteArray :=
  match parse raw with
  | some (.obj entries) =>
      checkpointCanonical (.obj (without [text "generation", text "checkpoint_digest"] entries))
  | _ => .error (.checkpoint "checkpoint-invalid")

section Digests

variable [Sha256]

theorem checkDigests_eq_ok {raw : ByteArray} {entries : List (Text × Tree)} {generation digest : Text}
    {out : ByteArray × Text × Text} : checkDigests raw entries generation digest = .ok out ↔
      checkpointCanonical (.obj entries) = .ok raw ∧
      (∃ payload, checkpointCanonical
        (.obj (without [text "generation", text "checkpoint_digest"] entries)) = .ok payload ∧
          text (Sha256.hexdigest payload) = generation) ∧
      (∃ payload, checkpointCanonical (.obj (without [text "checkpoint_digest"] entries)) = .ok payload ∧
        checkpointHash payload = digest) ∧ out = (raw, generation, digest) := by
  rw [checkDigests]
  constructor
  · intro h
    obtain ⟨canonical, hcanonical, h₁⟩ := Imp.except_bind_eq_ok.mp h
    obtain ⟨hraw, h₂⟩ := Imp.check_bind_eq_ok.mp h₁
    obtain ⟨payload, hpayload, h₃⟩ := Imp.except_bind_eq_ok.mp h₂
    obtain ⟨hgeneration, h₄⟩ := Imp.check_bind_eq_ok.mp h₃
    obtain ⟨payload', hpayload', h₅⟩ := Imp.except_bind_eq_ok.mp h₄
    obtain ⟨hdigest, hreturn⟩ := Imp.check_bind_eq_ok.mp h₅
    rw [Imp.require_eq_ok.mp hraw] at hcanonical
    exact ⟨hcanonical, ⟨payload, hpayload, Imp.require_eq_ok.mp hgeneration⟩,
      ⟨payload', hpayload', Imp.require_eq_ok.mp hdigest⟩, (Except.ok.inj hreturn).symm⟩
  · rintro ⟨hcanonical, ⟨payload, hpayload, hgeneration⟩, ⟨payload', hpayload', hdigest⟩, rfl⟩
    refine Imp.except_bind_eq_ok.mpr ⟨raw, hcanonical, ?_⟩
    refine Imp.check_bind_eq_ok.mpr ⟨Imp.require_eq_ok.mpr rfl, ?_⟩
    refine Imp.except_bind_eq_ok.mpr ⟨payload, hpayload, ?_⟩
    refine Imp.check_bind_eq_ok.mpr ⟨Imp.require_eq_ok.mpr hgeneration, ?_⟩
    refine Imp.except_bind_eq_ok.mpr ⟨payload', hpayload', ?_⟩
    exact Imp.check_bind_eq_ok.mpr ⟨Imp.require_eq_ok.mpr hdigest, rfl⟩

/-- Accepted bytes are sealed and named after the digest of their payload. -/
theorem fst_of_validate {raw bytes : ByteArray} {generation digest : Text}
    (h : validateCheckpointBytes raw = .ok (bytes, generation, digest)) : bytes = raw := by
  obtain ⟨-, entries, -, -, hdigests⟩ := validateCheckpointBytes_eq_ok.mp h
  exact (Prod.mk.inj (checkDigests_eq_ok.mp hdigests).2.2.2).1

theorem isGeneration_of_validate {raw bytes : ByteArray} {generation digest : Text}
    (h : validateCheckpointBytes raw = .ok (bytes, generation, digest)) :
    isGeneration generation = true := by
  obtain ⟨-, entries, hparse, hshape, hdigests⟩ := validateCheckpointBytes_eq_ok.mp h
  obtain ⟨digest', generation', mode, state, fingerprint, hfields⟩ := hshape.exists_fields
  rw [hfields.lookup_generation] at hdigests
  have hout := (Prod.mk.inj (checkDigests_eq_ok.mp hdigests).2.2.2).2
  rw [(Prod.mk.inj hout).1]
  exact hfields.generation_hex

theorem size_of_validate {raw : ByteArray} {out : ByteArray × Text × Text}
    (h : validateCheckpointBytes raw = .ok out) : raw.size ≤ maxCheckpointBytes :=
  (validateCheckpointBytes_eq_ok.mp h).1.2

theorem sealedAs_of_validate {raw bytes : ByteArray} {generation digest : Text}
    (h : validateCheckpointBytes raw = .ok (bytes, generation, digest)) :
    ∃ mode state fingerprint, SealedAs raw generation mode state fingerprint ∧
      generationBytes raw = .ok (Py.encode (Lab.generationText (Py.quoteAscii mode.value) state
        (Py.quoteAscii fingerprint))) ∧
      generation = text (Sha256.hexdigest (Py.encode (Lab.generationText (Py.quoteAscii mode.value) state
        (Py.quoteAscii fingerprint)))) := by
  obtain ⟨-, entries, hparse, hshape, hdigests⟩ := validateCheckpointBytes_eq_ok.mp h
  obtain ⟨digest', generation', mode, state, fingerprint, hfields⟩ := hshape.exists_fields
  have hnodup := nodup_of_parse hparse
  rw [hfields.lookup_generation, hfields.lookup_digest] at hdigests
  obtain ⟨hcanonical, ⟨payload, hpayload, hname⟩, ⟨payload', hpayload', hseal⟩, hout⟩ :=
    checkDigests_eq_ok.mp hdigests
  obtain ⟨-, hout'⟩ := Prod.mk.inj hout
  obtain ⟨rfl, rfl⟩ := Prod.mk.inj hout'
  have hwhole := hfields.sort_without hshape hnodup []
  rw [without_nil, ← without, without_nil] at hwhole
  have hraw := (checkpointCanonical_eq_ok.mp hcanonical).2.1
  have hgeneration := (checkpointCanonical_eq_ok.mp hpayload).2.1
  have hunsigned := (checkpointCanonical_eq_ok.mp hpayload').2.1
  rw [Py.canonicalText, hwhole, text_document, ← Py.canonicalText] at hraw
  rw [Py.canonicalText, hfields.sort_without hshape hnodup, text_payload, ← Py.canonicalText] at hgeneration
  rw [Py.canonicalText, hfields.sort_without hshape hnodup, text_unsigned, ← Py.canonicalText] at hunsigned
  refine ⟨mode, Py.canonicalText (.obj state), fingerprint, ⟨hfields.fingerprint_hex, ?_⟩, ?_, ?_⟩
  · rw [Lab.sealOf, ← hunsigned, ← checkpointHash, hseal]
    exact hraw
  · rw [generationBytes, hparse, ← hgeneration]
    exact hpayload
  · rw [← hgeneration]
    exact hname.symm

/-- Accepted bytes are told by their generation. -/
theorem eq_of_validate {raw raw' bytes bytes' : ByteArray} {generation digest digest' : Text}
    (h : validateCheckpointBytes raw = .ok (bytes, generation, digest))
    (h' : validateCheckpointBytes raw' = .ok (bytes', generation, digest'))
    (hcollision : Sha256.NoCollision (generationBytes raw) (generationBytes raw')) : raw = raw' := by
  obtain ⟨mode, state, fingerprint, hsealed, hbytes, hname⟩ := sealedAs_of_validate h
  obtain ⟨mode', state', fingerprint', hsealed', hbytes', hname'⟩ := sealedAs_of_validate h'
  exact hsealed.eq hsealed' (Py.encode_injective
    (hcollision _ _ hbytes hbytes' (Py.text_injective (hname.symm.trans hname'))))

/-! ## Checkpoints of the lab -/

/-- The state of a checkpoint as it is read of its bytes. -/
def stateAsRead (c : Lab.CheckpointFields) : Tree :=
  Py.normalizeTree (Json.obj c.state.entries).sort

theorem normalizeTree_sortedDump (c : LabStateCheckpoint) :
    Py.normalizeTree (.obj (Lab.sortedDump c.toCheckpointFields)) =
      .obj (document c.checkpointDigest c.generation c.mode (stateAsRead c.toCheckpointFields)
        c.stateFingerprint) := by
  have hkey : ∀ key ∈ checkpointKeys, Py.normalize key = key := by
    have hall : ∀ key ∈ checkpointKeys, key.all (fun a => Py.isSurrogate a == false) = true := by decide
    exact fun key hkey => Py.normalize_eq_self fun a ha =>
      eq_of_beq (List.all_eq_true.mp (hall key hkey) a ha)
  have hvalue : ∀ t ∈ Lab.fieldValues c.toCheckpointFields, (Lab.str t).map Py.Literal.normalize
      Py.normalize = Lab.str t := fun t ht => by
    rw [Lab.str, Json.map, Py.Literal.normalize, Py.normalize_eq_self
      (Lab.not_isSurrogate_of_isPlainText (Lab.isPlainText_of_mem_fieldValues c.generation_hex
        c.fingerprint_hex c.digest_hex t ht))]
  simp only [checkpointKeys, List.forall_mem_cons] at hkey
  simp only [Lab.fieldValues, List.forall_mem_cons] at hvalue
  obtain ⟨hkey₁, hkey₂, hkey₃, hkey₄, hkey₅, hkey₆, hkey₇, -⟩ := hkey
  obtain ⟨hschema, hgeneration, hmode, hseed, hfingerprint, hdigest, -⟩ := hvalue
  simp only [Py.normalizeTree, Lab.sortedDump, Json.map, Json.mapEntries, hkey₁, hkey₂, hkey₃, hkey₄,
    hkey₅, hkey₆, hkey₇, hschema, hgeneration, hmode, hseed, hfingerprint, hdigest]
  rfl

/-- What the bytes of a checkpoint are parsed as. -/
theorem parse_canonicalBytes {c : LabStateCheckpoint} {raw : ByteArray}
    (hraw : c.canonicalBytes = .ok raw) (hsize : raw.size ≤ maxCheckpointBytes) {v : Tree} :
    parse raw = some v ↔ v = .obj (document c.checkpointDigest c.generation c.mode
      (stateAsRead c.toCheckpointFields) c.stateFingerprint) ∧
        (stateAsRead c.toCheckpointFields).Distinct := by
  obtain ⟨herror, hencode⟩ := Lab.canonical_eq_ok.mp hraw
  have hplain : ∀ s ∈ c.dump.sort.scalars, s.IsPlain := fun s hs =>
    c.isPlain herror s ((Json.mem_scalars_sort _ s).mp hs)
  have hloads : Py.loads (Py.canonicalText c.dump) = Py.reread c.dump.sort := Py.loads_asciiText hplain
  have hnonempty : raw.size ≠ 0 := by
    rw [hencode, Lab.canonicalText_dump]
    exact Py.size_encode_pos (List.cons_ne_nil _ _)
  have hsmall : ¬ (raw.size = 0 ∨ maxDocumentBytes < raw.size) := by
    rw [maxDocumentBytes]
    rw [maxCheckpointBytes] at hsize
    omega
  have hparse : parse raw = (Py.reread c.dump.sort).toOption := by
    rw [parse, if_neg hsmall, hencode, Py.decode_encode, Option.bind_some, hloads]
  rw [hparse, Imp.toOption_eq_some, Py.reread_eq_ok, Lab.sort_dump, normalizeTree_sortedDump]
  refine and_congr_right ?_
  rintro rfl
  exact distinct_document

theorem isPlain_stateAsRead {c : LabStateCheckpoint} {raw : ByteArray}
    (hraw : c.canonicalBytes = .ok raw) :
    ∀ s ∈ (stateAsRead c.toCheckpointFields).scalars, s.IsPlain := by
  intro s hs
  rw [stateAsRead, Py.normalizeTree, Json.scalars_map] at hs
  obtain ⟨s', hs', rfl⟩ := List.mem_map.mp hs
  refine Py.isPlain_normalize (c.isPlain (Lab.canonical_eq_ok.mp hraw).1 s' ?_)
  have hstate := (Json.mem_scalars_sort _ s').mp hs'
  simp only [Lab.CheckpointFields.dump, Lab.str, Json.scalars, Json.entriesScalars, List.mem_append]
  exact Or.inr (Or.inr (Or.inr (Or.inr (Or.inl hstate))))

/-- The document of a checkpoint is written as its bytes if its state is read back in order. -/
theorem checkpointCanonical_document {c : LabStateCheckpoint} {raw : ByteArray}
    (hraw : c.canonicalBytes = .ok raw) (hsize : raw.size ≤ maxCheckpointBytes)
    (hdistinct : (stateAsRead c.toCheckpointFields).Distinct) :
    checkpointCanonical (.obj (document c.checkpointDigest c.generation c.mode
      (stateAsRead c.toCheckpointFields) c.stateFingerprint)) = .ok raw ↔
        (stateAsRead c.toCheckpointFields).Ascending := by
  have hplain := isPlain_stateAsRead hraw
  have hencode := (Lab.canonical_eq_ok.mp hraw).2
  have htext : Py.asciiText (stateAsRead c.toCheckpointFields) = Py.canonicalText (.obj c.state.entries) :=
    Py.asciiText_normalizeTree _
  rw [checkpointCanonical_eq_ok, Py.canonicalText, sort_document, text_document]
  rw [Lab.canonicalText_dump, ← htext] at hencode
  constructor
  · rintro ⟨-, hwritten, -⟩
    have hequal := Py.encode_injective (hencode.symm.trans hwritten)
    simp only [Lab.checkpointText, Lab.payloadTail, Lab.fieldText, List.cons_append, List.append_assoc,
      List.cons.injEq, List.append_cancel_left_eq, true_and, List.append_cancel_right_eq] at hequal
    exact Py.ascending_of_asciiText_sort (Py.normalizeTree_normalizeTree _) hdistinct hplain hequal.symm
  · intro hascending
    rw [((Json.ascending_iff _).mp hascending).2]
    refine ⟨fun s hs => Py.literalError_of_isPlain (isPlain_document hplain s hs), hencode, ?_, hsize⟩
    rw [hencode]
    exact Py.size_encode_pos (List.cons_ne_nil _ _)

/-- The bridge accepts a checkpoint that is named after the digest of its payload if its state is read
back in order. -/
theorem validate_canonicalBytes {c : LabStateCheckpoint} {raw : ByteArray}
    (hraw : c.canonicalBytes = .ok raw) (hsize : raw.size ≤ maxCheckpointBytes)
    (hname : Lab.hexdigest c.generationPayload = .ok c.generation) :
    validateCheckpointBytes raw = .ok (raw, c.generation, c.checkpointDigest) ↔
      (stateAsRead c.toCheckpointFields).Ascending := by
  rw [validateCheckpointBytes_eq_ok]
  constructor
  · rintro ⟨-, entries, hparse, -, hdigests⟩
    obtain ⟨hentries, hdistinct⟩ := (parse_canonicalBytes hraw hsize).mp hparse
    obtain rfl := Json.obj.inj hentries
    exact (checkpointCanonical_document hraw hsize hdistinct).mp (checkDigests_eq_ok.mp hdigests).1
  · intro hascending
    obtain ⟨hdistinct, hsort⟩ := (Json.ascending_iff _).mp hascending
    have hcanonical := (checkpointCanonical_document hraw hsize hdistinct).mpr hascending
    have hfields : FieldsAre (document c.checkpointDigest c.generation c.mode
        (stateAsRead c.toCheckpointFields) c.stateFingerprint) c.checkpointDigest c.generation c.mode _
        c.stateFingerprint := fieldsAre_document c.digest_hex c.generation_hex c.fingerprint_hex
    have hshape := hfields.hasShape rfl
    have hparse := (parse_canonicalBytes hraw hsize).mpr ⟨rfl, hdistinct⟩
    have hnodup := nodup_of_parse hparse
    have htext : Py.asciiText (stateAsRead c.toCheckpointFields).sort =
        Py.canonicalText (.obj c.state.entries) := by
      rw [hsort]
      exact Py.asciiText_normalizeTree _
    have hencode := (Lab.canonical_eq_ok.mp hraw).2
    rw [Lab.canonicalText_dump] at hencode
    have hpayload : ∀ (removed : List Text) (t : List Char), Py.canonicalText (.obj (without removed
        (document c.checkpointDigest c.generation c.mode (stateAsRead c.toCheckpointFields)
          c.stateFingerprint))) = t → t ≠ [] →
        t.Sublist (Lab.checkpointText (Py.quoteAscii c.checkpointDigest) (Py.quoteAscii c.generation)
          (Py.quoteAscii c.mode.value) (Py.canonicalText (.obj c.state.entries))
          (Py.quoteAscii c.stateFingerprint)) →
        checkpointCanonical (.obj (without removed (document c.checkpointDigest c.generation c.mode
          (stateAsRead c.toCheckpointFields) c.stateFingerprint))) = .ok (Py.encode t) := by
      rintro removed t rfl hne hpart
      refine checkpointCanonical_eq_ok.mpr ⟨fun s hs => ?_, rfl, Py.size_encode_pos hne, ?_⟩
      · obtain ⟨e, he, hse⟩ := Json.mem_entriesScalars.mp hs
        exact Py.literalError_of_isPlain (isPlain_document (isPlain_stateAsRead hraw) s
          (Json.mem_entriesScalars.mpr ⟨e, List.mem_of_mem_filter he, hse⟩))
      · exact (Py.size_encode_le_of_sublist hpart).trans (hencode ▸ hsize)
    have hgeneration := (Lab.hexdigest_eq_ok.mp hname).2
    rw [Lab.CheckpointFields.generationPayload, Lab.canonicalText_generationPayload] at hgeneration
    have hdigest := (Lab.digest_eq_ok.mp c.sealed).2
    rw [Lab.CheckpointFields.unsignedPayload, Lab.canonicalText_unsignedPayload] at hdigest
    refine ⟨⟨(checkpointCanonical_eq_ok.mp hcanonical).2.2.1, hsize⟩, _, hparse, hshape, ?_⟩
    rw [hfields.lookup_generation, hfields.lookup_digest]
    refine checkDigests_eq_ok.mpr ⟨hcanonical, ⟨_, hpayload _ _ ?_ (List.cons_ne_nil _ _)
      (sublist_generationText _ _ _ _ _), hgeneration.symm⟩, ⟨_, hpayload _ _ ?_ (List.cons_ne_nil _ _)
        (sublist_unsignedText _ _ _ _ _), hdigest.symm⟩, rfl⟩
    · rw [Py.canonicalText, hfields.sort_without hshape hnodup, text_payload, ← htext]
      rfl
    · rw [Py.canonicalText, hfields.sort_without hshape hnodup, text_unsigned, ← htext]
      rfl

/-! ## Content addresses -/

end Digests

/-! ## Forged names -/

/-- A name that is the digest of nothing known. -/
def forgedGeneration : Text := List.replicate 64 48

def blankFingerprint : Text := text "sha256:" ++ List.replicate 64 48

def emptyState : Py.JsonObject := ⟨[], .obj List.nodup_nil (List.forall_mem_nil _)⟩

/-- The text of the payload of an empty state. -/
def blankPayload (mode : LabMode) : List Char :=
  Lab.generationText (Py.quoteAscii mode.value) ['\x7b', '\x7d'] (Py.quoteAscii blankFingerprint)

theorem blankFingerprint_hex : Lab.isSha256Text blankFingerprint = true := by decide

theorem literalError_emptyState :
    ∀ s ∈ (Json.obj emptyState.entries : Tree).scalars, Py.literalError s = none := List.forall_mem_nil _

/-- The bytes of a checkpoint of an empty state. -/
theorem canonicalBytes_of_emptyState [Sha256] {c : LabStateCheckpoint} (hstate : c.state = emptyState) :
    ∃ raw, c.canonicalBytes = .ok raw ∧ raw.size ≠ 0 ∧ raw.size ≤ Lab.maxCheckpointBytes := by
  refine c.canonicalBytes_of_short ?_ ?_
  · rw [hstate]
    exact literalError_emptyState
  · rw [hstate]
    decide

/-- An empty state in any mode is accepted by the lab under any name. -/
theorem exists_named [Sha256] {generation : Text} (hgeneration : Lab.isHexText generation = true)
    (mode : LabMode) : ∃ raw c, Lab.fromCanonicalBytes raw = .ok c ∧ c.generation = generation ∧
      Lab.canonical c.generationPayload = .ok (Py.encode (blankPayload mode)) := by
  obtain ⟨c, hc⟩ := Lab.exists_sealed mode hgeneration blankFingerprint_hex rfl literalError_emptyState
  obtain ⟨raw, hraw, hsize⟩ := canonicalBytes_of_emptyState (congrArg Lab.CheckpointFields.state hc)
  obtain ⟨c', hread, hfields⟩ := Lab.fromCanonicalBytes_canonicalBytes hraw hsize
    (by rw [hc]; rfl) (by rw [hc]; rfl)
  refine ⟨raw, c', hread, by rw [hfields, hc]; rfl, ?_⟩
  rw [c'.canonical_generationPayload (Lab.canonicalBytes_of_fromCanonicalBytes hread), hfields, hc]
  rfl

/-- The bridge accepts some checkpoint. -/
theorem exists_valid [Sha256] : ∃ raw generation digest,
    validateCheckpointBytes raw = .ok (raw, generation, digest) := by
  obtain ⟨c, hc⟩ := Lab.exists_create .vulnerable blankFingerprint_hex rfl literalError_emptyState
  obtain ⟨-, hstate, -, hname⟩ := Lab.create_eq_ok hc
  obtain ⟨raw, hraw, -, hsize⟩ := canonicalBytes_of_emptyState hstate
  have hascending : (stateAsRead c.toCheckpointFields).Ascending := by
    rw [stateAsRead, hstate]
    exact .obj List.Pairwise.nil (List.forall_mem_nil _)
  exact ⟨raw, _, _, (validate_canonicalBytes hraw hsize hname).mpr hascending⟩

theorem forgedGeneration_hex : Lab.isHexText forgedGeneration = true := by decide

theorem digest_blankPayload : Sha2.hexdigest (Py.encode (blankPayload .vulnerable)) =
      "57e5924a7b052e2148aa3c6ebc9982e19536d33ef0cc65fd7a0151ec186ff544" ∧
    Sha2.hexdigest (Py.encode (blankPayload .patched)) =
      "da66191427ff840332f8dae4c9b95ccf6ba0f30210115efff58994e8b2bbc357" :=
  ⟨Sha2.hexdigest_of_asciiDigest (by decide +kernel), Sha2.hexdigest_of_asciiDigest (by decide +kernel)⟩

/-- The payloads of the two modes do not collide. -/
theorem noCollision_blankPayload {ε : Type} : @Sha256.NoCollision Sha2.sha256 ε
    (.ok (Py.encode (blankPayload .vulnerable))) (.ok (Py.encode (blankPayload .patched))) := by
  intro bytes bytes' hbytes hbytes' hequal
  rw [← Except.ok.inj hbytes, ← Except.ok.inj hbytes'] at hequal
  exact absurd (digest_blankPayload.1.symm.trans (hequal.trans digest_blankPayload.2)) (by decide)

end StateWeaver.Bridge
