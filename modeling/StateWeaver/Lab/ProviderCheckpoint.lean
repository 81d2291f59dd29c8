import StateWeaver.Lib.JsonReader
import StateWeaver.Lib.Sha256

/-!
# Sealed checkpoints of the lab

A checkpoint holds the state of the lab as a bounded JSON object. It is sealed by a digest of its
payload, and `create` names it after the digest of the payload without the name. Bytes are accepted if
they are the canonical JSON of a sealed checkpoint.
-/

namespace StateWeaver.Lab

open Py (Text Tree JsonObject text)

inductive LabMode where
  | vulnerable | patched
  deriving DecidableEq

def LabMode.value : LabMode → Text
  | .vulnerable => text "vulnerable"
  | .patched => text "patched"

/-- What the checkpoint code raises. -/
inductive Exc where
  /-- `CheckpointError`. -/
  | checkpoint (message : String)
  /-- `CheckpointConflictError`. -/
  | conflict (message : String)
  /-- `CheckpointPoisonedError`. -/
  | poisoned (message : String)
  /-- `ValidationError` of the model. -/
  | validation
  /-- `ValueError` of `json.loads` for an integer with too many digits. -/
  | digits
  deriving DecidableEq

def schemaVersion : Text := text "stateweaver-lab-checkpoint-v1"

def canonicalSeed : Text := text "m0-canonical-v1"

def maxCheckpointBytes : ℕ := 131072

/-! ## Bounds -/

/-- `_bound` of a scalar. -/
def boundLiteral : Py.Literal → Except Exc Unit
  | .str s => Imp.require (s.length ≤ 512) (.checkpoint "checkpoint string exceeds fixed boundary")
  | .float _ => .error (.checkpoint "checkpoint JSON type is invalid")
  | _ => .ok ()

mutual

/-- `_bound`. -/
def bound : Tree → ℕ → Except Exc Unit
  | .scalar s, depth => do
      Imp.require (depth ≤ 16) (.checkpoint "checkpoint nesting exceeds fixed boundary")
      boundLiteral s
  | .arr items, depth => do
      Imp.require (depth ≤ 16) (.checkpoint "checkpoint nesting exceeds fixed boundary")
      Imp.require (items.length ≤ 256) (.checkpoint "checkpoint array exceeds fixed boundary")
      boundItems items (depth + 1)
  | .obj entries, depth => do
      Imp.require (depth ≤ 16) (.checkpoint "checkpoint nesting exceeds fixed boundary")
      Imp.require (entries.length ≤ 256) (.checkpoint "checkpoint object exceeds fixed boundary")
      boundEntries entries (depth + 1)

def boundItems : List Tree → ℕ → Except Exc Unit
  | [], _ => .ok ()
  | v :: items, depth => do
      bound v depth
      boundItems items depth

def boundEntries : List (Text × Tree) → ℕ → Except Exc Unit
  | [], _ => .ok ()
  | (key, v) :: entries, depth => do
      Imp.require (key.length ≤ 128) (.checkpoint "checkpoint key is invalid")
      bound v depth
      boundEntries entries depth

end

/-! ## Digests -/

/-- `_canonical`. -/
def canonical (v : Tree) : Except Exc ByteArray :=
  match Py.dumpsAscii v with
  | .ok t => .ok (Py.encode t)
  | .error _ => .error (.checkpoint "checkpoint is not canonical JSON")

/-- Whether a text is 64 lower-case hexadecimal digits. -/
def isHexText (t : Text) : Bool :=
  t.length == 64 && t.all fun c => (48 ≤ c.val && c.val ≤ 57) || (97 ≤ c.val && c.val ≤ 102)

/-- Whether a text is `sha256:` and 64 lower-case hexadecimal digits. -/
def isSha256Text (t : Text) : Bool := t.take 7 == text "sha256:" && isHexText (t.drop 7)

variable [Sha256]

/-- `hashlib.sha256(_canonical(value)).hexdigest()`. -/
def hexdigest (v : Tree) : Except Exc Text := do return text (Sha256.hexdigest (← canonical v))

/-- `_digest`. -/
def digest (v : Tree) : Except Exc Text := do return text "sha256:" ++ (← hexdigest v)

/-! ## Payloads -/

def str (s : Text) : Tree := .scalar (.str s)

/-- `_unsigned_payload`. -/
def unsignedPayload (generation : Text) (mode : LabMode) (state : JsonObject) (stateFingerprint : Text) :
    Tree :=
  .obj [(text "schema_version", str schemaVersion), (text "generation", str generation),
    (text "mode", str mode.value), (text "seed", str canonicalSeed), (text "state", .obj state.entries),
    (text "state_fingerprint", str stateFingerprint)]

/-- `_generation_payload`. -/
def generationPayload (mode : LabMode) (state : JsonObject) (stateFingerprint : Text) : Tree :=
  .obj [(text "schema_version", str schemaVersion), (text "mode", str mode.value),
    (text "seed", str canonicalSeed), (text "state", .obj state.entries),
    (text "state_fingerprint", str stateFingerprint)]

/-! ## Checkpoints -/

/-- The fields of a checkpoint. The model is frozen, but a caller can still change its state in place,
so fields may no longer be those of a valid checkpoint. -/
structure CheckpointFields where
  generation : Text
  mode : LabMode
  state : JsonObject
  stateFingerprint : Text
  checkpointDigest : Text

namespace CheckpointFields

/-- `model_dump`. -/
def dump (c : CheckpointFields) : Tree :=
  .obj [(text "schema_version", str schemaVersion), (text "generation", str c.generation),
    (text "mode", str c.mode.value), (text "seed", str canonicalSeed),
    (text "state", .obj c.state.entries), (text "state_fingerprint", str c.stateFingerprint),
    (text "checkpoint_digest", str c.checkpointDigest)]

/-- `canonical_bytes`. -/
def canonicalBytes (c : CheckpointFields) : Except Exc ByteArray := canonical c.dump

def unsignedPayload (c : CheckpointFields) : Tree :=
  Lab.unsignedPayload c.generation c.mode c.state c.stateFingerprint

end CheckpointFields

/-- `LabStateCheckpoint`: the patterns of the fields and `_sealed`. -/
structure LabStateCheckpoint extends CheckpointFields where
  generation_hex : isHexText generation = true
  fingerprint_hex : isSha256Text stateFingerprint = true
  digest_hex : isSha256Text checkpointDigest = true
  bounded : bound (.obj state.entries) 0 = .ok ()
  sealed : digest toCheckpointFields.unsignedPayload = .ok checkpointDigest

/-- Validate the fields of a checkpoint. -/
def validate (c : CheckpointFields) : Except Exc LabStateCheckpoint :=
  if h : isHexText c.generation = true ∧ isSha256Text c.stateFingerprint = true ∧
      isSha256Text c.checkpointDigest = true ∧ bound (.obj c.state.entries) 0 = .ok () ∧
        digest c.unsignedPayload = .ok c.checkpointDigest then
    .ok ⟨c, h.1, h.2.1, h.2.2.1, h.2.2.2.1, h.2.2.2.2⟩
  else .error .validation

/-- `create`. -/
def create (mode : LabMode) (state : JsonObject) (stateFingerprint : Text) :
    Except Exc LabStateCheckpoint := do
  bound (.obj state.entries) 0
  let generation ← hexdigest (generationPayload mode state stateFingerprint)
  let checkpointDigest ← digest (unsignedPayload generation mode state stateFingerprint)
  validate ⟨generation, mode, state, stateFingerprint, checkpointDigest⟩

/-! ## Reading -/

/-- `json.loads` of bytes, with the exceptions that the hooks raise. -/
def loads (raw : ByteArray) : Except Exc { v : Tree // v.Distinct } :=
  match Py.decode raw with
  | none => .error (.checkpoint "checkpoint JSON is invalid")
  | some characters =>
      match h : Py.loads characters with
      | .ok v => .ok ⟨v, Py.distinct_of_loads h⟩
      | .error .malformed => .error (.checkpoint "checkpoint JSON is invalid")
      | .error .duplicateKey => .error (.checkpoint "duplicate JSON object key")
      | .error (.constant name) =>
          .error (.checkpoint ("non-finite JSON constant is forbidden: " ++ name))
      | .error .digits => .error .digits

/-- A text of a document, if it is one. -/
def text? : Option Tree → Option Text
  | some (.scalar (.str s)) => some s
  | _ => none

/-- A literal field: it has its default if it is absent. -/
def isLiteral (expected : Text) : Option Tree → Bool
  | none => true
  | v => text? v == some expected

def mode? (v : Option Tree) : Option LabMode :=
  [LabMode.vulnerable, .patched].find? fun mode => text? v == some mode.value

/-- An object of a document, if it is one. -/
def object? (v : Option Tree) (h : ∀ w, v = some w → w.Distinct) : Option JsonObject :=
  match v, h with
  | some (.obj entries), h => some ⟨entries, h _ rfl⟩
  | _, _ => none

def fieldNames : List Text :=
  [text "schema_version", text "generation", text "mode", text "seed", text "state",
    text "state_fingerprint", text "checkpoint_digest"]

/-- The fields of a document. -/
def readFields (v : Tree) (hv : v.Distinct) : Option CheckpointFields :=
  match v, hv with
  | .obj entries, hv =>
      let get? key := entries.lookup (text key)
      if (∀ key ∈ entries.map Prod.fst, key ∈ fieldNames) ∧
          isLiteral schemaVersion (get? "schema_version") = true ∧
          isLiteral canonicalSeed (get? "seed") = true then do
        return ⟨← text? (get? "generation"), ← mode? (get? "mode"),
          ← object? (get? "state") (fun _ h => hv.of_lookup h),
          ← text? (get? "state_fingerprint"), ← text? (get? "checkpoint_digest")⟩
      else none
  | _, _ => none

/-- `model_validate_json`, of bytes whose document is known. The reader of the model rejects a text with
a surrogate. -/
def modelValidateJson (v : Tree) (hv : v.Distinct) : Except Exc LabStateCheckpoint :=
  if Py.hasSurrogate v then .error .validation
  else
    match readFields v hv with
    | some fields => validate fields
    | none => .error .validation

/-- `from_canonical_bytes`. -/
def fromCanonicalBytes (raw : ByteArray) : Except Exc LabStateCheckpoint := do
  Imp.require (raw.size ≠ 0 ∧ raw.size ≤ maxCheckpointBytes)
    (.checkpoint "checkpoint exceeds fixed byte boundary")
  let value ← loads raw
  bound value.val 0
  let checkpoint ← (modelValidateJson value.val value.property).mapError fun _ =>
    .checkpoint "checkpoint shape is invalid"
  Imp.require ((← checkpoint.canonicalBytes) = raw)
    (.checkpoint "checkpoint JSON must use its exact canonical bytes")
  return checkpoint

end StateWeaver.Lab
