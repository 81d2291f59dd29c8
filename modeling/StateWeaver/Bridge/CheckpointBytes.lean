import StateWeaver.Lib.JsonReader
import StateWeaver.Lib.Sha256

/-!
# The bytes of a checkpoint at the bridge

The bridge to the providers checks the sealed bytes of a checkpoint again, without the lab: they are
canonical JSON with exactly the fields of a checkpoint, the name is the digest of the payload without
the name, and the digest is that of the payload.
-/

namespace StateWeaver.Bridge

open Py (Text Tree text)

/-- What the bridge raises. -/
inductive Exc where
  /-- `ProviderCheckpointError`, by its code. -/
  | checkpoint (code : String)
  /-- `ProviderCheckpointConflictError`. -/
  | conflict (code : String)
  /-- `ProviderCheckpointPoisonedError`. -/
  | poisoned (code : String)
  /-- `_ProviderCheckpointUnownedStageError`. -/
  | unowned (code : String)
  /-- `ProviderBridgeError` of a provider call. -/
  | bridge (message : String)
  /-- Another exception, by the name of its class. -/
  | other (name : String)
  deriving DecidableEq

def maxCheckpointBytes : ℕ := 131072

def maxDocumentBytes : ℕ := 1048576

def checkpointSchema : Text := text "stateweaver-lab-checkpoint-v1"

def checkpointKeys : List Text :=
  [text "checkpoint_digest", text "generation", text "mode", text "schema_version", text "seed",
    text "state", text "state_fingerprint"]

/-- `_GENERATION_RE.fullmatch`. -/
def isGeneration (t : Text) : Bool :=
  t.length == 64 && t.all fun c => (48 ≤ c.val && c.val ≤ 57) || (97 ≤ c.val && c.val ≤ 102)

/-- `_SHA256_RE.fullmatch`. -/
def isSha256 (t : Text) : Bool := t.take 7 == text "sha256:" && isGeneration (t.drop 7)

/-- `_checkpoint_canonical`. -/
def checkpointCanonical (v : Tree) : Except Exc ByteArray :=
  match Py.dumpsAscii v with
  | .error _ => .error (.checkpoint "checkpoint-invalid")
  | .ok t =>
      let encoded := Py.encode t
      if encoded.size = 0 ∨ maxCheckpointBytes < encoded.size then
        .error (.checkpoint "checkpoint-size-invalid")
      else .ok encoded

/-- `_checkpoint_hash`. -/
def checkpointHash [Sha256] (raw : ByteArray) : Text := text "sha256:" ++ text (Sha256.hexdigest raw)

/-- `_parse`. -/
def parse (raw : ByteArray) : Option Tree :=
  if raw.size = 0 ∨ maxDocumentBytes < raw.size then none
  else (Py.decode raw).bind fun characters => (Py.loads characters).toOption

/-- A text, if a value is one. -/
def text? : Option Tree → Option Text
  | some (.scalar (.str s)) => some s
  | _ => none

def isObject : Option Tree → Bool
  | some (.obj _) => true
  | _ => false

/-- Whether a value can be looked up in a set. -/
def isHashable : Option Tree → Bool
  | some (.arr _) | some (.obj _) => false
  | _ => true

/-- Whether a field is a text that matches a pattern. -/
def isTextOf (pattern : Text → Bool) (v : Option Tree) : Bool := (text? v).any pattern

/-- The checks of the single fields, from `mode` on. -/
def fieldsBound (get? : String → Option Tree) : Bool :=
  (text? (get? "mode") == some (text "vulnerable") || text? (get? "mode") == some (text "patched")) &&
    text? (get? "seed") == some (text "m0-canonical-v1") && isObject (get? "state") &&
      isTextOf isGeneration (get? "generation") && isTextOf isSha256 (get? "state_fingerprint") &&
        isTextOf isSha256 (get? "checkpoint_digest")

/-- The entries of a mapping without some keys. -/
def without (keys : List Text) (entries : List (Text × Tree)) : List (Text × Tree) :=
  entries.filter fun e => e.1 ∉ keys

/-- The checks of the digests, of a document whose fields are bound. -/
def checkDigests [Sha256] (raw : ByteArray) (entries : List (Text × Tree)) (generation digest : Text) :
    Except Exc (ByteArray × Text × Text) := do
  let canonical ← checkpointCanonical (.obj entries)
  Imp.require (canonical = raw) (.checkpoint "checkpoint-noncanonical")
  let generationPayload ← checkpointCanonical
    (.obj (without [text "generation", text "checkpoint_digest"] entries))
  Imp.require (text (Sha256.hexdigest generationPayload) = generation)
    (.checkpoint "checkpoint-generation-invalid")
  let digestPayload ← checkpointCanonical (.obj (without [text "checkpoint_digest"] entries))
  Imp.require (checkpointHash digestPayload = digest) (.checkpoint "checkpoint-digest-invalid")
  return (raw, generation, digest)

/-- `_validate_checkpoint_bytes`. -/
def validateCheckpointBytes [Sha256] (raw : ByteArray) : Except Exc (ByteArray × Text × Text) := do
  Imp.require (raw.size ≠ 0 ∧ raw.size ≤ maxCheckpointBytes) (.checkpoint "checkpoint-size-invalid")
  match parse raw with
  | none => .error (.checkpoint "checkpoint-invalid")
  | some (.obj entries) => do
      let get? := fun key => entries.lookup (text key)
      Imp.require ((∀ key ∈ entries.map Prod.fst, key ∈ checkpointKeys) ∧
        ∀ key ∈ checkpointKeys, key ∈ entries.map Prod.fst) (.checkpoint "checkpoint-shape-invalid")
      Imp.require (text? (get? "schema_version") = some checkpointSchema)
        (.checkpoint "checkpoint-binding-invalid")
      Imp.require (isHashable (get? "mode") = true) (.other "TypeError")
      Imp.require (fieldsBound get? = true) (.checkpoint "checkpoint-binding-invalid")
      checkDigests raw entries ((text? (get? "generation")).getD [])
        ((text? (get? "checkpoint_digest")).getD [])
  | some _ => .error (.checkpoint "checkpoint-shape-invalid")

end StateWeaver.Bridge
