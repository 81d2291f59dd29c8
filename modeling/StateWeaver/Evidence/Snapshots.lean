import Mathlib
import StateWeaver.Lib.Collecting
import StateWeaver.Lib.Dict
import StateWeaver.Lib.Framing
import StateWeaver.Lib.Sha2

/-!
# Snapshots of evidence

The bytes of a bundle are hashed with each name and each content after its length: names in four bytes, contents
in eight. A run is hashed after its identity and its manifest, evidence of a real target after its manifest.
Each name and each content is self-delimiting, so the stream determines the bundle.
-/

namespace StateWeaver.Evidence

/-- What a snapshot can raise. -/
inductive SnapshotExc where
  /-- `int.to_bytes` of a length that is too large. -/
  | overflowError
  /-- `str.encode("ascii")` of another character. -/
  | unicodeEncodeError
  deriving DecidableEq

/-! ## Streams -/

/-- `n.to_bytes(length, "big")`. -/
def toBytes (n length : ℕ) : Except SnapshotExc (List UInt8) :=
  if n < 256 ^ length then .ok (Framing.bigEndian length n) else .error .overflowError

/-- `name.encode("utf-8")`, for texts without surrogates. -/
def encodeUtf8 (name : String) : Except SnapshotExc ByteArray := .ok name.toUTF8

/-- `path.encode("ascii")`. -/
def encodeAscii (path : String) : Except SnapshotExc ByteArray :=
  if path.toList.all (fun c => c.toNat < 128) then .ok path.toUTF8 else .error .unicodeEncodeError

/-- What is hashed of a name with a content. -/
def componentBytes (encode : String → Except SnapshotExc ByteArray) (component : String × ByteArray) :
    Except SnapshotExc (List UInt8) := do
  let encoded ← encode component.1
  let nameLength ← toBytes encoded.size 4
  let contentLength ← toBytes component.2.size 8
  return nameLength ++ encoded.data.toList ++ contentLength ++ component.2.data.toList

/-- What is hashed of names with contents. -/
def stream (encode : String → Except SnapshotExc ByteArray) (components : List (String × ByteArray)) :
    Except SnapshotExc (List UInt8) := do
  let parts ← components.mapM (componentBytes encode)
  return parts.flatten

abbrev Artifacts := Dict String ByteArray

/-- `sorted(artifacts.items())`. -/
def sortedArtifacts (artifacts : Artifacts) : List (String × ByteArray) :=
  artifacts.entries.insertionSort fun a b => a.1 ≤ b.1

/-- What is hashed of a run. -/
def runStream (runId : String) (manifest : ByteArray) (artifacts : Artifacts) :
    Except SnapshotExc (List UInt8) :=
  stream encodeUtf8 (("@run-id", runId.toUTF8) :: ("@manifest", manifest) :: sortedArtifacts artifacts)

/-- What is hashed of evidence of a real target. -/
def realityStream (manifestJson : ByteArray) (artifacts : Artifacts) : Except SnapshotExc (List UInt8) :=
  stream encodeAscii (("@pre-receipt-manifest", manifestJson) :: sortedArtifacts artifacts)

variable [Sha256]

/-- `_snapshot_sha256` of a run. -/
def runSnapshotSha256 (runId : String) (manifest : ByteArray) (artifacts : Artifacts) :
    Except SnapshotExc String := do
  return "sha256:" ++ Sha256.hexdigest ⟨(← runStream runId manifest artifacts).toArray⟩

/-- `_snapshot_sha256` of evidence of a real target. -/
def realitySnapshotSha256 (manifestJson : ByteArray) (artifacts : Artifacts) : Except SnapshotExc String := do
  return "sha256:" ++ Sha256.hexdigest ⟨(← realityStream manifestJson artifacts).toArray⟩

/-! ## Components -/

omit [Sha256]

variable {encode : String → Except SnapshotExc ByteArray} {component : String × ByteArray}
  {components components' : List (String × ByteArray)} {bytes : List UInt8}

theorem toBytes_eq_ok {n length : ℕ} : toBytes n length = .ok bytes ↔
    n < 256 ^ length ∧ bytes = Framing.bigEndian length n := by
  rw [toBytes]
  split
  · next h => exact ⟨fun heq => ⟨h, (Except.ok.inj heq).symm⟩, fun heq => congrArg Except.ok heq.2.symm⟩
  · next h => exact iff_of_false nofun fun heq => h heq.1

/-- A name and a content that fit into their lengths. -/
def Fits (raw : List UInt8 × List UInt8) : Prop := raw.1.length < 256 ^ 4 ∧ raw.2.length < 256 ^ 8

/-- A name and a content, each after its length. -/
def framed (raw : List UInt8 × List UInt8) : List UInt8 :=
  Framing.bigEndian 4 raw.1.length ++ raw.1 ++ (Framing.bigEndian 8 raw.2.length ++ raw.2)

theorem selfDelimiting_framed : Framing.SelfDelimiting framed Fits :=
  (Framing.selfDelimiting_bigEndian 4).framed.append (Framing.selfDelimiting_bigEndian 8).framed

theorem componentBytes_eq_ok (h : componentBytes encode component = .ok bytes) : ∃ encoded,
    encode component.1 = .ok encoded ∧ Fits (encoded.data.toList, component.2.data.toList) ∧
      bytes = framed (encoded.data.toList, component.2.data.toList) := by
  obtain ⟨encoded, hencoded, h⟩ := Imp.except_bind_eq_ok.mp h
  obtain ⟨nameLength, hname, h⟩ := Imp.except_bind_eq_ok.mp h
  obtain ⟨contentLength, hcontent, h⟩ := Imp.except_bind_eq_ok.mp h
  obtain ⟨hnameFits, rfl⟩ := toBytes_eq_ok.mp hname
  obtain ⟨hcontentFits, rfl⟩ := toBytes_eq_ok.mp hcontent
  refine ⟨encoded, hencoded, ⟨hnameFits, hcontentFits⟩, (Except.ok.inj h).symm.trans ?_⟩
  rw [List.append_assoc]
  rfl

/-- What is hashed of a component that can be hashed. -/
def codeOf (encode : String → Except SnapshotExc ByteArray) (component : String × ByteArray) : List UInt8 :=
  (componentBytes encode component).toOption.getD []

def Hashable (encode : String → Except SnapshotExc ByteArray) (component : String × ByteArray) : Prop :=
  ∃ bytes, componentBytes encode component = .ok bytes

theorem codeOf_of_eq_ok (h : componentBytes encode component = .ok bytes) : codeOf encode component = bytes := by
  rw [codeOf, h]
  rfl

/-- No boundary between a name, a length and a content can be shifted. -/
theorem selfDelimiting_codeOf (hencode : ∀ a b x, encode a = .ok x → encode b = .ok x → a = b) :
    Framing.SelfDelimiting (codeOf encode) (Hashable encode) := by
  rintro ⟨name, content⟩ ⟨name', content'⟩ ⟨bytes, hbytes⟩ ⟨bytes', hbytes'⟩ rest rest' heq
  obtain ⟨encoded, hencoded, hfits, hframed⟩ := componentBytes_eq_ok hbytes
  obtain ⟨encoded', hencoded', hfits', hframed'⟩ := componentBytes_eq_ok hbytes'
  rw [codeOf_of_eq_ok hbytes, codeOf_of_eq_ok hbytes', hframed, hframed'] at heq
  obtain ⟨hraw, hrest⟩ := selfDelimiting_framed hfits hfits' heq
  obtain ⟨hname, hcontent⟩ := Prod.mk.inj hraw
  have hsame : ∀ {x y : ByteArray}, x.data.toList = y.data.toList → x = y :=
    fun h => ByteArray.ext (Array.toList_inj.mp h)
  have hnames := hencode name name' encoded hencoded (hsame hname ▸ hencoded')
  exact ⟨Prod.ext hnames (hsame hcontent), hrest⟩

theorem codeOf_ne_nil (h : Hashable encode component) : codeOf encode component ≠ [] := by
  obtain ⟨bytes, hbytes⟩ := h
  obtain ⟨encoded, -, -, hframed⟩ := componentBytes_eq_ok hbytes
  rw [codeOf_of_eq_ok hbytes, hframed]
  exact List.cons_ne_nil _ _

theorem stream_eq_ok (h : stream encode components = .ok bytes) :
    (∀ c ∈ components, Hashable encode c) ∧ bytes = components.flatMap (codeOf encode) := by
  obtain ⟨parts, hparts, h⟩ := Imp.except_bind_eq_ok.mp h
  refine ⟨Imp.exists_mapM.mp ⟨parts, hparts⟩, (Except.ok.inj h).symm.trans ?_⟩
  rw [List.flatMap_def, ← Imp.map_of_mapM hparts fun c part hpart => (codeOf_of_eq_ok hpart).symm]
  rw [List.map_id']

/-- The bytes that are hashed determine the names and contents. -/
theorem stream_inj (hencode : ∀ a b x, encode a = .ok x → encode b = .ok x → a = b)
    (h : stream encode components = .ok bytes) (h' : stream encode components' = .ok bytes) :
    components = components' := by
  obtain ⟨hhashable, hbytes⟩ := stream_eq_ok h
  obtain ⟨hhashable', hbytes'⟩ := stream_eq_ok h'
  exact (selfDelimiting_codeOf hencode).flatMap_inj (fun _ => codeOf_ne_nil) hhashable hhashable'
    (hbytes.symm.trans hbytes')

/-! ## Bundles -/

theorem encodeUtf8_inj {a b : String} {x : ByteArray} (h : encodeUtf8 a = .ok x) (h' : encodeUtf8 b = .ok x) :
    a = b :=
  String.toByteArray_inj.mp ((Except.ok.inj h).trans (Except.ok.inj h').symm)

theorem encodeAscii_inj {a b : String} {x : ByteArray} (h : encodeAscii a = .ok x)
    (h' : encodeAscii b = .ok x) : a = b := by
  rw [encodeAscii] at h h'
  split at h
  · split at h'
    · exact String.toByteArray_inj.mp ((Except.ok.inj h).trans (Except.ok.inj h').symm)
    · cases h'
  · cases h

/-- Artifacts that are listed alike are the same. -/
theorem get?_of_sortedArtifacts {artifacts artifacts' : Artifacts}
    (h : sortedArtifacts artifacts = sortedArtifacts artifacts') (name : String) :
    artifacts.get? name = artifacts'.get? name := by
  refine Option.ext fun content => ?_
  have hmem : ∀ artifacts : Artifacts,
      artifacts.get? name = some content ↔ (name, content) ∈ sortedArtifacts artifacts := fun artifacts => by
    rw [sortedArtifacts, List.mem_insertionSort, Dict.mem_entries]
  rw [hmem, hmem, h]

variable {runId runId' : String} {manifest manifest' : ByteArray} {artifacts artifacts' : Artifacts}

theorem runStream_inj (h : runStream runId manifest artifacts = .ok bytes)
    (h' : runStream runId' manifest' artifacts' = .ok bytes) :
    runId = runId' ∧ manifest = manifest' ∧ ∀ name, artifacts.get? name = artifacts'.get? name := by
  have heq := stream_inj (fun _ _ _ => encodeUtf8_inj) h h'
  obtain ⟨hrun, heq⟩ := List.cons.inj heq
  obtain ⟨hmanifest, heq⟩ := List.cons.inj heq
  exact ⟨String.toByteArray_inj.mp (Prod.mk.inj hrun).2, (Prod.mk.inj hmanifest).2, get?_of_sortedArtifacts heq⟩

theorem realityStream_inj (h : realityStream manifest artifacts = .ok bytes)
    (h' : realityStream manifest' artifacts' = .ok bytes) :
    manifest = manifest' ∧ ∀ name, artifacts.get? name = artifacts'.get? name := by
  obtain ⟨hmanifest, heq⟩ := List.cons.inj (stream_inj (fun _ _ _ => encodeAscii_inj) h h')
  exact ⟨(Prod.mk.inj hmanifest).2, get?_of_sortedArtifacts heq⟩

/-- Bundles with one stream are the same, both those of runs and those of real targets. -/
theorem streams_injective :
    (∀ runId runId' manifest manifest' artifacts artifacts' bytes,
      runStream runId manifest artifacts = .ok bytes → runStream runId' manifest' artifacts' = .ok bytes →
      runId = runId' ∧ manifest = manifest' ∧ ∀ name, artifacts.get? name = artifacts'.get? name) ∧
    ∀ manifest manifest' artifacts artifacts' bytes,
      realityStream manifest artifacts = .ok bytes → realityStream manifest' artifacts' = .ok bytes →
      manifest = manifest' ∧ ∀ name, artifacts.get? name = artifacts'.get? name :=
  ⟨fun _ _ _ _ _ _ _ => runStream_inj, fun _ _ _ _ _ => realityStream_inj⟩

/-- A bundle with one artifact. -/
def report : Artifacts := ⟨[("report.json", "\x7b\x7d".toUTF8)], List.nodup_singleton _⟩

theorem streams_injective_report : ∃ bytes bytes', runStream "run.1" ByteArray.empty report = .ok bytes ∧
    realityStream ByteArray.empty report = .ok bytes' ∧
      ∀ name, (report.get? name = report.get? name ∧ report.get? name = report.get? name) := by
  have hrun : (runStream "run.1" ByteArray.empty report).isOk = true := by decide +kernel
  have hreality : (realityStream ByteArray.empty report).isOk = true := by decide +kernel
  cases hbytes : runStream "run.1" ByteArray.empty report with
  | error e =>
      rw [hbytes] at hrun
      cases hrun
  | ok bytes =>
      cases hbytes' : realityStream ByteArray.empty report with
      | error e =>
          rw [hbytes'] at hreality
          cases hreality
      | ok bytes' =>
          obtain ⟨hruns, hrealities⟩ := streams_injective
          exact ⟨bytes, bytes', rfl, rfl, fun name =>
            ⟨(hruns _ _ _ _ _ _ _ hbytes hbytes).2.2 name, (hrealities _ _ _ _ _ hbytes' hbytes').2 name⟩⟩

end StateWeaver.Evidence
