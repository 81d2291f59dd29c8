import StateWeaver.Lab.CheckpointText
import StateWeaver.Lib.Sha2

/-!
# Reading checkpoints back

`create` bounds the state of a checkpoint from its own root, and `from_canonical_bytes` bounds the whole
document, in which the state is one level deeper. So the deepest states that can be created cannot be read
back, and neither can those with a surrogate in a text. All others can.
-/

namespace StateWeaver.Lab

open Py (Text Tree JsonObject text)

/-! ## What is read -/

theorem eq_of_object? {v : Option Tree} {h : ∀ w, v = some w → w.Distinct} {state : JsonObject}
    (hstate : object? v h = some state) : v = some (.obj state.entries) := by
  unfold object? at hstate
  split at hstate
  · cases hstate
    rfl
  · cases hstate

/-- The state is an entry of the document. -/
theorem state_of_readFields {entries : List (Text × Tree)} {h : (Json.obj entries).Distinct}
    {fields : CheckpointFields} (hread : readFields (.obj entries) h = some fields) :
    (text "state", .obj fields.state.entries) ∈ entries := by
  rw [readFields] at hread
  obtain ⟨-, hread⟩ := Option.ite_none_right_eq_some.mp hread
  obtain ⟨generation, -, hread⟩ := Option.bind_eq_some_iff.mp hread
  obtain ⟨mode, -, hread⟩ := Option.bind_eq_some_iff.mp hread
  obtain ⟨state, hstate, hread⟩ := Option.bind_eq_some_iff.mp hread
  obtain ⟨fingerprint, -, hread⟩ := Option.bind_eq_some_iff.mp hread
  obtain ⟨digest, -, hread⟩ := Option.bind_eq_some_iff.mp hread
  cases hread
  obtain ⟨before, after, hentries, -⟩ := List.lookup_eq_some_iff.mp (eq_of_object? hstate)
  rw [hentries]
  exact List.mem_append_right _ List.mem_cons_self

theorem mapError_eq_ok {ε ε' α : Type} {f : ε → ε'} {x : Except ε α} {a : α}
    (h : x.mapError f = .ok a) : x = .ok a := by
  cases x with
  | error e => cases h
  | ok b => exact congrArg Except.ok (Except.ok.inj h)

section Reading

variable [Sha256]

theorem modelValidateJson_eq_ok {v : Tree} {hv : v.Distinct} {c : LabStateCheckpoint}
    (h : modelValidateJson v hv = .ok c) :
    Py.hasSurrogate v = false ∧ readFields v hv = some c.toCheckpointFields := by
  rw [modelValidateJson] at h
  split_ifs at h with hsurrogate
  · rw [Bool.not_eq_true] at hsurrogate
    refine ⟨hsurrogate, ?_⟩
    split at h
    · next fields hread => rw [hread, validate_eq_ok h]
    · cases h

/-- A state that is read is bounded one level below the root and has no surrogates. -/
theorem state_of_fromCanonicalBytes {raw : ByteArray} {c : LabStateCheckpoint}
    (h : fromCanonicalBytes raw = .ok c) :
    bound (.obj c.state.entries) 1 = .ok () ∧ Py.hasSurrogate (.obj c.state.entries) = false := by
  obtain ⟨-, h⟩ := Imp.check_bind_eq_ok.mp h
  obtain ⟨⟨v, hv⟩, -, h⟩ := Imp.except_bind_eq_ok.mp h
  obtain ⟨hbound, h⟩ := Imp.check_bind_eq_ok.mp h
  obtain ⟨c', hmodel, h⟩ := Imp.except_bind_eq_ok.mp h
  obtain ⟨bytes, -, h⟩ := Imp.except_bind_eq_ok.mp h
  obtain ⟨-, h⟩ := Imp.check_bind_eq_ok.mp h
  obtain rfl := Except.ok.inj h
  obtain ⟨hsurrogate, hread⟩ := modelValidateJson_eq_ok (mapError_eq_ok hmodel)
  cases v with
  | scalar s => cases hread
  | arr items => cases hread
  | obj entries =>
      have hstate := state_of_readFields hread
      refine ⟨((bound_obj.mp hbound).2.2 _ hstate).2, ?_⟩
      obtain ⟨hscalars, hkeys⟩ := Py.hasSurrogate_eq_false.mp hsurrogate
      refine Py.hasSurrogate_eq_false.mpr ⟨fun t ht => hscalars t ?_, fun key hkey => hkeys key ?_⟩
      · exact Json.mem_entriesScalars.mpr ⟨_, hstate, ht⟩
      · exact Json.mem_entriesKeys.mpr ⟨_, hstate, .inr hkey⟩

/-! ## What is created -/

/-- A checkpoint is read back exactly if its state is bounded one level below the root and has no
surrogates. -/
theorem exists_fromCanonicalBytes_iff {c : LabStateCheckpoint} {raw : ByteArray}
    (hraw : c.canonicalBytes = .ok raw) (hsize : raw.size ≤ maxCheckpointBytes) :
    (∃ c' : LabStateCheckpoint, fromCanonicalBytes raw = .ok c' ∧
      c'.toCheckpointFields = sortFields c.toCheckpointFields) ↔
      bound (.obj c.state.entries) 1 = .ok () ∧ Py.hasSurrogate (.obj c.state.entries) = false := by
  constructor
  · rintro ⟨c', hread, hfields⟩
    obtain ⟨hbound, hsurrogate⟩ := state_of_fromCanonicalBytes hread
    rw [hfields, sortFields, obj_sortObject] at hbound hsurrogate
    exact ⟨bound_sort.mp hbound, (Py.hasSurrogate_sort _).symm.trans hsurrogate⟩
  · rintro ⟨hbound, hsurrogate⟩
    have hnonempty : raw.size ≠ 0 := by
      rw [(canonical_eq_ok.mp hraw).2, canonicalText_dump]
      exact Py.size_encode_pos (List.cons_ne_nil _ _)
    exact fromCanonicalBytes_canonicalBytes hraw ⟨hnonempty, hsize⟩ hbound hsurrogate

/-- A checkpoint that is created is read back from its bytes, if they are within the bound, exactly if its
state is bounded one level below the root and has no surrogates, and what is read is written as it was. -/
theorem checkpoint_codec_spec (mode : LabMode) (state : JsonObject) (fingerprint : Text) :
    (∀ c raw, create mode state fingerprint = .ok c → c.canonicalBytes = .ok raw →
      raw.size ≤ maxCheckpointBytes →
        ((∃ c' : LabStateCheckpoint, fromCanonicalBytes raw = .ok c' ∧
          c'.toCheckpointFields = sortFields c.toCheckpointFields) ↔
          bound (.obj state.entries) 1 = .ok () ∧ Py.hasSurrogate (.obj state.entries) = false)) ∧
    ∀ raw (c : LabStateCheckpoint), fromCanonicalBytes raw = .ok c → c.canonicalBytes = .ok raw := by
  refine ⟨fun c raw hcreate hraw hsize => ?_, fun raw c => canonicalBytes_of_fromCanonicalBytes⟩
  rw [exists_fromCanonicalBytes_iff hraw hsize, (create_eq_ok hcreate).2.1]

end Reading

/-! ## States with many levels -/

/-- Arrays in one another. -/
def nested : ℕ → Tree
  | 0 => .arr []
  | n + 1 => .arr [nested n]

theorem distinct_nested (n : ℕ) : (nested n).Distinct := by
  induction n with
  | zero => exact .arr (List.forall_mem_nil _)
  | succ n ih => exact .arr (List.forall_mem_singleton.mpr ih)

theorem scalars_nested (n : ℕ) : (nested n).scalars = [] := by
  induction n with
  | zero => rfl
  | succ n ih =>
      refine List.eq_nil_iff_forall_not_mem.mpr fun s hs => ?_
      obtain ⟨v, hv, hs⟩ := Json.mem_itemsScalars.mp hs
      rw [List.mem_singleton.mp hv, ih] at hs
      exact List.not_mem_nil hs

/-- A state with some levels below the array that it holds. -/
def levels (n : ℕ) : JsonObject where
  entries := [(text "a", nested n)]
  distinct := .obj (List.nodup_singleton _) (List.forall_mem_singleton.mpr (distinct_nested n))

theorem literalError_levels (n : ℕ) :
    ∀ s ∈ (Json.obj (levels n).entries : Tree).scalars, Py.literalError s = none := by
  intro s hs
  obtain ⟨e, he, hs⟩ := Json.mem_entriesScalars.mp hs
  rw [List.mem_singleton.mp he, scalars_nested] at hs
  exact absurd hs List.not_mem_nil

def levelsFingerprint : Text := text "sha256:" ++ List.replicate 64 48

theorem exists_create_levels [Sha256] (n : ℕ) (hbound : bound (.obj (levels n).entries) 0 = .ok ())
    (hshort : (Py.canonicalText (.obj (levels n).entries)).length ≤ 500) :
    ∃ c raw, create .vulnerable (levels n) levelsFingerprint = .ok c ∧ c.canonicalBytes = .ok raw ∧
      raw.size ≤ maxCheckpointBytes := by
  obtain ⟨c, hc⟩ := exists_create .vulnerable (by decide : isSha256Text levelsFingerprint = true) hbound
    (literalError_levels n)
  have hstate := (create_eq_ok hc).2.1
  obtain ⟨raw, hraw, -, hsize⟩ := c.canonicalBytes_of_short (hstate ▸ literalError_levels n) (hstate ▸ hshort)
  exact ⟨c, raw, hc, hraw, hsize⟩

/-- A checkpoint whose state has sixteen levels is created and not read back. -/
theorem checkpoint_codec_counterexample : let _ := Sha2.sha256
    ∃ c raw, create .vulnerable (levels 15) levelsFingerprint = .ok c ∧ c.canonicalBytes = .ok raw ∧
      raw.size ≤ maxCheckpointBytes ∧
      ¬∃ c' : LabStateCheckpoint, fromCanonicalBytes raw = .ok c' ∧
        c'.toCheckpointFields = sortFields c.toCheckpointFields := by
  intro _
  obtain ⟨c, raw, hc, hraw, hsize⟩ := exists_create_levels 15 (by decide +kernel) (by decide +kernel)
  refine ⟨c, raw, hc, hraw, hsize, fun hread => ?_⟩
  have hdeeper := ((exists_fromCanonicalBytes_iff hraw hsize).mp hread).1
  rw [(create_eq_ok hc).2.1] at hdeeper
  have hfails : bound (.obj (levels 15).entries) 1 ≠ .ok () := by decide +kernel
  exact hfails hdeeper

/-- A checkpoint whose state has fifteen levels is read back. -/
theorem checkpoint_codec_spec_levels : let _ := Sha2.sha256
    ∃ c raw, create .vulnerable (levels 14) levelsFingerprint = .ok c ∧ c.canonicalBytes = .ok raw ∧
      ∃ c' : LabStateCheckpoint, fromCanonicalBytes raw = .ok c' ∧
        c'.toCheckpointFields = sortFields c.toCheckpointFields ∧ c'.canonicalBytes = .ok raw := by
  intro _
  obtain ⟨hcreated, hread⟩ := checkpoint_codec_spec .vulnerable (levels 14) levelsFingerprint
  obtain ⟨c, raw, hc, hraw, hsize⟩ := exists_create_levels 14 (by decide +kernel) (by decide +kernel)
  obtain ⟨c', hc', hfields⟩ := (hcreated c raw hc hraw hsize).mpr ⟨by decide +kernel, by decide +kernel⟩
  exact ⟨c, raw, hc, hraw, c', hc', hfields, hread raw c' hc'⟩

end StateWeaver.Lab
