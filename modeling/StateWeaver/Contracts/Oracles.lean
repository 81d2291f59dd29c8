import StateWeaver.Contracts.Envelopes

/-!
# Results of oracles

A result says what an oracle observed and what that shows. A conclusive result has evidence, and only a
result with observations and evidence is deterministic.
-/

namespace StateWeaver.Contracts

/-! ## JSON objects -/

/-- A JSON object whose numbers are finite. It is kept in the order of its keys, as mappings in which the
same entries stand in another order are equal. -/
structure JsonObject where
  entries : List (String × PlainJson)
  ascending : (Json.obj entries).Ascending
  finite : ∀ s ∈ (Json.obj entries).scalars, s.IsFinite

namespace JsonObject

variable {a b : JsonObject}

def toValue (o : JsonObject) : Value := .ofJson (.obj o.entries)

theorem ext_entries (h : a.entries = b.entries) : a = b := by
  cases a
  cases b
  cases h
  rfl

theorem distinct (o : JsonObject) : (Json.obj o.entries).Distinct := ((Json.ascending_iff _).mp o.ascending).1

theorem eq_of_alike (h : Alike a.toValue b.toValue) : a = b := by
  obtain ⟨hdistinct, hsort⟩ := (Json.ascending_iff _).mp a.ascending
  obtain ⟨-, hsort'⟩ := (Json.ascending_iff _).mp b.ascending
  have hsame := Json.sort_eq_of_same h.ofJson hdistinct
  rw [hsort, hsort'] at hsame
  exact ext_entries (Json.obj.inj hsame)

end JsonObject

/-! ## Oracles -/

inductive OracleType where
  | tenantIsolation | authorization | sessionRevocation | workflowIntegrity | transactionIntegrity
  | customDeterministic
  deriving DecidableEq

def OracleType.value : OracleType → String
  | .tenantIsolation => "tenant_isolation"
  | .authorization => "authorization"
  | .sessionRevocation => "session_revocation"
  | .workflowIntegrity => "workflow_integrity"
  | .transactionIntegrity => "transaction_integrity"
  | .customDeterministic => "custom_deterministic"

inductive OracleOutcome where
  | satisfied | violated | inconclusive | error
  deriving DecidableEq

def OracleOutcome.value : OracleOutcome → String
  | .satisfied => "SATISFIED"
  | .violated => "VIOLATED"
  | .inconclusive => "INCONCLUSIVE"
  | .error => "ERROR"

/-- The constraint of `InvariantExpression`. -/
def isInvariantExpression (s : String) : Bool := hasLength 3 4096 s && Constrained.strip s == s

abbrev InvariantExpression := Constrained isInvariantExpression

structure OracleResult where
  oracleResultId : ContractId
  oracleType : OracleType
  worldId : ContractId
  invariant : InvariantExpression
  result : OracleOutcome
  observed : JsonObject
  evidenceIds : List ContractId
  deterministic : Bool
  provenance : ProvenanceKind := .observed
  evaluatorVersion : Name
  stripped : ∀ s ∈ jsonTexts (.obj observed.entries), Constrained.strip s = s
  evidenceUnique : evidenceIds.Nodup
  conclusiveEvidenced : result = .satisfied ∨ result = .violated → evidenceIds ≠ []
  unknownUnevidenced : provenance = .unknown → evidenceIds = []
  deterministicObserved : deterministic = true → result ≠ .error →
    observed.entries ≠ [] ∧ evidenceIds ≠ [] ∧ provenance ≠ .mocked
  errorNotDeterministic : result = .error → deterministic = false

def OracleResult.toValue (r : OracleResult) : Value :=
  .mapping
    [(some "schema_version", .scalar (.str "1.0")),
      (some "oracle_result_id", r.oracleResultId.toValue),
      (some "oracle_type", .enum r.oracleType.value),
      (some "world_id", r.worldId.toValue),
      (some "invariant", r.invariant.toValue),
      (some "result", .enum r.result.value),
      (some "observed", r.observed.toValue),
      (some "evidence_ids", identifiers r.evidenceIds),
      (some "deterministic", .scalar (.bool r.deterministic)),
      (some "provenance", .enum r.provenance.value),
      (some "evaluator_version", r.evaluatorVersion.toValue)]

/-! ## Results that are written alike -/

theorem OracleType.value_inj {a b : OracleType} (h : a.value = b.value) : a = b := by
  cases a <;> cases b <;> first | rfl | exact absurd h (by decide)

theorem OracleOutcome.value_inj {a b : OracleOutcome} (h : a.value = b.value) : a = b := by
  cases a <;> cases b <;> first | rfl | exact absurd h (by decide)

theorem OracleResult.eq_of_alike {a b : OracleResult} (h : Alike a.toValue b.toValue) : a = b := by
  have hid := text_inj (h.entry 1 rfl rfl)
  have htype := OracleType.value_inj (h.entry 2 rfl rfl).enum
  have hworld := text_inj (h.entry 3 rfl rfl)
  have hinvariant := text_inj (h.entry 4 rfl rfl)
  have hresult := OracleOutcome.value_inj (h.entry 5 rfl rfl).enum
  have hobserved := JsonObject.eq_of_alike (h.entry 6 rfl rfl)
  have hevidence := identifiers_inj (h.entry 7 rfl rfl)
  have hdeterministic := Py.Scalar.bool.inj (h.entry 8 rfl rfl).scalar
  have hprovenance := ProvenanceKind.value_inj (h.entry 9 rfl rfl).enum
  have hversion := text_inj (h.entry 10 rfl rfl)
  cases a
  cases b
  exact (OracleResult.mk.injEq ..).mpr ⟨hid, htype, hworld, hinvariant, hresult, hobserved, hevidence,
    hdeterministic, hprovenance, hversion⟩

end StateWeaver.Contracts
