import StateWeaver.Contracts.Events
import StateWeaver.Contracts.StateIr

/-!
# Entities, relations and facts

What is said about the state of a system, with where it comes from. A fact holds from one point in time on,
up to another one if there is one.
-/

namespace StateWeaver.Contracts

/-! ## Provenance -/

inductive Taint where
  | trustedRuntime | trustedSource | untrustedTargetContent | modelGenerated
  deriving DecidableEq

def Taint.value : Taint → String
  | .trustedRuntime => "trusted_runtime"
  | .trustedSource => "trusted_source"
  | .untrustedTargetContent => "untrusted_target_content"
  | .modelGenerated => "model_generated"

def ProvenanceKind.value : ProvenanceKind → String
  | .hypothesized => "hypothesized"
  | .inferred => "inferred"
  | .observed => "observed"
  | .mocked => "mocked"
  | .unknown => "unknown"
  | .declared => "declared"

structure Provenance where
  kind : ProvenanceKind
  evidenceIds : List ContractId := []
  adapter : Option Name := none
  adapterVersion : Option Name := none
  supported : kind = .observed ∨ kind = .inferred → evidenceIds ≠ []
  unsupported : kind = .hypothesized ∨ kind = .unknown → evidenceIds = []
  evidenceUnique : evidenceIds.Nodup
  adapterVersioned : adapter = none ↔ adapterVersion = none

namespace Provenance

/-- Without an adapter there is no version of it either. -/
theorem unversioned : (none : Option Name) = none ↔ (none : Option Name) = none := .rfl

theorem noEvidence_unique : ([] : List ContractId).Nodup := List.nodup_nil

def fields (p : Provenance) : ProvenanceKind × List ContractId × Option Name × Option Name :=
  (p.kind, p.evidenceIds, p.adapter, p.adapterVersion)

theorem fields_injective : Function.Injective fields := by
  rintro ⟨⟩ ⟨⟩ h
  simpa [fields] using h

end Provenance

instance instDecidableEqProvenance : DecidableEq Provenance := Provenance.fields_injective.decidableEq

/-- `_validate_provenance_taint`. -/
def validateProvenanceTaint (provenance : Provenance) (taint : Taint) : Except String Unit := do
  if provenance.kind = .observed then
    Imp.require (taint = .trustedRuntime ∨ taint = .untrustedTargetContent)
      "observed facts and relations require runtime or target-content taint"
  if provenance.kind = .hypothesized then
    Imp.require (taint = .modelGenerated)
      "hypothesized facts and relations require model-generated taint"
  if provenance.kind = .declared then
    Imp.require (taint = .trustedSource) "declared facts and relations require trusted source taint"

/-- A text of lower-case words that are joined by `_`. -/
def isPredicate (s : String) : Bool :=
  hasLength 2 128 s && match s.toList.splitOn '_' with
    | first :: rest => headTail Char.isLower isLowerAlnum first &&
        rest.all fun word => headTail isLowerAlnum isLowerAlnum word
    | [] => false

abbrev Predicate := Constrained isPredicate

/-- A float from 0 to 1. -/
structure Probability where
  val : Float
  inRange : 0.0 ≤ val ∧ val ≤ 1.0
  deriving DecidableEq

/-- Certainty. -/
def Probability.one : Probability := ⟨1.0, by decide +kernel⟩

/-! ## Entities and relations -/

inductive EntityKind where
  | principal | role | tenant | credential | session | resource | policy | cacheEntry | queueJob
  | featureFlag | service | endpoint | externalDependency
  deriving DecidableEq

def EntityKind.value : EntityKind → String
  | .principal => "principal"
  | .role => "role"
  | .tenant => "tenant"
  | .credential => "credential"
  | .session => "session"
  | .resource => "resource"
  | .policy => "policy"
  | .cacheEntry => "cache_entry"
  | .queueJob => "queue_job"
  | .featureFlag => "feature_flag"
  | .service => "service"
  | .endpoint => "endpoint"
  | .externalDependency => "external_dependency"

inductive RelationKind where
  | memberOf | actsAs | owns | belongsTo | authorizedBy | cachedAs | issuedFrom | references
  | pendingTransition | controlledBy | visibleTo
  deriving DecidableEq

def RelationKind.value : RelationKind → String
  | .memberOf => "member_of"
  | .actsAs => "acts_as"
  | .owns => "owns"
  | .belongsTo => "belongs_to"
  | .authorizedBy => "authorized_by"
  | .cachedAs => "cached_as"
  | .issuedFrom => "issued_from"
  | .references => "references"
  | .pendingTransition => "pending_transition"
  | .controlledBy => "controlled_by"
  | .visibleTo => "visible_to"

structure StateAttribute where
  name : Predicate
  value : JsonScalar
  deriving DecidableEq

structure Entity where
  entityId : ContractId
  kind : EntityKind
  label : Option String := none
  attributes : List StateAttribute := []
  provenance : Option Provenance := none
  attributesUnique : (attributes.map StateAttribute.name).Nodup
  deriving DecidableEq

/-- `Entity(..)` without attributes. Texts of models are stripped. -/
def Entity.create (entityId : ContractId) (kind : EntityKind) (label : String)
    (provenance : Option Provenance) : Entity :=
  ⟨entityId, kind, some (Constrained.strip label), [], provenance, List.nodup_nil⟩

structure Relation where
  relationId : ContractId
  subject : ContractId
  predicate : RelationKind
  object : ContractId
  provenance : Provenance
  confidence : Probability := .one
  taint : Taint := .trustedRuntime
  distinct : subject ≠ object
  tainted : validateProvenanceTaint provenance taint = .ok ()
  deriving DecidableEq

/-- `Relation(..)`. -/
def Relation.create (relationId subject : ContractId) (predicate : RelationKind) (object : ContractId)
    (provenance : Provenance) (taint : Taint) : Except String Relation :=
  if hdistinct : subject = object then .error "security relations must connect distinct entities"
  else
    match htainted : validateProvenanceTaint provenance taint with
    | .error e => .error e
    | .ok () => .ok ⟨relationId, subject, predicate, object, provenance, .one, taint, hdistinct, htainted⟩

theorem Relation.provenance_of_create {relationId subject object : ContractId} {predicate : RelationKind}
    {provenance : Provenance} {taint : Taint} {r : Relation}
    (h : Relation.create relationId subject predicate object provenance taint = .ok r) :
    r.provenance = provenance := by
  rw [Relation.create] at h
  split_ifs at h
  split at h
  · cases h
  · cases h
    rfl

theorem Relation.exists_create {relationId subject object : ContractId} {predicate : RelationKind}
    {provenance : Provenance} {taint : Taint} (hdistinct : subject ≠ object)
    (htaint : validateProvenanceTaint provenance taint = .ok ()) :
    ∃ r, Relation.create relationId subject predicate object provenance taint = .ok r := by
  rw [Relation.create, dif_neg hdistinct]
  split
  · next e he =>
      rw [htaint] at he
      cases he
  · exact ⟨_, rfl⟩

/-! ## Facts -/

structure Fact where
  factId : ContractId
  subject : ContractId
  predicate : Predicate
  object : JsonScalar
  validFrom : Instant
  validTo : Option Instant := none
  provenance : Provenance
  confidence : Probability
  taint : Taint
  forward : ∀ t ∈ validTo, validFrom.microseconds < t.microseconds
  tainted : validateProvenanceTaint provenance taint = .ok ()
  deriving DecidableEq

/-- `Fact(..)` without an end, with certainty. -/
def Fact.create (factId subject : ContractId) (predicate : String) (object : JsonScalar) (validFrom : Instant)
    (provenance : Provenance) (taint : Taint) : Except String Fact :=
  match Constrained.ofString? predicate with
  | none => .error "String should match pattern '^[a-z][a-z0-9]*(?:_[a-z0-9]+)*$'"
  | some predicate =>
      match htainted : validateProvenanceTaint provenance taint with
      | .error e => .error e
      | .ok () => .ok
          ⟨factId, subject, predicate, object, validFrom, none, provenance, .one, taint, nofun, htainted⟩

/-- What a fact is made of. -/
theorem Fact.create_eq_ok {factId subject : ContractId} {predicate : String} {object : JsonScalar}
    {validFrom : Instant} {provenance : Provenance} {taint : Taint} {f : Fact}
    (h : Fact.create factId subject predicate object validFrom provenance taint = .ok f) :
    f.factId = factId ∧ f.subject = subject ∧ f.predicate.val = Constrained.strip predicate ∧
      f.object = object ∧ f.validFrom = validFrom ∧ f.validTo = none ∧ f.provenance = provenance := by
  rw [Fact.create] at h
  split at h
  · cases h
  · next p hp =>
      split at h
      · cases h
      · cases h
        rw [Constrained.ofString?] at hp
        split_ifs at hp
        cases hp
        exact ⟨rfl, rfl, rfl, rfl, rfl, rfl, rfl⟩

theorem Fact.exists_create {factId subject : ContractId} {predicate : String} {object : JsonScalar}
    {validFrom : Instant} {provenance : Provenance} {taint : Taint}
    (hpredicate : isPredicate (Constrained.strip predicate) = true)
    (htaint : validateProvenanceTaint provenance taint = .ok ()) :
    ∃ f, Fact.create factId subject predicate object validFrom provenance taint = .ok f := by
  rw [Fact.create, Constrained.ofString?, dif_pos hpredicate]
  dsimp only
  split
  · next e he =>
      rw [htaint] at he
      cases he
  · exact ⟨_, rfl⟩

/-! ## Evidence -/

inductive EvidenceKind where
  | httpExchange | browserTrace | otelTrace | databaseDiff | cacheDiff | queueDiff | screenshot
  | stateSnapshot | oracleReport
  deriving DecidableEq

structure EvidenceRecord where
  evidenceId : ContractId
  kind : EvidenceKind
  taint : Taint
  createdAt : Instant
  deriving DecidableEq

/-! ## What is written -/

/-- A tuple of identifiers. -/
def identifiers (ids : List ContractId) : Value := .list (ids.map fun id => .scalar (.str id.val))

def Provenance.toValue (p : Provenance) : Value :=
  .mapping
    [(some "kind", .enum p.kind.value),
      (some "evidence_ids", identifiers p.evidenceIds),
      (some "adapter", .scalar (optionalText (p.adapter.map Constrained.val))),
      (some "adapter_version", .scalar (optionalText (p.adapterVersion.map Constrained.val)))]

/-- `None` or a value. -/
def optional {α : Type} (toValue : α → Value) : Option α → Value
  | none => .scalar .none_
  | some a => toValue a

def StateAttribute.toValue (a : StateAttribute) : Value :=
  .mapping [(some "name", .scalar (.str a.name.val)), (some "value", .scalar a.value.val)]

def Entity.toValue (e : Entity) : Value :=
  .mapping
    [(some "schema_version", .scalar (.str "1.0")),
      (some "entity_id", .scalar (.str e.entityId.val)),
      (some "kind", .enum e.kind.value),
      (some "label", .scalar (optionalText e.label)),
      (some "attributes", .list (e.attributes.map StateAttribute.toValue)),
      (some "provenance", optional Provenance.toValue e.provenance)]

def Relation.toValue (r : Relation) : Value :=
  .mapping
    [(some "schema_version", .scalar (.str "1.0")),
      (some "relation_id", .scalar (.str r.relationId.val)),
      (some "subject", .scalar (.str r.subject.val)),
      (some "predicate", .enum r.predicate.value),
      (some "object", .scalar (.str r.object.val)),
      (some "provenance", r.provenance.toValue),
      (some "confidence", .scalar (.float r.confidence.val)),
      (some "taint", .enum r.taint.value)]

def Fact.toValue (f : Fact) : Value :=
  .mapping
    [(some "schema_version", .scalar (.str "1.0")),
      (some "fact_id", .scalar (.str f.factId.val)),
      (some "subject", .scalar (.str f.subject.val)),
      (some "predicate", .scalar (.str f.predicate.val)),
      (some "object", .scalar f.object.val),
      (some "valid_from", .datetime (some f.validFrom)),
      (some "valid_to", optional (fun t => .datetime (some t)) f.validTo),
      (some "provenance", f.provenance.toValue),
      (some "confidence", .scalar (.float f.confidence.val)),
      (some "taint", .enum f.taint.value)]

end StateWeaver.Contracts
