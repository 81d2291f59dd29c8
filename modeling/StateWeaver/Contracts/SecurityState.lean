import StateWeaver.Contracts.Alike
import StateWeaver.Contracts.Events
import StateWeaver.Lib.Arranged
import StateWeaver.Lib.Collecting
import StateWeaver.Lib.Sha2

/-!
# The fingerprint of a security state

A security state keeps each of its collections in order, and its fingerprint is the digest of all of it but
the metadata. So the order in which a state is given and its metadata do not matter, and states with one
fingerprint have the same components.
-/

namespace StateWeaver.Contracts

/-! ## Components -/

structure GenerationState where
  ref : ContractId
  generation : Nat

structure FeatureFlagState where
  name : Name
  enabled : Bool
  variant : Option Name := none

/-- What `ResourceSecurityState` is called with. -/
structure ResourceFields where
  resourceRef : ContractId
  ownerRef : Option ContractId := none
  visibleTo : List ContractId := []

/-- `ResourceSecurityState`. -/
structure ResourceSecurityState where
  resourceRef : ContractId
  ownerRef : Option ContractId
  visibleTo : Arranged (id : ContractId → ContractId)

/-- `ResourceSecurityState(..)`. -/
def ResourceFields.create (fields : ResourceFields) : Except String ResourceSecurityState := do
  return ⟨fields.resourceRef, fields.ownerRef,
    ← Arranged.create id fields.visibleTo "visible_to must not contain duplicates"⟩

/-- What `CanonicalSecurityState` is called with. -/
structure StateFields where
  principals : List ContractId := []
  roles : List ContractId := []
  tenants : List ContractId := []
  credentials : List GenerationState := []
  sessions : List GenerationState := []
  resources : List ResourceFields := []
  policyGenerations : List GenerationState := []
  cacheGenerations : List GenerationState := []
  pendingJobs : List ContractId := []
  featureFlags : List FeatureFlagState := []
  capabilities : List Name := []
  controlledTimeBucket : Nat
  displayMetadata : Payload
  auditMetadata : Payload

/-- `CanonicalSecurityState`: every collection in order, and the metadata. -/
structure CanonicalSecurityState where
  principals : Arranged (id : ContractId → ContractId)
  roles : Arranged (id : ContractId → ContractId)
  tenants : Arranged (id : ContractId → ContractId)
  credentials : Arranged GenerationState.ref
  sessions : Arranged GenerationState.ref
  resources : Arranged ResourceSecurityState.resourceRef
  policyGenerations : Arranged GenerationState.ref
  cacheGenerations : Arranged GenerationState.ref
  pendingJobs : Arranged (id : ContractId → ContractId)
  featureFlags : Arranged FeatureFlagState.name
  capabilities : Arranged (id : Name → Name)
  controlledTimeBucket : Nat
  displayMetadata : Payload
  auditMetadata : Payload

/-- `references_are_canonical`. -/
def referencesAreCanonical {pattern : String → Bool} (value : List (Constrained pattern)) :
    Except String (Arranged (id : Constrained pattern → Constrained pattern)) :=
  Arranged.create id value "canonical state collections must not contain duplicates"

/-- `generations_are_canonical`. -/
def generationsAreCanonical (value : List GenerationState) : Except String (Arranged GenerationState.ref) :=
  Arranged.create GenerationState.ref value "generation state references must be unique"

/-- `CanonicalSecurityState(..)`, with the resources that are created for it. -/
def StateFields.create (fields : StateFields) : Except String CanonicalSecurityState := do
  let resources ← fields.resources.mapM ResourceFields.create
  return {
    principals := ← referencesAreCanonical fields.principals
    roles := ← referencesAreCanonical fields.roles
    tenants := ← referencesAreCanonical fields.tenants
    credentials := ← generationsAreCanonical fields.credentials
    sessions := ← generationsAreCanonical fields.sessions
    resources := ← Arranged.create ResourceSecurityState.resourceRef resources
      "resource state references must be unique"
    policyGenerations := ← generationsAreCanonical fields.policyGenerations
    cacheGenerations := ← generationsAreCanonical fields.cacheGenerations
    pendingJobs := ← referencesAreCanonical fields.pendingJobs
    featureFlags := ← Arranged.create FeatureFlagState.name fields.featureFlags
      "feature flag names must be unique"
    capabilities := ← referencesAreCanonical fields.capabilities
    controlledTimeBucket := fields.controlledTimeBucket
    displayMetadata := fields.displayMetadata
    auditMetadata := fields.auditMetadata }

/-! ## Fingerprints -/

def GenerationState.toValue (g : GenerationState) : Value :=
  .mapping [(some "ref", .scalar (.str g.ref.val)), (some "generation", .scalar (.int g.generation))]

def ResourceSecurityState.toValue (r : ResourceSecurityState) : Value :=
  .mapping
    [(some "resource_ref", .scalar (.str r.resourceRef.val)),
      (some "owner_ref", .scalar (optionalText (r.ownerRef.map Constrained.val))),
      (some "visible_to", identifiers r.visibleTo.items)]

def FeatureFlagState.toValue (f : FeatureFlagState) : Value :=
  .mapping
    [(some "name", .scalar (.str f.name.val)),
      (some "enabled", .scalar (.bool f.enabled)),
      (some "variant", .scalar (optionalText (f.variant.map Constrained.val)))]

namespace CanonicalSecurityState

/-- `security_semantic_projection`. -/
def securitySemanticProjection (s : CanonicalSecurityState) : Value :=
  .mapping
    [(some "principals", identifiers s.principals.items),
      (some "roles", identifiers s.roles.items),
      (some "tenants", identifiers s.tenants.items),
      (some "credentials", .list (s.credentials.items.map GenerationState.toValue)),
      (some "sessions", .list (s.sessions.items.map GenerationState.toValue)),
      (some "resources", .list (s.resources.items.map ResourceSecurityState.toValue)),
      (some "policy_generations", .list (s.policyGenerations.items.map GenerationState.toValue)),
      (some "cache_generations", .list (s.cacheGenerations.items.map GenerationState.toValue)),
      (some "pending_jobs", identifiers s.pendingJobs.items),
      (some "feature_flags", .list (s.featureFlags.items.map FeatureFlagState.toValue)),
      (some "capabilities", .list (s.capabilities.items.map fun name => .scalar (.str name.val))),
      (some "controlled_time_bucket", .scalar (.int s.controlledTimeBucket))]

/-- `fingerprint`. -/
def fingerprint [Sha256] (s : CanonicalSecurityState) : Except String Sha256Digest :=
  digestOf s.securitySemanticProjection

end CanonicalSecurityState

/-! ## What a state says -/

/-- A resource as it is seen without an order. -/
structure ResourceComponent where
  resourceRef : ContractId
  ownerRef : Option ContractId
  visibleTo : Set ContractId

/-- The components of a security state, each collection as a set. -/
structure Components where
  principals : Set ContractId
  roles : Set ContractId
  tenants : Set ContractId
  credentials : Set GenerationState
  sessions : Set GenerationState
  resources : Set ResourceComponent
  policyGenerations : Set GenerationState
  cacheGenerations : Set GenerationState
  pendingJobs : Set ContractId
  featureFlags : Set FeatureFlagState
  capabilities : Set Name
  controlledTimeBucket : Nat

def ResourceSecurityState.component (r : ResourceSecurityState) : ResourceComponent :=
  ⟨r.resourceRef, r.ownerRef, {id | id ∈ r.visibleTo.items}⟩

def CanonicalSecurityState.components (s : CanonicalSecurityState) : Components where
  principals := {id | id ∈ s.principals.items}
  roles := {id | id ∈ s.roles.items}
  tenants := {id | id ∈ s.tenants.items}
  credentials := {g | g ∈ s.credentials.items}
  sessions := {g | g ∈ s.sessions.items}
  resources := {c | ∃ r ∈ s.resources.items, r.component = c}
  policyGenerations := {g | g ∈ s.policyGenerations.items}
  cacheGenerations := {g | g ∈ s.cacheGenerations.items}
  pendingJobs := {id | id ∈ s.pendingJobs.items}
  featureFlags := {f | f ∈ s.featureFlags.items}
  capabilities := {name | name ∈ s.capabilities.items}
  controlledTimeBucket := s.controlledTimeBucket

/-! ## Order and metadata -/

/-- Whether resources differ in the order of their viewers only. -/
structure ResourceFields.Rearranged (r r' : ResourceFields) : Prop where
  resourceRef : r.resourceRef = r'.resourceRef
  ownerRef : r.ownerRef = r'.ownerRef
  visibleTo : r.visibleTo.Perm r'.visibleTo

/-- Whether states differ in the order of their collections and in their metadata only. -/
structure StateFields.Rearranged (s t : StateFields) : Prop where
  principals : s.principals.Perm t.principals
  roles : s.roles.Perm t.roles
  tenants : s.tenants.Perm t.tenants
  credentials : s.credentials.Perm t.credentials
  sessions : s.sessions.Perm t.sessions
  resources : ∃ l, s.resources.Perm l ∧ List.Forall₂ ResourceFields.Rearranged l t.resources
  policyGenerations : s.policyGenerations.Perm t.policyGenerations
  cacheGenerations : s.cacheGenerations.Perm t.cacheGenerations
  pendingJobs : s.pendingJobs.Perm t.pendingJobs
  featureFlags : s.featureFlags.Perm t.featureFlags
  capabilities : s.capabilities.Perm t.capabilities
  controlledTimeBucket : s.controlledTimeBucket = t.controlledTimeBucket

theorem ResourceFields.Rearranged.create_eq {r r' : ResourceFields} (h : r.Rearranged r') :
    r.create = r'.create := by
  rw [ResourceFields.create, ResourceFields.create, h.resourceRef, h.ownerRef,
    Arranged.create_of_perm h.visibleTo]

theorem mapM_create_of_forall₂ {l l' : List ResourceFields}
    (h : List.Forall₂ ResourceFields.Rearranged l l') :
    l.mapM ResourceFields.create = l'.mapM ResourceFields.create := by
  induction h with
  | nil => rfl
  | cons hr _ ih => rw [List.mapM_cons, List.mapM_cons, hr.create_eq, ih]

theorem references_of_perm {pattern : String → Bool} {l l' : List (Constrained pattern)} (h : l.Perm l') :
    referencesAreCanonical l = referencesAreCanonical l' := Arranged.create_of_perm h

theorem generations_of_perm {l l' : List GenerationState} (h : l.Perm l') :
    generationsAreCanonical l = generationsAreCanonical l' := Arranged.create_of_perm h

/-- A state that is given in another order and with other metadata is the same but for the metadata. -/
theorem StateFields.Rearranged.create {s t : StateFields} (h : s.Rearranged t)
    {state : CanonicalSecurityState} (hcreate : s.create = .ok state) :
    t.create = .ok { state with
      displayMetadata := t.displayMetadata, auditMetadata := t.auditMetadata } := by
  obtain ⟨given, hgiven, hcreate⟩ := Imp.except_bind_eq_ok.mp hcreate
  obtain ⟨l, hperm, hforall⟩ := h.resources
  obtain ⟨given', hgiven', hgivenPerm⟩ := Imp.mapM_of_perm hperm hgiven
  rw [mapM_create_of_forall₂ hforall] at hgiven'
  refine Imp.except_bind_eq_ok.mpr ⟨given', hgiven', ?_⟩
  rw [← references_of_perm h.principals, ← references_of_perm h.roles, ← references_of_perm h.tenants,
    ← generations_of_perm h.credentials, ← generations_of_perm h.sessions,
    ← Arranged.create_of_perm hgivenPerm, ← generations_of_perm h.policyGenerations,
    ← generations_of_perm h.cacheGenerations, ← references_of_perm h.pendingJobs,
    ← Arranged.create_of_perm h.featureFlags, ← references_of_perm h.capabilities,
    ← h.controlledTimeBucket]
  obtain ⟨principals, hprincipals, hcreate⟩ := Imp.except_bind_eq_ok.mp hcreate
  obtain ⟨roles, hroles, hcreate⟩ := Imp.except_bind_eq_ok.mp hcreate
  obtain ⟨tenants, htenants, hcreate⟩ := Imp.except_bind_eq_ok.mp hcreate
  obtain ⟨credentials, hcredentials, hcreate⟩ := Imp.except_bind_eq_ok.mp hcreate
  obtain ⟨sessions, hsessions, hcreate⟩ := Imp.except_bind_eq_ok.mp hcreate
  obtain ⟨resources, hresources, hcreate⟩ := Imp.except_bind_eq_ok.mp hcreate
  obtain ⟨policies, hpolicies, hcreate⟩ := Imp.except_bind_eq_ok.mp hcreate
  obtain ⟨caches, hcaches, hcreate⟩ := Imp.except_bind_eq_ok.mp hcreate
  obtain ⟨jobs, hjobs, hcreate⟩ := Imp.except_bind_eq_ok.mp hcreate
  obtain ⟨flags, hflags, hcreate⟩ := Imp.except_bind_eq_ok.mp hcreate
  obtain ⟨capabilities, hcapabilities, hcreate⟩ := Imp.except_bind_eq_ok.mp hcreate
  rw [hprincipals, hroles, htenants, hcredentials, hsessions, hresources, hpolicies, hcaches, hjobs, hflags,
    hcapabilities, ← Except.ok.inj hcreate]
  rfl

/-! ## Digests -/

theorem GenerationState.eq_of_alike {a b : GenerationState} (h : Alike a.toValue b.toValue) : a = b := by
  have href := text_inj (h.entry 0 rfl rfl)
  have hgeneration := Int.ofNat.inj (Py.Scalar.int.inj (h.entry 1 rfl rfl).scalar)
  cases a
  cases b
  exact (GenerationState.mk.injEq ..).mpr ⟨href, hgeneration⟩

theorem FeatureFlagState.eq_of_alike {a b : FeatureFlagState} (h : Alike a.toValue b.toValue) : a = b := by
  have hname := text_inj (h.entry 0 rfl rfl)
  have henabled := Py.Scalar.bool.inj (h.entry 1 rfl rfl).scalar
  have hvariant := optionalText_inj (h.entry 2 rfl rfl).scalar
  cases a
  cases b
  exact (FeatureFlagState.mk.injEq ..).mpr ⟨hname, henabled, hvariant⟩

theorem ResourceSecurityState.eq_of_alike {a b : ResourceSecurityState} (h : Alike a.toValue b.toValue) :
    a = b := by
  have href := text_inj (h.entry 0 rfl rfl)
  have howner := optionalText_inj (h.entry 1 rfl rfl).scalar
  have hvisible := Arranged.ext_of_items (identifiers_inj (h.entry 2 rfl rfl))
  cases a
  cases b
  exact (ResourceSecurityState.mk.injEq ..).mpr ⟨href, howner, hvisible⟩

theorem ResourceSecurityState.component_injective : Function.Injective ResourceSecurityState.component := by
  intro a b h
  obtain ⟨href, howner, hvisible⟩ := (ResourceComponent.mk.injEq ..).mp h
  have heq : a.visibleTo = b.visibleTo := Arranged.ext_of_mem fun id => Set.ext_iff.mp hvisible id
  cases a
  cases b
  exact (ResourceSecurityState.mk.injEq ..).mpr ⟨href, howner, heq⟩

namespace CanonicalSecurityState

variable {s t : CanonicalSecurityState}

/-- States that are written alike have the same components. -/
theorem components_of_alike (h : Alike s.securitySemanticProjection t.securitySemanticProjection) :
    s.components = t.components := by
  have hprincipals := identifiers_inj (h.entry 0 rfl rfl)
  have hroles := identifiers_inj (h.entry 1 rfl rfl)
  have htenants := identifiers_inj (h.entry 2 rfl rfl)
  have hcredentials := Alike.list_inj GenerationState.eq_of_alike (h.entry 3 rfl rfl)
  have hsessions := Alike.list_inj GenerationState.eq_of_alike (h.entry 4 rfl rfl)
  have hresources := Alike.list_inj ResourceSecurityState.eq_of_alike (h.entry 5 rfl rfl)
  have hpolicies := Alike.list_inj GenerationState.eq_of_alike (h.entry 6 rfl rfl)
  have hcaches := Alike.list_inj GenerationState.eq_of_alike (h.entry 7 rfl rfl)
  have hjobs := identifiers_inj (h.entry 8 rfl rfl)
  have hflags := Alike.list_inj FeatureFlagState.eq_of_alike (h.entry 9 rfl rfl)
  have hcapabilities := Alike.list_inj text_inj (h.entry 10 rfl rfl)
  have hbucket := Int.ofNat.inj (Py.Scalar.int.inj (h.entry 11 rfl rfl).scalar)
  rw [components, components, hprincipals, hroles, htenants, hcredentials, hsessions, hresources, hpolicies,
    hcaches, hjobs, hflags, hcapabilities, hbucket]

/-- States with the same components are written alike. -/
theorem projection_eq_of_components (h : s.components = t.components) :
    s.securitySemanticProjection = t.securitySemanticProjection := by
  have hitems : ∀ {α κ : Type} [LinearOrder κ] {key : α → κ} {c d : Arranged key},
      {a | a ∈ c.items} = {a | a ∈ d.items} → c.items = d.items := fun heq =>
    congrArg Arranged.items (Arranged.ext_of_mem fun a => Set.ext_iff.mp heq a)
  have hresources : s.resources.items = t.resources.items := by
    refine congrArg Arranged.items (Arranged.ext_of_mem fun r => ?_)
    have hset := Set.ext_iff.mp (congrArg Components.resources h) r.component
    constructor
    · intro hr
      obtain ⟨r', hr', heq⟩ := hset.mp ⟨r, hr, rfl⟩
      exact ResourceSecurityState.component_injective heq ▸ hr'
    · intro hr
      obtain ⟨r', hr', heq⟩ := hset.mpr ⟨r, hr, rfl⟩
      exact ResourceSecurityState.component_injective heq ▸ hr'
  rw [securitySemanticProjection, securitySemanticProjection, hitems (congrArg Components.principals h),
    hitems (congrArg Components.roles h), hitems (congrArg Components.tenants h),
    hitems (congrArg Components.credentials h), hitems (congrArg Components.sessions h), hresources,
    hitems (congrArg Components.policyGenerations h), hitems (congrArg Components.cacheGenerations h),
    hitems (congrArg Components.pendingJobs h), hitems (congrArg Components.featureFlags h),
    hitems (congrArg Components.capabilities h),
    show s.controlledTimeBucket = t.controlledTimeBucket from congrArg Components.controlledTimeBucket h]

end CanonicalSecurityState

/-- Neither the order in which a state is given nor its metadata change its fingerprint, and states have one
fingerprint exactly if they have the same components, if SHA-256 tells them apart. -/
theorem security_fingerprint_spec [Sha256] :
    (∀ (s t : StateFields) (state : CanonicalSecurityState), s.Rearranged t → s.create = .ok state →
      ∃ state', t.create = .ok state' ∧ state'.fingerprint = state.fingerprint) ∧
    ∀ (s t : CanonicalSecurityState) (d : Sha256Digest),
      CollisionFree {s.securitySemanticProjection, t.securitySemanticProjection} →
        s.fingerprint = .ok d → (t.fingerprint = .ok d ↔ s.components = t.components) := by
  refine ⟨fun s t state h hcreate => ⟨_, h.create hcreate, rfl⟩, fun s t d hfree hs => ⟨fun ht => ?_, fun h => ?_⟩⟩
  · exact CanonicalSecurityState.components_of_alike (hfree.alike (Set.mem_insert _ _)
      (Set.mem_insert_of_mem _ (Set.mem_singleton _)) hs ht)
  · rw [CanonicalSecurityState.fingerprint, ← CanonicalSecurityState.projection_eq_of_components h]
    exact hs

/-! ## A state in two orders -/

namespace Shared

def alice : ContractId := ⟨"principal:alice", by decide +kernel⟩
def bob : ContractId := ⟨"principal:bob", by decide +kernel⟩
def document : ContractId := ⟨"resource:document", by decide +kernel⟩

theorem plain_distinct : (Json.obj ([] : List (String × PlainJson))).Distinct :=
  .obj List.nodup_nil (List.forall_mem_nil _)

theorem plain_finite : ∀ s ∈ (Json.obj ([] : List (String × PlainJson))).scalars, s.IsFinite :=
  List.forall_mem_nil _

theorem plain_stripped : ∀ s ∈ jsonTexts (.obj []), Constrained.strip s = s := List.forall_mem_nil _

def plain : Payload := ⟨[], plain_distinct, plain_finite, plain_stripped⟩

/-- Metadata that says something. -/
def noted : Payload where
  entries := [("note", .scalar (.bool true))]
  distinct := .obj (List.nodup_singleton _) (List.forall_mem_singleton.mpr (.scalar _))
  finite := List.forall_mem_singleton.mpr nofun
  stripped := by decide +kernel

/-- A document that two principals see. -/
def fields : StateFields where
  principals := [alice, bob]
  resources := [⟨document, some alice, [alice, bob]⟩]
  controlledTimeBucket := 42
  displayMetadata := plain
  auditMetadata := plain

def rearranged : StateFields where
  principals := [bob, alice]
  resources := [⟨document, some alice, [bob, alice]⟩]
  controlledTimeBucket := 42
  displayMetadata := noted
  auditMetadata := plain

theorem rearranged_fields : fields.Rearranged rearranged where
  principals := .swap _ _ _
  roles := .refl _
  tenants := .refl _
  credentials := .refl _
  sessions := .refl _
  resources := ⟨_, .refl _, .cons ⟨rfl, rfl, .swap _ _ _⟩ .nil⟩
  policyGenerations := .refl _
  cacheGenerations := .refl _
  pendingJobs := .refl _
  featureFlags := .refl _
  capabilities := .refl _
  controlledTimeBucket := rfl

end Shared

theorem security_fingerprint_spec_shared : let _ := Sha2.sha256
    ∃ state state' d, Shared.fields.create = .ok state ∧ Shared.rearranged.create = .ok state' ∧
      state.fingerprint = .ok d ∧ state'.fingerprint = .ok d ∧ state.components = state'.components := by
  intro _
  obtain ⟨horder, hcomponents⟩ := security_fingerprint_spec
  have hwritten : (Shared.fields.create.toOption.bind fun state =>
      (canonicalJsonBytes state.securitySemanticProjection).toOption).isSome = true := by decide +kernel
  obtain ⟨bytes, hbytes⟩ := Option.isSome_iff_exists.mp hwritten
  obtain ⟨state, hstate, hbytes⟩ := Option.bind_eq_some_iff.mp hbytes
  have hcreate := Imp.toOption_eq_some.mp hstate
  obtain ⟨d, hd⟩ := exists_digestOf (Imp.toOption_eq_some.mp hbytes)
  obtain ⟨state', hcreate', hfingerprint⟩ := horder _ _ state Shared.rearranged_fields hcreate
  have hprojection : state'.securitySemanticProjection = state.securitySemanticProjection := by
    rw [← Except.ok.inj ((Shared.rearranged_fields.create hcreate).symm.trans hcreate')]
    rfl
  have hd' : state'.fingerprint = .ok d := hfingerprint.trans hd
  refine ⟨state, state', d, hcreate, hcreate', hd, hd', (hcomponents state state' d ?_ hd).mp hd'⟩
  rw [hprojection, Set.pair_eq_singleton]
  rintro b ⟨v, rfl, hb⟩ b' ⟨w, rfl, hb'⟩ -
  exact Except.ok.inj (hb.symm.trans hb')

end StateWeaver.Contracts
