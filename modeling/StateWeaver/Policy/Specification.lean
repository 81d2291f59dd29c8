import StateWeaver.Policy.Evaluator

/-!
# What the evaluator decides

`Context.Cleared` and `Context.Approved` say what a complete request must fulfil, without an evaluator.
A check fails if and only if its part of this is violated, and its reason code tells which check it
was, so the outcome can be read off the specification.
-/

namespace StateWeaver.Policy

open Contracts

/-! ## Patterns of paths -/

/-- The texts that a pattern stands for. -/
inductive Matches : List Glob → List Char → Prop
  | nil : Matches [] []
  | literal {c rest path} (h : Matches rest path) : Matches (.literal c :: rest) (c :: path)
  | segment {part rest path} (hpart : ∀ c ∈ part, c ≠ '/') (h : Matches rest path) :
      Matches (.segment :: rest) (part ++ path)
  | any {part rest path} (hpart : ∀ c ∈ part, c ≠ '\n') (h : Matches rest path) :
      Matches (.any :: rest) (part ++ path)

/-- A part of a path followed by the rest, as the matcher tries them. -/
theorem any_range_iff {allowed : Char → Bool} {rest : List Char → Bool} {path : List Char} :
    ((List.range (path.length + 1)).any fun n =>
        (path.take n).all allowed && rest (path.drop n)) = true ↔
      ∃ part tail, path = part ++ tail ∧ (∀ c ∈ part, allowed c = true) ∧ rest tail = true := by
  simp only [List.any_eq_true, List.mem_range, Bool.and_eq_true, List.all_eq_true]
  constructor
  · rintro ⟨n, -, hpart, hrest⟩
    exact ⟨path.take n, path.drop n, (List.take_append_drop n path).symm, hpart, hrest⟩
  · rintro ⟨part, tail, rfl, hpart, hrest⟩
    refine ⟨part.length, ?_, ?_, ?_⟩
    · rw [List.length_append]
      omega
    · rw [List.take_left']
      · exact hpart
      · rfl
    · rw [List.drop_left']
      · exact hrest
      · rfl

theorem matchGlobs_iff {pattern : List Glob} {path : List Char} :
    matchGlobs pattern path = true ↔ Matches pattern path := by
  induction pattern generalizing path with
  | nil =>
      rw [matchGlobs, List.isEmpty_iff]
      constructor
      · rintro rfl
        exact .nil
      · intro h
        cases h
        rfl
  | cons glob rest ih =>
      cases glob with
      | literal c =>
          cases path with
          | nil => exact iff_of_false (by simp [matchGlobs]) (by intro h; cases h)
          | cons d path =>
              simp only [matchGlobs, Bool.and_eq_true, beq_iff_eq, ih]
              constructor
              · rintro ⟨rfl, h⟩
                exact .literal h
              · intro h
                cases h with
                | literal h => exact ⟨rfl, h⟩
      | segment =>
          rw [matchGlobs, any_range_iff]
          constructor
          · rintro ⟨part, tail, rfl, hpart, hrest⟩
            exact .segment (fun c hc => by simpa using hpart c hc) (ih.mp hrest)
          · intro h
            cases h with
            | segment hpart h => exact ⟨_, _, rfl, fun c hc => by simpa using hpart c hc, ih.mpr h⟩
      | any =>
          rw [matchGlobs, any_range_iff]
          constructor
          · rintro ⟨part, tail, rfl, hpart, hrest⟩
            exact .any (fun c hc => by simpa using hpart c hc) (ih.mp hrest)
          · intro h
            cases h with
            | any hpart h => exact ⟨_, _, rfl, fun c hc => by simpa using hpart c hc, ih.mpr h⟩

/-- Whether a selector names a host, a port and a path. -/
def Covers (selector : TargetSelector) (host : Host) (port : Nat) (path : List Char) : Prop :=
  (∀ required ∈ selector.host, required = host) ∧
    (selector.ports ≠ [] → port ∈ selector.ports) ∧
    (selector.paths ≠ [] → ∃ pattern ∈ selector.paths, Matches (globs pattern.val.toList) path)

theorem selectorMatches_iff {selector : TargetSelector} {target : ActionTarget} :
    selectorMatches selector target = true ↔
      Covers selector target.host target.port target.path.val.toList := by
  rw [selectorMatches, Covers]
  split
  · next hhost =>
      refine iff_of_false (by simp) fun h => ?_
      obtain ⟨required, hrequired⟩ := Option.ne_none_iff_exists'.mp hhost.1
      exact hhost.2 (hrequired.trans (congrArg some (h.1 required hrequired)))
  · next hhost =>
      have hnamed : ∀ required ∈ selector.host, required = target.host := by
        intro required hrequired
        rw [hrequired] at hhost
        simpa using hhost
      split
      · next hport => exact iff_of_false (by simp) fun h => hport.2 (h.2.1 hport.1)
      · next hport =>
          have hin : selector.ports ≠ [] → target.port ∈ selector.ports := by
            intro hsome
            by_contra hnot
            exact hport ⟨hsome, hnot⟩
          rw [Bool.or_eq_true, List.isEmpty_iff, List.any_eq_true]
          constructor
          · rintro (hnone | ⟨pattern, hpattern, hmatch⟩)
            · exact ⟨hnamed, hin, fun hsome => absurd hnone hsome⟩
            · exact ⟨hnamed, hin, fun _ => ⟨pattern, hpattern, matchGlobs_iff.mp hmatch⟩⟩
          · rintro ⟨-, -, hpaths⟩
            by_cases hnone : selector.paths = []
            · exact Or.inl hnone
            · obtain ⟨pattern, hpattern, hmatch⟩ := hpaths hnone
              exact Or.inr ⟨pattern, hpattern, matchGlobs_iff.mpr hmatch⟩

/-! ## Names of identities -/

/-- An identity is allowed under its handle or under its short name. -/
def IdentityAllowed (identity : IdentityHandle) (allowed : List Name) : Prop :=
  ∃ name ∈ allowed, name.val = identity.val ∨ "identity:" ++ name.val = identity.val

theorem append_removePrefix {affix text : String} (h : affix.toList <+: text.toList) :
    affix ++ removePrefix affix text = text := by
  obtain ⟨rest, hrest⟩ := h
  rw [removePrefix, if_pos ⟨rest, hrest⟩, ← String.toList_inj, String.toList_append,
    String.toList_ofList, ← hrest, List.drop_left]

/-- A handle is its short name behind the tag. -/
theorem append_shortName (identity : IdentityHandle) :
    "identity:" ++ removePrefix "identity:" identity.val = identity.val := by
  have h := identity.matchesPattern
  simp only [isIdentityHandle, isTagged, Bool.and_eq_true, beq_iff_eq] at h
  refine append_removePrefix ?_
  rw [← h.2.1]
  exact List.take_prefix _ _

theorem identityIsAllowed_iff {identity : IdentityHandle} {allowed : List Name} :
    identityIsAllowed identity allowed = true ↔ IdentityAllowed identity allowed := by
  have hshort : ∀ name : Name, name.val = removePrefix "identity:" identity.val ↔
      "identity:" ++ name.val = identity.val := by
    intro name
    constructor
    · rintro h
      rw [h, append_shortName]
    · intro h
      have happend := h.trans (append_shortName identity).symm
      rw [← String.toList_inj, String.toList_append, String.toList_append] at happend
      exact String.toList_inj.mp (List.append_cancel_left happend)
  simp only [identityIsAllowed, Bool.or_eq_true, List.contains_iff_mem, List.mem_map]
  constructor
  · rintro (⟨name, hname, h⟩ | ⟨name, hname, h⟩)
    · exact ⟨name, hname, Or.inl h⟩
    · exact ⟨name, hname, Or.inr ((hshort name).mp h)⟩
  · rintro ⟨name, hname, h | h⟩
    · exact Or.inl ⟨name, hname, h⟩
    · exact Or.inr ⟨name, hname, (hshort name).mpr h⟩

/-! ## The specification -/

/-- A request that is complete. -/
structure Context where
  manifest : ScopeManifest
  envelope : ActionEnvelope
  budget : BudgetSnapshot
  evaluatedAt : Instant
  constraints : EvaluationConstraints

def Context.request (c : Context) : PolicyRequest :=
  ⟨some c.manifest, some c.envelope, some c.budget, some c.evaluatedAt, c.constraints⟩

namespace Context

variable (c : Context)

/-- The parts of the specification that no approval replaces. -/
structure Cleared : Prop where
  inWindow : (∀ start ∈ c.manifest.spec.validity.notBefore, start ≤ c.evaluatedAt) ∧
    c.evaluatedAt ≤ c.manifest.spec.validity.expiresAt
  listed : c.envelope.scopeAction ∈ c.manifest.spec.actions.allow ∨
    c.envelope.scopeAction ∈ c.manifest.spec.actions.requireApproval
  /-- An action that acts as someone acts as someone who is allowed. -/
  identity : ∀ field ∈ identityField c.envelope.action, ∃ identity, field = some identity ∧
    IdentityAllowed identity c.manifest.spec.identities.allowed
  /-- An action that reaches out reaches an included target that is not excluded. -/
  target : ∀ field ∈ targetField c.envelope.action, ∃ target, field = some target ∧
    (∃ selector ∈ c.manifest.spec.targets.include_,
      Covers selector target.host target.port target.path.val.toList) ∧
    ∀ selector ∈ c.manifest.spec.targets.exclude,
      ¬ Covers selector target.host target.port target.path.val.toList
  requests : (c.budget.requestsInWindow + 1 : Nat) ≤ requestCapacity c.manifest.spec.limits c.budget
  writes : isWriteAction c.envelope.action = true →
    c.budget.writeRequestsUsed + 1 ≤ c.manifest.spec.limits.maxWriteRequests
  timeout : c.envelope.timeoutMs ≤ c.constraints.maxTimeoutMs
  riskAllowed : c.envelope.riskClass ∈ c.constraints.allowedRiskClasses
  riskSuffices : ∃ minimum, minimumRiskRank c.envelope.action = some minimum ∧
    minimum ≤ riskRank c.envelope.riskClass

/-- Where an approval is required, there is one. -/
def Approved : Prop :=
  (c.envelope.scopeAction ∈ c.manifest.spec.actions.requireApproval ∨
    c.envelope.riskClass ∈ c.constraints.approvalRequiredRiskClasses) → c.envelope.approvalRef ≠ none

/-- What a request must fulfil to be allowed. -/
structure Permitted : Prop where
  cleared : c.Cleared
  approved : c.Approved

end Context

/-! ## The reason codes tell the checks -/

/-- The check that a reason code comes from. -/
def PolicyReasonCode.constraint : PolicyReasonCode → PolicyConstraint
  | .policyAllowed | .malformedRequest | .contextMissing => .contextComplete
  | .scopeNotYetValid | .scopeExpired => .scopeValidity
  | .actionExplicitlyDenied | .actionNotListed => .actionAuthorization
  | .approvalMissing => .approval
  | .identityMissing | .identityNotAllowed => .identity
  | .targetMissing | .targetNotIncluded | .targetExcluded => .target
  | .requestBudgetExhausted => .requestBudget
  | .writeBudgetExhausted => .writeBudget
  | .timeoutLimitExceeded => .timeout
  | .riskClassDisallowed | .riskUnderclassified => .riskClass

/-- The result of a check: it is about its constraint, and so is its reason code. -/
def About (constraint : PolicyConstraint) (r : ConstraintResult) : Prop :=
  r.constraint = constraint ∧ ∀ code, r.reasonCode = some code → code.constraint = constraint

theorem about_passed (constraint : PolicyConstraint) : About constraint (passed constraint) :=
  ⟨rfl, nofun⟩

theorem about_notApplicable (constraint : PolicyConstraint) :
    About constraint (notApplicable constraint) :=
  ⟨rfl, nofun⟩

theorem about_failed (code : PolicyReasonCode) :
    About code.constraint (failed code.constraint code) := by
  refine ⟨rfl, fun code' h => ?_⟩
  cases h
  rfl

section Checks

variable (request : PolicyRequest)

theorem about_checkContext : About .contextComplete (checkContext request) := by
  rw [checkContext]
  split
  · exact about_passed _
  · exact about_failed .contextMissing

theorem about_checkScopeValidity : About .scopeValidity (checkScopeValidity request) := by
  rw [checkScopeValidity]
  split
  · split
    · exact about_failed .scopeNotYetValid
    · split
      · exact about_failed .scopeExpired
      · exact about_passed _
  · exact about_notApplicable _

theorem about_checkAuthorization : About .actionAuthorization (checkAuthorization request) := by
  rw [checkAuthorization]
  split
  · exact about_notApplicable _
  · exact about_failed .actionExplicitlyDenied
  · exact about_failed .actionNotListed
  · exact about_passed _

theorem about_checkApproval : About .approval (checkApproval request) := by
  rw [checkApproval]
  split
  · split
    · exact about_failed .approvalMissing
    · exact about_passed _
  · exact about_notApplicable _

theorem about_checkIdentity : About .identity (checkIdentity request) := by
  rw [checkIdentity]
  split
  · split
    · exact about_notApplicable _
    · exact about_failed .identityMissing
    · split
      · exact about_passed _
      · exact about_failed .identityNotAllowed
  · exact about_notApplicable _

theorem about_checkTarget : About .target (checkTarget request) := by
  rw [checkTarget]
  split
  · split
    · exact about_notApplicable _
    · exact about_failed .targetMissing
    · split
      · exact about_failed .targetExcluded
      · split
        · exact about_failed .targetNotIncluded
        · exact about_passed _
  · exact about_notApplicable _

theorem about_checkRequestBudget : About .requestBudget (checkRequestBudget request) := by
  rw [checkRequestBudget]
  split
  · split
    · exact about_failed .requestBudgetExhausted
    · exact about_passed _
  · exact about_notApplicable _

theorem about_checkWriteBudget : About .writeBudget (checkWriteBudget request) := by
  rw [checkWriteBudget]
  split
  · split
    · exact about_notApplicable _
    · split
      · exact about_failed .writeBudgetExhausted
      · exact about_passed _
  · exact about_notApplicable _

theorem about_checkTimeout : About .timeout (checkTimeout request) := by
  rw [checkTimeout]
  split
  · exact about_notApplicable _
  · split
    · exact about_failed .timeoutLimitExceeded
    · exact about_passed _

theorem about_checkRiskClass : About .riskClass (checkRiskClass request) := by
  rw [checkRiskClass]
  split
  · exact about_notApplicable _
  · split
    · exact about_failed .riskClassDisallowed
    · split
      · exact about_failed .riskClassDisallowed
      · split
        · exact about_failed .riskUnderclassified
        · exact about_passed _

/-- Every check is about its own constraint. -/
theorem about_checks :
    ∀ r ∈ checks request, ∀ code, r.reasonCode = some code → code.constraint = r.constraint := by
  intro r hr code hcode
  have habout : About r.constraint r := by
    simp only [checks, List.mem_cons, List.not_mem_nil, or_false] at hr
    rcases hr with rfl | rfl | rfl | rfl | rfl | rfl | rfl | rfl | rfl | rfl
    · exact (about_checkContext request).1 ▸ about_checkContext request
    · exact (about_checkScopeValidity request).1 ▸ about_checkScopeValidity request
    · exact (about_checkAuthorization request).1 ▸ about_checkAuthorization request
    · exact (about_checkApproval request).1 ▸ about_checkApproval request
    · exact (about_checkIdentity request).1 ▸ about_checkIdentity request
    · exact (about_checkTarget request).1 ▸ about_checkTarget request
    · exact (about_checkRequestBudget request).1 ▸ about_checkRequestBudget request
    · exact (about_checkWriteBudget request).1 ▸ about_checkWriteBudget request
    · exact (about_checkTimeout request).1 ▸ about_checkTimeout request
    · exact (about_checkRiskClass request).1 ▸ about_checkRiskClass request
  exact habout.2 code hcode

/-- The checks in the order of the constraints. -/
theorem map_constraint_checks :
    (checks request).map ConstraintResult.constraint =
      [.contextComplete, .scopeValidity, .actionAuthorization, .approval, .identity, .target,
        .requestBudget, .writeBudget, .timeout, .riskClass] := by
  simp only [checks, List.map_cons, List.map_nil, (about_checkContext request).1,
    (about_checkScopeValidity request).1, (about_checkAuthorization request).1,
    (about_checkApproval request).1, (about_checkIdentity request).1, (about_checkTarget request).1,
    (about_checkRequestBudget request).1, (about_checkWriteBudget request).1,
    (about_checkTimeout request).1, (about_checkRiskClass request).1]

end Checks

/-! ## The decision -/

theorem mem_failedCodes {l : List ConstraintResult} {code : PolicyReasonCode} :
    code ∈ failedCodes l ↔ ∃ r ∈ l, r.reasonCode = some code := by
  rw [failedCodes, List.mem_filterMap]
  refine exists_congr fun r => and_congr_right fun _ => ?_
  split
  · rfl
  · next hstatus =>
      refine iff_of_false nofun fun hcode => hstatus (r.coherent.mpr ?_)
      rw [hcode]
      exact Option.some_ne_none code

theorem failedCodes_eq_nil {l : List ConstraintResult} :
    failedCodes l = [] ↔ ∀ r ∈ l, r.reasonCode = none := by
  rw [List.eq_nil_iff_forall_not_mem]
  constructor
  · intro h r hr
    rw [Option.eq_none_iff_forall_ne_some]
    exact fun code hcode => h code (mem_failedCodes.mpr ⟨r, hr, hcode⟩)
  · intro h code hcode
    obtain ⟨r, hr, hcode⟩ := mem_failedCodes.mp hcode
    rw [h r hr] at hcode
    cases hcode

/-- The reason codes come in the order of the constraints. -/
theorem map_constraint_failedCodes {l : List ConstraintResult}
    (h : ∀ r ∈ l, ∀ code, r.reasonCode = some code → code.constraint = r.constraint) :
    ((failedCodes l).map PolicyReasonCode.constraint).Sublist (l.map ConstraintResult.constraint) := by
  induction l with
  | nil => exact List.Sublist.refl _
  | cons r l ih =>
      obtain ⟨hr, hl⟩ := List.forall_mem_cons.mp h
      rw [failedCodes, List.filterMap_cons, List.map_cons]
      split
      · exact (ih hl).cons _
      · next code hcode =>
          rw [List.map_cons]
          split at hcode
          · rw [hr code hcode]
            exact (ih hl).cons_cons _
          · cases hcode

theorem nodup_failedCodes (request : PolicyRequest) : (failedCodes (checks request)).Nodup := by
  refine List.Nodup.of_map PolicyReasonCode.constraint ?_
  refine (map_constraint_failedCodes (about_checks request)).nodup ?_
  rw [map_constraint_checks]
  decide

/-- The evaluator always builds its decision: it allows what fails no check, and asks for an approval
where nothing but the approval is missing. -/
theorem evaluateTyped_eq_ok (request : PolicyRequest) :
    ∃ decision, evaluateTyped request = .ok decision ∧
      (decision.outcome = .allow ↔ failedCodes (checks request) = []) ∧
      (decision.outcome = .requireApproval ↔ failedCodes (checks request) = [.approvalMissing]) := by
  have hunique := nodup_failedCodes request
  rw [evaluateTyped]
  generalize hcodes : failedCodes (checks request) = codes at hunique ⊢
  have hcreate : ∀ outcome reasonCodes (h : DecisionShape outcome reasonCodes (checks request)),
      PolicyDecision.create outcome reasonCodes (checks request) = .ok ⟨_, _, _, h⟩ :=
    fun _ _ h => dif_pos h
  split
  · next hdeny =>
      have hnonempty : codes ≠ [] := by
        rintro rfl
        exact hdeny rfl
      refine ⟨_, hcreate .deny codes ⟨hnonempty, hunique, nofun, fun _ => hcodes.symm, nofun⟩, ?_, ?_⟩
      · exact iff_of_false nofun hnonempty
      · refine iff_of_false nofun fun hone => hdeny ?_
        rw [hone]
        rfl
  · next hdeny =>
      split
      · next hone =>
          rw [hone] at hunique hcodes ⊢
          refine ⟨_, hcreate .requireApproval [.approvalMissing]
            ⟨nofun, hunique, nofun, fun _ => hcodes.symm, fun _ => rfl⟩, ?_, ?_⟩
          · exact iff_of_false nofun nofun
          · exact iff_of_true rfl rfl
      · next hone =>
          have hempty : codes = [] := by
            rw [not_not, List.filter_eq_nil_iff] at hdeny
            cases codes with
            | nil => rfl
            | cons code rest =>
                have hcode : code = .approvalMissing := by simpa using hdeny code List.mem_cons_self
                cases rest with
                | nil => exact absurd (by rw [hcode]) hone
                | cons code' rest =>
                    have hcode' : code' = .approvalMissing := by
                      simpa using hdeny code' (List.mem_cons_of_mem _ List.mem_cons_self)
                    rw [hcode, hcode'] at hunique
                    exact absurd List.mem_cons_self (List.nodup_cons.mp hunique).1
          rw [hempty] at hcodes ⊢
          rw [if_neg (fun h => h rfl)]
          refine ⟨_, hcreate .allow [.policyAllowed] ⟨nofun, List.nodup_singleton _,
            fun _ => ⟨rfl, hcodes⟩, fun h => absurd rfl h, nofun⟩, ?_, ?_⟩
          · exact iff_of_true rfl rfl
          · exact iff_of_false nofun nofun

/-! ## The checks against the specification -/

namespace Context

variable (c : Context)

theorem checkContext_passes : (checkContext c.request).reasonCode = none := by
  rw [checkContext, if_pos ⟨rfl, rfl, rfl, rfl⟩]
  rfl

theorem checkScopeValidity_passes :
    (checkScopeValidity c.request).reasonCode = none ↔
      (∀ start ∈ c.manifest.spec.validity.notBefore, start ≤ c.evaluatedAt) ∧
        c.evaluatedAt ≤ c.manifest.spec.validity.expiresAt := by
  simp only [checkScopeValidity, request]
  split
  · next hearly =>
      obtain ⟨start, hstart, hlt⟩ := hearly
      exact iff_of_false nofun fun h => absurd (h.1 start hstart) (not_le_of_gt hlt)
  · next hearly =>
      have hstarted : ∀ start ∈ c.manifest.spec.validity.notBefore, start ≤ c.evaluatedAt :=
        fun start hstart => le_of_not_gt fun hlt => hearly ⟨start, hstart, hlt⟩
      split
      · next hlate => exact iff_of_false nofun fun h => absurd h.2 (not_le_of_gt hlate)
      · next hlate => exact iff_of_true rfl ⟨hstarted, le_of_not_gt hlate⟩

theorem checkAuthorization_passes :
    (checkAuthorization c.request).reasonCode = none ↔
      c.envelope.scopeAction ∈ c.manifest.spec.actions.allow ∨
        c.envelope.scopeAction ∈ c.manifest.spec.actions.requireApproval := by
  simp only [checkAuthorization, requirement, request, ScopeManifest.authorizationRequirement,
    ScopeActions.requirementFor]
  split_ifs with hdeny happroval hallow
  · refine iff_of_false nofun ?_
    rintro (h | h)
    · exact c.manifest.spec.actions.allowNotDenied _ h hdeny
    · exact c.manifest.spec.actions.approvalNotDenied _ h hdeny
  · exact iff_of_true rfl (Or.inr happroval)
  · exact iff_of_true rfl (Or.inl hallow)
  · exact iff_of_false nofun fun h => h.elim hallow happroval

theorem checkApproval_passes : (checkApproval c.request).reasonCode = none ↔ c.Approved := by
  have hrequired : c.manifest.authorizationRequirement c.envelope.scopeAction = .approvalRequired ↔
      c.envelope.scopeAction ∈ c.manifest.spec.actions.requireApproval := by
    rw [ScopeManifest.authorizationRequirement, ScopeActions.requirementFor]
    split_ifs with hdeny happroval hallow
    · exact iff_of_false nofun fun h => c.manifest.spec.actions.approvalNotDenied _ h hdeny
    · exact iff_of_true rfl happroval
    · exact iff_of_false nofun happroval
    · exact iff_of_false nofun happroval
  simp only [checkApproval, requirement, request, hrequired]
  rw [Approved]
  split
  · next hmissing => exact iff_of_false nofun fun h => h hmissing.1 hmissing.2
  · next hmissing =>
      exact iff_of_true rfl fun hneeded habsent => hmissing ⟨hneeded, habsent⟩

theorem checkIdentity_passes :
    (checkIdentity c.request).reasonCode = none ↔
      ∀ field ∈ identityField c.envelope.action, ∃ identity, field = some identity ∧
        IdentityAllowed identity c.manifest.spec.identities.allowed := by
  simp only [checkIdentity, request]
  split
  · next hfield =>
      rw [hfield]
      exact iff_of_true rfl nofun
  · next hfield =>
      rw [hfield]
      refine iff_of_false nofun fun h => ?_
      obtain ⟨identity, hnone, -⟩ := h none rfl
      cases hnone
  · next identity hfield =>
      rw [hfield]
      split
      · next hallowed =>
          refine iff_of_true rfl fun field h => ?_
          cases h
          exact ⟨identity, rfl, identityIsAllowed_iff.mp hallowed⟩
      · next hallowed =>
          refine iff_of_false nofun fun h => hallowed ?_
          obtain ⟨identity', hsome, h⟩ := h _ rfl
          cases hsome
          exact identityIsAllowed_iff.mpr h

theorem any_selectorMatches_iff {selectors : List TargetSelector} {target : ActionTarget} :
    selectors.any (selectorMatches · target) = true ↔
      ∃ selector ∈ selectors, Covers selector target.host target.port target.path.val.toList := by
  rw [List.any_eq_true]
  exact exists_congr fun selector => and_congr_right fun _ => selectorMatches_iff

theorem checkTarget_passes :
    (checkTarget c.request).reasonCode = none ↔
      ∀ field ∈ targetField c.envelope.action, ∃ target, field = some target ∧
        (∃ selector ∈ c.manifest.spec.targets.include_,
          Covers selector target.host target.port target.path.val.toList) ∧
        ∀ selector ∈ c.manifest.spec.targets.exclude,
          ¬ Covers selector target.host target.port target.path.val.toList := by
  simp only [checkTarget, request]
  split
  · next hfield =>
      rw [hfield]
      exact iff_of_true rfl nofun
  · next hfield =>
      rw [hfield]
      refine iff_of_false nofun fun h => ?_
      obtain ⟨target, hnone, -⟩ := h none rfl
      cases hnone
  · next target hfield =>
      rw [hfield]
      split
      · next hexcluded =>
          refine iff_of_false nofun fun h => ?_
          obtain ⟨selector, hselector, hcovers⟩ := any_selectorMatches_iff.mp hexcluded
          obtain ⟨target', hsome, -, hnot⟩ := h _ rfl
          cases hsome
          exact hnot selector hselector hcovers
      · next hexcluded =>
          split
          · next hincluded =>
              refine iff_of_false nofun fun h => ?_
              obtain ⟨target', hsome, hin, -⟩ := h _ rfl
              cases hsome
              rw [any_selectorMatches_iff.mpr hin] at hincluded
              cases hincluded
          · next hincluded =>
              refine iff_of_true rfl fun field h => ?_
              cases h
              refine ⟨target, rfl, any_selectorMatches_iff.mp (by simpa using hincluded), ?_⟩
              exact fun selector hselector hcovers =>
                hexcluded (any_selectorMatches_iff.mpr ⟨selector, hselector, hcovers⟩)

theorem checkRequestBudget_passes :
    (checkRequestBudget c.request).reasonCode = none ↔
      (c.budget.requestsInWindow + 1 : Nat) ≤
        requestCapacity c.manifest.spec.limits c.budget := by
  simp only [checkRequestBudget, request]
  split
  · next hlt => exact iff_of_false nofun (not_le_of_gt hlt)
  · next hlt => exact iff_of_true rfl (le_of_not_gt hlt)

theorem checkWriteBudget_passes :
    (checkWriteBudget c.request).reasonCode = none ↔
      (isWriteAction c.envelope.action = true →
        c.budget.writeRequestsUsed + 1 ≤ c.manifest.spec.limits.maxWriteRequests) := by
  simp only [checkWriteBudget, request]
  split
  · next hread =>
      rw [Bool.not_eq_true'] at hread
      rw [hread]
      exact iff_of_true rfl nofun
  · next hread =>
      have hwrite : isWriteAction c.envelope.action = true := by simpa using hread
      rw [hwrite]
      split
      · next hlt => exact iff_of_false nofun fun h => absurd (h rfl) (not_le_of_gt hlt)
      · next hlt => exact iff_of_true rfl fun _ => le_of_not_gt hlt

theorem checkTimeout_passes :
    (checkTimeout c.request).reasonCode = none ↔
      c.envelope.timeoutMs ≤ c.constraints.maxTimeoutMs := by
  show (if _ then _ else _ : ConstraintResult).reasonCode = none ↔ _
  split
  · next hlt => exact iff_of_false nofun (not_le_of_gt hlt)
  · next hlt => exact iff_of_true rfl (le_of_not_gt hlt)

theorem checkRiskClass_passes :
    (checkRiskClass c.request).reasonCode = none ↔
      c.envelope.riskClass ∈ c.constraints.allowedRiskClasses ∧
        ∃ minimum, minimumRiskRank c.envelope.action = some minimum ∧
          minimum ≤ riskRank c.envelope.riskClass := by
  show (if _ then _ else _ : ConstraintResult).reasonCode = none ↔ _
  split
  · next hnot => exact iff_of_false nofun fun h => hnot h.1
  · next hnot =>
      have hallowed := not_not.mp hnot
      split
      · next hminimum =>
          rw [hminimum]
          refine iff_of_false nofun fun h => ?_
          obtain ⟨minimum, hnone, -⟩ := h.2
          cases hnone
      · next minimum hminimum =>
          rw [hminimum]
          split
          · next hlt =>
              refine iff_of_false nofun fun h => ?_
              obtain ⟨minimum', hsome, hle⟩ := h.2
              cases hsome
              exact not_le_of_gt hlt hle
          · next hlt => exact iff_of_true rfl ⟨hallowed, minimum, rfl, le_of_not_gt hlt⟩

/-- Nothing but the approval can fail exactly if the rest of the specification holds. -/
theorem cleared_iff :
    (∀ r ∈ checks c.request, r.constraint ≠ .approval → r.reasonCode = none) ↔ c.Cleared := by
  simp only [checks, List.forall_mem_cons, (about_checkContext _).1, (about_checkScopeValidity _).1,
    (about_checkAuthorization _).1, (about_checkApproval _).1, (about_checkIdentity _).1,
    (about_checkTarget _).1, (about_checkRequestBudget _).1, (about_checkWriteBudget _).1,
    (about_checkTimeout _).1, (about_checkRiskClass _).1, ne_eq, reduceCtorEq, not_false_eq_true,
    forall_const, not_true_eq_false, false_implies, true_and, checkContext_passes,
    checkScopeValidity_passes, checkAuthorization_passes, checkIdentity_passes, checkTarget_passes,
    checkRequestBudget_passes, checkWriteBudget_passes, checkTimeout_passes, checkRiskClass_passes]
  constructor
  · rintro ⟨hwindow, hlisted, hidentity, htarget, hrequests, hwrites, htimeout, ⟨hrisk, hsuffices⟩, -⟩
    exact ⟨hwindow, hlisted, hidentity, htarget, hrequests, hwrites, htimeout, hrisk, hsuffices⟩
  · intro h
    exact ⟨h.inWindow, h.listed, h.identity, h.target, h.requests, h.writes, h.timeout,
      ⟨h.riskAllowed, h.riskSuffices⟩, nofun⟩

theorem checkApproval_mem : checkApproval c.request ∈ checks c.request := by
  simp only [checks, List.mem_cons, true_or, or_true]

/-- No check fails if the specification holds. -/
theorem failedCodes_eq_nil_iff : failedCodes (checks c.request) = [] ↔ c.Permitted := by
  rw [failedCodes_eq_nil]
  constructor
  · intro h
    exact ⟨c.cleared_iff.mp fun r hr _ => h r hr,
      c.checkApproval_passes.mp (h _ c.checkApproval_mem)⟩
  · intro h r hr
    by_cases hconstraint : r.constraint = .approval
    · have heq : r = checkApproval c.request := by
        have hunique : ((checks c.request).map ConstraintResult.constraint).Nodup := by
          rw [map_constraint_checks]
          decide
        refine List.inj_on_of_nodup_map hunique hr c.checkApproval_mem ?_
        rw [hconstraint, (about_checkApproval _).1]
      rw [heq]
      exact c.checkApproval_passes.mpr h.approved
    · exact c.cleared_iff.mpr h.cleared r hr hconstraint

/-- Only the approval is missing if the rest of the specification holds. -/
theorem failedCodes_eq_approval_iff :
    failedCodes (checks c.request) = [.approvalMissing] ↔ c.Cleared ∧ ¬ c.Approved := by
  constructor
  · intro h
    have hother : ∀ r ∈ checks c.request, r.constraint ≠ .approval → r.reasonCode = none := by
      intro r hr hconstraint
      rw [Option.eq_none_iff_forall_ne_some]
      intro code hcode
      have hmem := mem_failedCodes.mpr ⟨r, hr, hcode⟩
      rw [h, List.mem_singleton] at hmem
      rw [← about_checks _ r hr code hcode, hmem] at hconstraint
      exact hconstraint rfl
    have hcleared := c.cleared_iff.mp hother
    refine ⟨hcleared, fun happroved => ?_⟩
    rw [c.failedCodes_eq_nil_iff.mpr ⟨hcleared, happroved⟩] at h
    cases h
  · rintro ⟨hcleared, hmissing⟩
    have hall : ∀ code ∈ failedCodes (checks c.request), code = .approvalMissing := by
      intro code hcode
      obtain ⟨r, hr, hcode⟩ := mem_failedCodes.mp hcode
      have hconstraint : r.constraint = .approval := by
        by_contra hne
        rw [c.cleared_iff.mpr hcleared r hr hne] at hcode
        cases hcode
      have hcodeConstraint := about_checks _ r hr code hcode
      rw [hconstraint] at hcodeConstraint
      cases code <;> first | rfl | cases hcodeConstraint
    have hnonempty : failedCodes (checks c.request) ≠ [] :=
      fun hnil => hmissing (c.failedCodes_eq_nil_iff.mp hnil).approved
    have hunique := nodup_failedCodes c.request
    cases hcodes : failedCodes (checks c.request) with
    | nil => exact absurd hcodes hnonempty
    | cons code rest =>
        rw [hcodes] at hall hunique
        obtain ⟨hhead, htail⟩ := List.forall_mem_cons.mp hall
        cases rest with
        | nil => rw [hhead]
        | cons code' rest =>
            rw [hhead, htail code' List.mem_cons_self] at hunique
            exact absurd List.mem_cons_self (List.nodup_cons.mp hunique).1

end Context

/-- A request that is not complete fails its first check. -/
theorem failedCodes_of_incomplete {request : PolicyRequest} (h : ∀ c : Context, c.request ≠ request) :
    .contextMissing ∈ failedCodes (checks request) := by
  refine mem_failedCodes.mpr ⟨checkContext request, List.mem_cons_self, ?_⟩
  rw [checkContext, if_neg]
  · rfl
  · rintro ⟨hmanifest, henvelope, hbudget, hat⟩
    obtain ⟨manifest, hmanifest⟩ := Option.isSome_iff_exists.mp hmanifest
    obtain ⟨envelope, henvelope⟩ := Option.isSome_iff_exists.mp henvelope
    obtain ⟨budget, hbudget⟩ := Option.isSome_iff_exists.mp hbudget
    obtain ⟨evaluatedAt, hat⟩ := Option.isSome_iff_exists.mp hat
    refine h ⟨manifest, envelope, budget, evaluatedAt, request.constraints⟩ ?_
    rw [Context.request, ← hmanifest, ← henvelope, ← hbudget, ← hat]

/-- A complete request is allowed if it is permitted. -/
theorem Context.outcome_allow_iff (c : Context) :
    (evaluate (some c.request)).outcome = .allow ↔ c.Permitted := by
  obtain ⟨decision, hdecision, hallow, -⟩ := evaluateTyped_eq_ok c.request
  rw [evaluate, hdecision]
  exact hallow.trans c.failedCodes_eq_nil_iff

/-- A complete request is sent for approval if nothing else is missing. -/
theorem Context.outcome_requireApproval_iff (c : Context) :
    (evaluate (some c.request)).outcome = .requireApproval ↔ c.Cleared ∧ ¬ c.Approved := by
  obtain ⟨decision, hdecision, -, happroval⟩ := evaluateTyped_eq_ok c.request
  rw [evaluate, hdecision]
  exact happroval.trans c.failedCodes_eq_approval_iff

/-- What is not a complete request is denied. -/
theorem outcome_deny_of_incomplete (request : Option PolicyRequest) :
    (evaluate request).outcome = .deny ∨ ∃ c : Context, request = some c.request := by
  cases request with
  | none => exact Or.inl rfl
  | some request =>
      by_cases hcomplete : ∃ c : Context, c.request = request
      · obtain ⟨c, rfl⟩ := hcomplete
        exact Or.inr ⟨c, rfl⟩
      · obtain ⟨decision, hdecision, hallow, happroval⟩ := evaluateTyped_eq_ok request
        have hmissing := failedCodes_of_incomplete (not_exists.mp hcomplete)
        refine Or.inl ?_
        rw [evaluate, hdecision]
        cases houtcome : decision.outcome with
        | deny => rfl
        | allow =>
            rw [hallow.mp houtcome] at hmissing
            cases hmissing
        | requireApproval =>
            rw [happroval.mp houtcome] at hmissing
            cases List.mem_singleton.mp hmissing

/-- What `evaluate` returns, in terms of the specification: complete requests are allowed if they are
permitted and sent for approval if only the approval is missing, everything else is denied, and no
decision fails its own validation. -/
theorem evaluate_spec :
    (∀ c : Context, (evaluate (some c.request)).outcome = .allow ↔ c.Permitted) ∧
    (∀ c : Context, (evaluate (some c.request)).outcome = .requireApproval ↔
      c.Cleared ∧ ¬ c.Approved) ∧
    (∀ request, (evaluate request).outcome = .deny ∨ ∃ c : Context, request = some c.request) ∧
    ∀ request, ∃ decision, evaluateTyped request = .ok decision := by
  refine ⟨Context.outcome_allow_iff, Context.outcome_requireApproval_iff,
    outcome_deny_of_incomplete, fun request => ?_⟩
  obtain ⟨decision, hdecision, -⟩ := evaluateTyped_eq_ok request
  exact ⟨decision, hdecision⟩

end StateWeaver.Policy
