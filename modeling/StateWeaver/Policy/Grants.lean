import StateWeaver.Policy.Specification

/-!
# Which actions some scope allows

Whatever a scope lists, three things can bar an action for good: it acts as nobody, or as someone whose
name is too long for a scope; it takes longer than any ceiling; or its risk class is too low for what it
does. Everything else is allowed by the scope that grants just this action.
-/

namespace StateWeaver.Policy

open Contracts

/-- An action that nothing bars for good. -/
structure Allowable (envelope : ActionEnvelope) : Prop where
  /-- A name has at most 128 characters, and a handle is a name behind `identity:`. -/
  identity : ∀ field ∈ identityField envelope.action, ∃ identity, field = some identity ∧
    identity.val.toList.length ≤ 137
  timeout : envelope.timeoutMs ≤ 120000
  risk : ∃ minimum, minimumRiskRank envelope.action = some minimum ∧
    minimum ≤ riskRank envelope.riskClass

theorem allowable_of_allowed {c : Context} (h : (evaluate (some c.request)).outcome = .allow) :
    Allowable c.envelope := by
  have hcleared := (c.outcome_allow_iff.mp h).cleared
  refine ⟨fun field hfield => ?_, ?_, hcleared.riskSuffices⟩
  · obtain ⟨identity, hidentity, name, -, hname⟩ := hcleared.identity field hfield
    refine ⟨identity, hidentity, ?_⟩
    have hpattern := name.matchesPattern
    simp only [isName, hasLength, Bool.and_eq_true, decide_eq_true_eq] at hpattern
    have hlength := hpattern.1.2
    rcases hname with hname | hname
    · rw [← hname]
      omega
    · rw [← hname, String.toList_append, List.length_append]
      have htag : "identity:".toList.length = 9 := rfl
      omega
  · exact le_trans hcleared.timeout c.constraints.timeoutInRange.2

/-- The name behind the tag of a handle. -/
theorem isName_removePrefix {identity : IdentityHandle} (h : identity.val.toList.length ≤ 137) :
    isName (removePrefix "identity:" identity.val) = true := by
  have hpattern := identity.matchesPattern
  simp only [isIdentityHandle, hasLength, isTagged, Bool.and_eq_true, decide_eq_true_eq,
    beq_iff_eq] at hpattern
  obtain ⟨⟨hlower, -⟩, htag, htail⟩ := hpattern
  have hlength : "identity:".toList.length = 9 := rfl
  have hprefix : "identity:".toList <+: identity.val.toList := by
    rw [← htag]
    exact List.take_prefix _ _
  simp only [isName, hasLength, removePrefix, if_pos hprefix, String.toList_ofList, Bool.and_eq_true,
    decide_eq_true_eq]
  rw [List.length_drop]
  exact ⟨⟨by omega, by omega⟩, htail⟩

/-! ## The scope that grants one action -/

theorem topRate_positive : (0 : Float) < 1000 := by decide +kernel

theorem topRate_inRange : (1000 : Float) ≤ 1000 := by decide +kernel

theorem window_positive : (0 : Float) < 1 := by decide +kernel

theorem window_inRange : (1 : Float) ≤ 60 := by decide +kernel

/-- A context in which one kind of action is listed, one identity may act, one host is included, and all
limits are as high as they can be. -/
def grant (envelope : ActionEnvelope) (name : Name) (host : Host) (exclude : List TargetSelector)
    (hunique : exclude.Nodup) : Context where
  manifest :=
    { name := name
      spec :=
        { environmentMode := .blackBox
          targets :=
            { include_ := [⟨some host, [], [], nofun, nofun, Or.inl nofun, nofun, .nil, .nil⟩]
              exclude := exclude
              includeExplicit := nofun
              includeHosts := List.forall_mem_singleton.mpr nofun
              includeUnique := List.nodup_singleton _
              excludeUnique := hunique }
          identities := ⟨[name], nofun, List.nodup_singleton _⟩
          actions := ⟨[envelope.scopeAction], [], [], nofun, nofun, nofun, List.nodup_singleton _,
            .nil, .nil, Or.inl nofun⟩
          limits := ⟨1000, 1, 1, topRate_positive, topRate_inRange, Nat.zero_lt_one⟩
          validity := ⟨none, ⟨0⟩, nofun⟩ } }
  envelope := envelope
  budget := ⟨0, 1, 0, window_positive, window_inRange⟩
  evaluatedAt := ⟨0⟩
  constraints := ⟨120000, [.passive, .readOnly, .reversibleStateChange, .elevatedReversible], [],
    by decide, by decide, by decide, by decide, by decide⟩

/-- An envelope only carries resolved targets. -/
theorem exists_target {envelope : ActionEnvelope} {field : Option ActionTarget}
    (h : field ∈ targetField envelope.action) : ∃ target, field = some target := by
  have hresolved := envelope.resolved
  cases haction : envelope.action with
  | httpRequest request =>
      rw [haction] at h hresolved
      cases h
      exact Option.isSome_iff_exists.mp hresolved
  | browserNavigate target identity =>
      rw [haction] at h
      cases h
      exact ⟨target, rfl⟩
  | _ =>
      rw [haction] at h
      cases h

theorem permitted_grant {envelope : ActionEnvelope} {name : Name} {host : Host}
    {exclude : List TargetSelector} {hunique : exclude.Nodup} (h : Allowable envelope)
    (hname : ∀ identity, identityField envelope.action = some (some identity) →
      "identity:" ++ name.val = identity.val)
    (htarget : ∀ target, targetField envelope.action = some (some target) → target.host = host ∧
      ∀ selector ∈ exclude, ¬ Covers selector target.host target.port target.path.val.toList) :
    (grant envelope name host exclude hunique).Permitted where
  cleared :=
    { inWindow := ⟨nofun, le_refl _⟩
      listed := Or.inl List.mem_cons_self
      identity := by
        intro field hfield
        obtain ⟨identity, rfl, -⟩ := h.identity field hfield
        exact ⟨identity, rfl, name, List.mem_cons_self, Or.inr (hname identity hfield)⟩
      target := by
        intro field hfield
        obtain ⟨target, rfl⟩ := exists_target hfield
        obtain ⟨hhost, hnot⟩ := htarget target hfield
        refine ⟨target, rfl, ⟨_, List.mem_cons_self, ?_, nofun, nofun⟩, hnot⟩
        intro required hrequired
        cases hrequired
        exact hhost.symm
      requests := by
        have hcapacity : ((0 + 1 : Nat) : ℚ) ≤
            requestCapacity ⟨1000, 1, 1, by decide +kernel, by decide +kernel, by decide⟩
              ⟨0, 1, 0, by decide +kernel, by decide +kernel⟩ := by decide +kernel
        exact hcapacity
      writes := fun _ => le_refl 1
      timeout := h.timeout
      riskAllowed := by
        show envelope.riskClass ∈
          [RiskClass.passive, .readOnly, .reversibleStateChange, .elevatedReversible]
        cases envelope.riskClass <;> decide
      riskSuffices := h.risk }
  approved := nofun

/-! ## Concrete actions -/

namespace Demo

def alice : IdentityHandle := ⟨"identity:alice", by decide +kernel⟩

def aliceName : Name := ⟨"alice", by decide +kernel⟩

def host : Host := ⟨"app.test", by decide +kernel⟩

def target (path : PathPattern) : ActionTarget := ⟨.https, host, 443, path, by decide⟩

theorem isContractId_action : isContractId "action.one" = true := by decide +kernel

theorem isContractId_experiment : isContractId "experiment.one" = true := by decide +kernel

theorem isContractId_world : isContractId "world.one" = true := by decide +kernel

theorem isName_tester : isName "tester" = true := by decide +kernel

theorem isContractId_decision : isContractId "decision.one" = true := by decide +kernel

theorem isSha256Digest_idempotencyKey :
    isSha256Digest "sha256:0000000000000000000000000000000000000000000000000000000000000000" =
      true := by
  decide +kernel

theorem defaultTimeout_positive : 0 < 30000 := by decide

/-- An action of a tester; `resolved` and the other checks hold by evaluation. -/
def envelope (action : Action) (riskClass : RiskClass) (hresolved : action.isResolved = true)
    (helevated : riskClass ≠ .elevatedReversible)
    (hpassive : riskClass = .passive → action.mayBePassive = true) : ActionEnvelope where
  actionId := ⟨"action.one", isContractId_action⟩
  experimentId := ⟨"experiment.one", isContractId_experiment⟩
  worldId := ⟨"world.one", isContractId_world⟩
  scopeAction := action.scope
  action := action
  riskClass := riskClass
  idempotencyKey :=
    ⟨"sha256:0000000000000000000000000000000000000000000000000000000000000000",
      isSha256Digest_idempotencyKey⟩
  requestedBy := ⟨.human, ⟨"tester", isName_tester⟩, none⟩
  policyDecisionRef := ⟨"decision.one", isContractId_decision⟩
  timeoutPositive := defaultTimeout_positive
  scopeBound := rfl
  resolved := hresolved
  elevatedApproved h := absurd h helevated
  passiveReads := hpassive

/-- A navigation, which is passive. -/
def navigation (path : PathPattern) : ActionEnvelope :=
  envelope (.browserNavigate (target path) (some alice)) .passive rfl nofun fun _ => rfl

def buy : SelectorRef where
  val := "selector:buy"
  matchesPattern := by decide +kernel

theorem click_resolved : (Action.browserClick buy).isResolved = true := rfl

theorem click_not_elevated : RiskClass.reversibleStateChange ≠ .elevatedReversible := nofun

theorem click_not_passive : RiskClass.reversibleStateChange = .passive →
    (Action.browserClick buy).mayBePassive = true := fun h => by cases h

/-- A click, which is a write. -/
def click : ActionEnvelope :=
  envelope (.browserClick buy) .reversibleStateChange click_resolved click_not_elevated click_not_passive

end Demo

end StateWeaver.Policy
