import Mathlib
import StateWeaver.Policy.Grants

/-!
# Tightening a policy

A change that takes something away from a scope, from the server's ceilings or from the budget never
turns a request that is not allowed into one that is. One change is a `Tightening`; whatever the
tighter context permits, the looser one permits (`Tighter.permitted`).
-/

namespace StateWeaver.Policy

open Contracts

/-! ## Changes -/

/-- One change of a scope that grants nothing. Lists are compared up to their order, which the
manifest normalizes. -/
inductive ScopeTightening (s : ScopeSpec) : ScopeSpec → Prop
  | addExclude {targets : ScopeTargets} (selector : TargetSelector)
      (hinclude : targets.include_ = s.targets.include_)
      (hexclude : targets.exclude.Perm (selector :: s.targets.exclude)) :
      ScopeTightening s { s with targets := targets }
  | removeInclude {targets : ScopeTargets} (selector : TargetSelector)
      (hinclude : s.targets.include_.Perm (selector :: targets.include_))
      (hexclude : targets.exclude = s.targets.exclude) :
      ScopeTightening s { s with targets := targets }
  | removeIdentity {identities : ScopeIdentities} (name : Name)
      (hallowed : s.identities.allowed.Perm (name :: identities.allowed)) :
      ScopeTightening s { s with identities := identities }
  | allowToApproval {actions : ScopeActions} (action : ScopeAction)
      (hallow : s.actions.allow.Perm (action :: actions.allow))
      (happroval : actions.requireApproval.Perm (action :: s.actions.requireApproval))
      (hdeny : actions.deny = s.actions.deny) : ScopeTightening s { s with actions := actions }
  | allowToDeny {actions : ScopeActions} (action : ScopeAction)
      (hallow : s.actions.allow.Perm (action :: actions.allow))
      (happroval : actions.requireApproval = s.actions.requireApproval)
      (hdeny : actions.deny.Perm (action :: s.actions.deny)) :
      ScopeTightening s { s with actions := actions }
  | approvalToDeny {actions : ScopeActions} (action : ScopeAction)
      (hallow : actions.allow = s.actions.allow)
      (happroval : s.actions.requireApproval.Perm (action :: actions.requireApproval))
      (hdeny : actions.deny.Perm (action :: s.actions.deny)) :
      ScopeTightening s { s with actions := actions }
  | dropAction {actions : ScopeActions} (action : ScopeAction)
      (hallow : actions.allow.Perm (s.actions.allow.erase action))
      (happroval : actions.requireApproval.Perm (s.actions.requireApproval.erase action))
      (hdeny : actions.deny.Perm (s.actions.deny.erase action)) :
      ScopeTightening s { s with actions := actions }
  | lowerRate {limits : ScopeLimits}
      (hrate : limits.requestsPerSecond ≤ s.limits.requestsPerSecond)
      (hwrites : limits.maxWriteRequests = s.limits.maxWriteRequests) :
      ScopeTightening s { s with limits := limits }
  | lowerWrites {limits : ScopeLimits}
      (hrate : limits.requestsPerSecond = s.limits.requestsPerSecond)
      (hwrites : limits.maxWriteRequests ≤ s.limits.maxWriteRequests) :
      ScopeTightening s { s with limits := limits }
  | shrinkWindow {validity : ScopeValidity}
      (hstart : ∀ start ∈ s.validity.notBefore, ∃ start' ∈ validity.notBefore, start ≤ start')
      (hend : validity.expiresAt ≤ s.validity.expiresAt) :
      ScopeTightening s { s with validity := validity }

/-- One change of a policy context that grants nothing, for the same action at the same time. -/
inductive Tightening (c : Context) : Context → Prop
  | scope {spec : ScopeSpec} (h : ScopeTightening c.manifest.spec spec) :
      Tightening c { c with manifest := { c.manifest with spec := spec } }
  | removeRisk {constraints : EvaluationConstraints} (risk : RiskClass)
      (hallowed : c.constraints.allowedRiskClasses.Perm (risk :: constraints.allowedRiskClasses))
      (happroval : constraints.approvalRequiredRiskClasses.Perm
        (c.constraints.approvalRequiredRiskClasses.erase risk))
      (htimeout : constraints.maxTimeoutMs = c.constraints.maxTimeoutMs) :
      Tightening c { c with constraints := constraints }
  | requireApproval {constraints : EvaluationConstraints} (risk : RiskClass)
      (hallowed : constraints.allowedRiskClasses = c.constraints.allowedRiskClasses)
      (happroval : constraints.approvalRequiredRiskClasses.Perm
        (risk :: c.constraints.approvalRequiredRiskClasses))
      (htimeout : constraints.maxTimeoutMs = c.constraints.maxTimeoutMs) :
      Tightening c { c with constraints := constraints }
  | lowerTimeout {constraints : EvaluationConstraints}
      (hallowed : constraints.allowedRiskClasses = c.constraints.allowedRiskClasses)
      (happroval :
        constraints.approvalRequiredRiskClasses = c.constraints.approvalRequiredRiskClasses)
      (htimeout : constraints.maxTimeoutMs ≤ c.constraints.maxTimeoutMs) :
      Tightening c { c with constraints := constraints }
  | raiseCounters {budget : BudgetSnapshot}
      (hwindow : budget.requestWindowSeconds = c.budget.requestWindowSeconds)
      (hrequests : c.budget.requestsInWindow ≤ budget.requestsInWindow)
      (hwrites : c.budget.writeRequestsUsed ≤ budget.writeRequestsUsed) :
      Tightening c { c with budget := budget }

/-! ## The order of contexts -/

/-- A context that grants at most as much as another one. -/
structure Tighter (c c' : Context) : Prop where
  envelope : c'.envelope = c.envelope
  evaluatedAt : c'.evaluatedAt = c.evaluatedAt
  starts : ∀ start ∈ c.manifest.spec.validity.notBefore,
    ∃ start' ∈ c'.manifest.spec.validity.notBefore, start ≤ start'
  ends : c'.manifest.spec.validity.expiresAt ≤ c.manifest.spec.validity.expiresAt
  allow : c'.manifest.spec.actions.allow ⊆ c.manifest.spec.actions.allow
  requireApproval : ∀ action ∈ c'.manifest.spec.actions.requireApproval,
    action ∈ c.manifest.spec.actions.allow ∨ action ∈ c.manifest.spec.actions.requireApproval
  identities : c'.manifest.spec.identities.allowed ⊆ c.manifest.spec.identities.allowed
  include_ : c'.manifest.spec.targets.include_ ⊆ c.manifest.spec.targets.include_
  exclude : c.manifest.spec.targets.exclude ⊆ c'.manifest.spec.targets.exclude
  capacity : requestCapacity c'.manifest.spec.limits c'.budget ≤
    requestCapacity c.manifest.spec.limits c.budget
  requests : c.budget.requestsInWindow ≤ c'.budget.requestsInWindow
  maxWrites : c'.manifest.spec.limits.maxWriteRequests ≤ c.manifest.spec.limits.maxWriteRequests
  writes : c.budget.writeRequestsUsed ≤ c'.budget.writeRequestsUsed
  timeout : c'.constraints.maxTimeoutMs ≤ c.constraints.maxTimeoutMs
  risks : c'.constraints.allowedRiskClasses ⊆ c.constraints.allowedRiskClasses
  approvalRisks : ∀ risk ∈ c.constraints.approvalRequiredRiskClasses,
    risk ∈ c'.constraints.allowedRiskClasses → risk ∈ c'.constraints.approvalRequiredRiskClasses

/-- What a tighter context permits is permitted. -/
theorem Tighter.permitted {c c' : Context} (h : Tighter c c') (hp : c'.Permitted) : c.Permitted := by
  obtain ⟨hcleared, happroved⟩ := hp
  have hlisted := hcleared.listed
  rw [h.envelope] at hlisted
  refine ⟨⟨⟨?_, ?_⟩, ?_, ?_, ?_, ?_, ?_, ?_, ?_, ?_⟩, ?_⟩
  · intro start hstart
    obtain ⟨start', hstart', hle⟩ := h.starts start hstart
    rw [← h.evaluatedAt]
    exact le_trans hle (hcleared.inWindow.1 start' hstart')
  · rw [← h.evaluatedAt]
    exact le_trans hcleared.inWindow.2 h.ends
  · rcases hlisted with hallow | happroval
    · exact Or.inl (h.allow hallow)
    · exact h.requireApproval _ happroval
  · intro field hfield
    rw [← h.envelope] at hfield
    obtain ⟨identity, hidentity, name, hname, hsame⟩ := hcleared.identity field hfield
    exact ⟨identity, hidentity, name, h.identities hname, hsame⟩
  · intro field hfield
    rw [← h.envelope] at hfield
    obtain ⟨target, htarget, ⟨selector, hselector, hcovers⟩, hnot⟩ := hcleared.target field hfield
    exact ⟨target, htarget, ⟨selector, h.include_ hselector, hcovers⟩,
      fun selector hselector => hnot selector (h.exclude hselector)⟩
  · refine le_trans ?_ (le_trans hcleared.requests h.capacity)
    exact_mod_cast Nat.add_le_add_right h.requests 1
  · intro hwrite
    rw [← h.envelope] at hwrite
    have hle := hcleared.writes hwrite
    have hused := h.writes
    have hmax := h.maxWrites
    omega
  · rw [← h.envelope]
    exact le_trans hcleared.timeout h.timeout
  · rw [← h.envelope]
    exact h.risks hcleared.riskAllowed
  · rw [← h.envelope]
    exact hcleared.riskSuffices
  · intro hneeded
    rw [← h.envelope] at hneeded ⊢
    refine happroved ?_
    rcases hneeded with haction | hrisk
    · -- The action is still listed, and not among those that need no approval.
      left
      rw [h.envelope] at haction ⊢
      refine hlisted.resolve_left fun hallow => ?_
      exact c.manifest.spec.actions.allowNotApproval _ (h.allow hallow) haction
    · exact Or.inr (h.approvalRisks _ hrisk hcleared.riskAllowed)

/-! ## Every change leads to a tighter context -/

theorem decimal_nonneg {x : Float} (hpos : 0 < x) (hfinite : x.isFinite = true) :
    0 ≤ Py.decimal x := by
  obtain ⟨mantissa, exponent, h, hunpack⟩ := Py.exists_magnitude hpos hfinite
  rw [Py.decimal, Py.magnitude?_of_unpack hunpack, Py.isNegative, hunpack]
  exact mul_nonneg (Nat.cast_nonneg _) (le_of_lt (Decimal.zpow_ten_pos _))

/-- A lower rate leaves room for at most as many requests. -/
theorem requestCapacity_mono {limits limits' : ScopeLimits} (budget : BudgetSnapshot)
    (h : limits'.requestsPerSecond ≤ limits.requestsPerSecond) :
    requestCapacity limits' budget ≤ requestCapacity limits budget := by
  have hthousand : (1000 : Float).isFinite = true := by decide +kernel
  have hsixty : (60 : Float).isFinite = true := by decide +kernel
  refine Decimal.roundTo_mono (by norm_num) (mul_le_mul_of_nonneg_right ?_ ?_)
  · exact Py.decimal_mono limits'.requestsPositive
      (Py.isFinite_of_le limits'.requestsPositive limits'.requestsAtMost hthousand)
      limits.requestsPositive
      (Py.isFinite_of_le limits.requestsPositive limits.requestsAtMost hthousand) h
  · exact decimal_nonneg budget.windowPositive
      (Py.isFinite_of_le budget.windowPositive budget.windowAtMost hsixty)

theorem Tighter.refl (c : Context) : Tighter c c where
  envelope := rfl
  evaluatedAt := rfl
  starts start hstart := ⟨start, hstart, le_refl start⟩
  ends := le_refl _
  allow := List.Subset.refl _
  requireApproval _ := Or.inr
  identities := List.Subset.refl _
  include_ := List.Subset.refl _
  exclude := List.Subset.refl _
  capacity := le_refl _
  requests := le_refl _
  maxWrites := le_refl _
  writes := le_refl _
  timeout := le_refl _
  risks := List.Subset.refl _
  approvalRisks _ h _ := h

/-- What is left of a list after taking one element out was in it. -/
theorem subset_of_perm_cons {α : Type*} {l l' : List α} {a : α} (h : l.Perm (a :: l')) : l' ⊆ l :=
  fun _ hb => h.symm.subset (List.mem_cons_of_mem a hb)

theorem tighter_of_scope {c : Context} {spec : ScopeSpec}
    (h : ScopeTightening c.manifest.spec spec) :
    Tighter c { c with manifest := { c.manifest with spec := spec } } := by
  have hrefl := Tighter.refl c
  cases h with
  | addExclude selector hinclude hexclude =>
      exact { hrefl with
        include_ := fun s hs => hinclude ▸ hs
        exclude := subset_of_perm_cons hexclude }
  | removeInclude selector hinclude hexclude =>
      exact { hrefl with
        include_ := subset_of_perm_cons hinclude
        exclude := fun s hs => hexclude.symm ▸ hs }
  | removeIdentity name hallowed => exact { hrefl with identities := subset_of_perm_cons hallowed }
  | allowToApproval action hallow happroval hdeny =>
      refine { hrefl with
        allow := subset_of_perm_cons hallow
        requireApproval := fun action' h => ?_ }
      rcases List.mem_cons.mp (happroval.subset h) with rfl | h
      · exact Or.inl (hallow.symm.subset List.mem_cons_self)
      · exact Or.inr h
  | allowToDeny action hallow happroval hdeny =>
      exact { hrefl with
        allow := subset_of_perm_cons hallow
        requireApproval := fun action' h => Or.inr (happroval ▸ h) }
  | approvalToDeny action hallow happroval hdeny =>
      exact { hrefl with
        allow := fun action' h => hallow ▸ h
        requireApproval := fun action' h => Or.inr (subset_of_perm_cons happroval h) }
  | dropAction action hallow happroval hdeny =>
      exact { hrefl with
        allow := fun action' h => List.mem_of_mem_erase (hallow.subset h)
        requireApproval := fun action' h =>
          Or.inr (List.mem_of_mem_erase (happroval.subset h)) }
  | lowerRate hrate hwrites =>
      exact { hrefl with
        capacity := requestCapacity_mono c.budget hrate
        maxWrites := le_of_eq hwrites }
  | lowerWrites hrate hwrites =>
      refine { hrefl with
        capacity := le_of_eq ?_
        maxWrites := hwrites }
      rw [requestCapacity, requestCapacity, hrate]
  | shrinkWindow hstart hend => exact { hrefl with starts := hstart, ends := hend }

theorem tighter_of_tightening {c c' : Context} (h : Tightening c c') : Tighter c c' := by
  have hrefl := Tighter.refl c
  cases h with
  | scope h => exact tighter_of_scope h
  | removeRisk risk hallowed happroval htimeout =>
      refine { hrefl with
        timeout := le_of_eq htimeout
        risks := subset_of_perm_cons hallowed
        approvalRisks := fun risk' hrisk' hkept => ?_ }
      refine happroval.symm.subset ((List.mem_erase_of_ne ?_).mpr hrisk')
      rintro rfl
      have hunique := hallowed.nodup_iff.mp c.constraints.allowedUnique
      exact (List.nodup_cons.mp hunique).1 hkept
  | requireApproval risk hallowed happroval htimeout =>
      exact { hrefl with
        timeout := le_of_eq htimeout
        risks := fun risk' h => hallowed ▸ h
        approvalRisks := fun risk' h _ => subset_of_perm_cons happroval h }
  | lowerTimeout hallowed happroval htimeout =>
      exact { hrefl with
        timeout := htimeout
        risks := fun risk' h => hallowed ▸ h
        approvalRisks := fun risk' h _ => happroval.symm ▸ h }
  | raiseCounters hwindow hrequests hwrites =>
      refine { hrefl with
        capacity := le_of_eq ?_
        requests := hrequests
        writes := hwrites }
      rw [requestCapacity, requestCapacity, hwindow]

/-- No sequence of changes turns a request that is not allowed into one that is. -/
theorem not_allowed_of_tightenings {c c' : Context} (h : Relation.ReflTransGen Tightening c c')
    (hdenied : (evaluate (some c.request)).outcome ≠ .allow) :
    (evaluate (some c'.request)).outcome ≠ .allow := by
  induction h with
  | refl => exact hdenied
  | tail _ hstep ih =>
      intro hallowed
      refine ih ((Context.outcome_allow_iff _).mpr ?_)
      exact (tighter_of_tightening hstep).permitted ((Context.outcome_allow_iff _).mp hallowed)

/-! ## A denied request -/

namespace Demo

def bobName : Name := ⟨"bob", by decide +kernel⟩

theorem isPathPattern_root : isPathPattern "/" = true := by decide +kernel

theorem nothing_excluded : ([] : List TargetSelector).Nodup := List.nodup_nil

/-- Alice is not listed. -/
def unlisted : Context := grant (navigation ⟨"/", isPathPattern_root⟩) bobName host [] nothing_excluded

def lowerTimeout (constraints : EvaluationConstraints) : EvaluationConstraints :=
  { constraints with
    maxTimeoutMs := min constraints.maxTimeoutMs 30000
    timeoutInRange := ⟨lt_min constraints.timeoutInRange.1 (by decide),
      le_trans (min_le_left _ _) constraints.timeoutInRange.2⟩ }

theorem not_allowed_unlisted :
    (evaluate (some
      { unlisted with constraints := lowerTimeout unlisted.constraints : Context }.request)).outcome ≠
        .allow :=
  not_allowed_of_tightenings (.single (.lowerTimeout rfl rfl (min_le_left _ _))) (by decide +kernel)

end Demo

end StateWeaver.Policy
