import StateWeaver.Contracts.Alike
import StateWeaver.Contracts.Transitions

/-!
# What envelopes are written as

An envelope is written with all of its fields, and its action with its type. Actions and envelopes that are
written alike are equal.
-/

namespace StateWeaver.Contracts

/-! ## Envelopes -/

def ScopeAction.value : ScopeAction → String
  | .passiveObservation => "passive_observation"
  | .httpRequest => "http_request"
  | .browserInteraction => "browser_interaction"
  | .testAccountWrite => "test_account_write"
  | .sessionRotation => "session_rotation"
  | .cacheDelay => "cache_delay"
  | .queueReorder => "queue_reorder"
  | .controlledTime => "controlled_time"
  | .concurrencyTest => "concurrency_test"
  | .fileUploadTest => "file_upload_test"
  | .denialOfService => "denial_of_service"
  | .persistence => "persistence"
  | .credentialExfiltration => "credential_exfiltration"
  | .destructiveDataDelete => "destructive_data_delete"

def RiskClass.value : RiskClass → String
  | .passive => "passive"
  | .readOnly => "read_only"
  | .reversibleStateChange => "reversible_state_change"
  | .elevatedReversible => "elevated_reversible"

def ActionGuard.toValue (g : ActionGuard) : Value :=
  .mapping [(some "path", g.path.toValue), (some "expected", .scalar g.expected.val)]

def ExpectedEffect.toValue (e : ExpectedEffect) : Value :=
  .mapping
    [(some "path", e.path.toValue),
      (some "operation", .enum e.operation.value),
      (some "value", .scalar e.value.val)]

def ActionEnvelope.toValue (e : ActionEnvelope) : Value :=
  .mapping
    [(some "schema_version", .scalar (.str "1.0")),
      (some "action_id", e.actionId.toValue),
      (some "experiment_id", e.experimentId.toValue),
      (some "world_id", e.worldId.toValue),
      (some "scope_action", .enum e.scopeAction.value),
      (some "action", e.action.toValue),
      (some "preconditions", .list (e.preconditions.map ActionGuard.toValue)),
      (some "expected_effects", .list (e.expectedEffects.map ExpectedEffect.toValue)),
      (some "risk_class", .enum e.riskClass.value),
      (some "idempotency_key", e.idempotencyKey.toValue),
      (some "requested_by", e.requestedBy.toValue),
      (some "policy_decision_ref", e.policyDecisionRef.toValue),
      (some "approval_ref", optional Constrained.toValue e.approvalRef),
      (some "sequence", .scalar (.int e.sequence)),
      (some "timeout_ms", .scalar (.int e.timeoutMs))]

/-- The discriminator of an action. -/
def Action.type : Action → String
  | .httpRequest _ => "http.request"
  | .browserNavigate _ _ => "browser.navigate"
  | .browserClick _ => "browser.click"
  | .browserFill _ _ _ => "browser.fill"
  | .queueReorder _ => "queue.reorder"
  | .queueRelease _ _ => "queue.release"
  | .timeAdvance _ => "time.advance"
  | .timeSet _ => "time.set"
  | .sessionRotate _ => "session.rotate"

/-! ## Parts that are written alike -/

theorem HttpMethod.value_inj {a b : HttpMethod} (h : a.value = b.value) : a = b := by
  cases a <;> cases b <;> first | rfl | exact absurd h (by decide)

theorem QueueOrder.value_inj {a b : QueueOrder} (h : a.value = b.value) : a = b := by
  cases a <;> cases b <;> first | rfl | exact absurd h (by decide)

theorem Scheme.value_inj {a b : Scheme} (h : a.value = b.value) : a = b := by
  cases a <;> cases b <;> first | rfl | exact absurd h (by decide)

theorem RiskClass.value_inj {a b : RiskClass} (h : a.value = b.value) : a = b := by
  cases a <;> cases b <;> first | rfl | exact absurd h (by decide)

theorem EffectOperation.value_inj {a b : EffectOperation} (h : a.value = b.value) : a = b := by
  cases a <;> cases b <;> first | rfl | exact absurd h (by decide)

theorem ScopeAction.value_inj {a b : ScopeAction} (h : a.value = b.value) : a = b := by
  have hall : ([.passiveObservation, .httpRequest, .browserInteraction, .testAccountWrite, .sessionRotation,
      .cacheDelay, .queueReorder, .controlledTime, .concurrencyTest, .fileUploadTest, .denialOfService,
      .persistence, .credentialExfiltration, .destructiveDataDelete].map ScopeAction.value).Nodup := by
    decide +kernel
  refine List.inj_on_of_nodup_map hall ?_ ?_ h
  · cases a <;> decide
  · cases b <;> decide

theorem neverNull_text (s : String) : NeverNull (.scalar (.str s)) := by
  intro j hj
  cases hj
  exact nofun

theorem neverNull_enum (value : String) : NeverNull (.enum value) := by
  intro j hj
  cases hj
  exact nofun

theorem optionalConstrained_inj {pattern : String → Bool} {a b : Option (Constrained pattern)}
    (h : Alike (optional Constrained.toValue a) (optional Constrained.toValue b)) : a = b := by
  have hnull : ∀ s : Constrained pattern, NeverNull s.toValue := fun s => neverNull_text s.val
  exact Alike.optional_inj hnull text_inj h

theorem nat_inj {m n : Nat} (h : Alike (.scalar (.int m)) (.scalar (.int n))) : m = n :=
  Int.ofNat.inj (Py.Scalar.int.inj h.scalar)

theorem naturals_inj {l l' : List Nat} (h : Alike (.list (l.map fun n : Nat => .scalar (.int n)))
    (.list (l'.map fun n : Nat => .scalar (.int n)))) : l = l' :=
  Alike.list_inj (fun h => nat_inj h) h

theorem RequestedBy.eq_of_alike {a b : RequestedBy} (h : Alike a.toValue b.toValue) : a = b := by
  have htype := RequesterType.value_inj (h.entry 0 rfl rfl).enum
  have hrole := text_inj (h.entry 1 rfl rfl)
  have hactor := optionalText_inj (h.entry 2 rfl rfl).scalar
  cases a
  cases b
  exact (RequestedBy.mk.injEq ..).mpr ⟨htype, hrole, hactor⟩

theorem ActionGuard.eq_of_alike {a b : ActionGuard} (h : Alike a.toValue b.toValue) : a = b := by
  have hpath := text_inj (h.entry 0 rfl rfl)
  have hexpected := JsonScalar.eq_of_val (h.entry 1 rfl rfl).scalar
  cases a
  cases b
  exact (ActionGuard.mk.injEq ..).mpr ⟨hpath, hexpected⟩

theorem ExpectedEffect.eq_of_alike {a b : ExpectedEffect} (h : Alike a.toValue b.toValue) : a = b := by
  have hpath := text_inj (h.entry 0 rfl rfl)
  have hoperation := EffectOperation.value_inj (h.entry 1 rfl rfl).enum
  have hvalue := JsonScalar.eq_of_val (h.entry 2 rfl rfl).scalar
  cases a
  cases b
  exact (ExpectedEffect.mk.injEq ..).mpr ⟨hpath, hoperation, hvalue⟩

/-! ## Actions that are written alike -/

theorem ActionTarget.eq_of_alike {a b : ActionTarget} (h : Alike a.toValue b.toValue) : a = b := by
  have hscheme := Scheme.value_inj (Py.Scalar.str.inj (h.entry 0 rfl rfl).scalar)
  have hhost := text_inj (h.entry 1 rfl rfl)
  have hport := nat_inj (h.entry 2 rfl rfl)
  have hpath := text_inj (h.entry 3 rfl rfl)
  cases a
  cases b
  exact (ActionTarget.mk.injEq ..).mpr ⟨hscheme, hhost, hport, hpath⟩

theorem HttpParameter.eq_of_alike {a b : HttpParameter} (h : Alike a.toValue b.toValue) : a = b := by
  have hname := text_inj (h.entry 0 rfl rfl)
  have hvalue := JsonScalar.eq_of_val (h.entry 1 rfl rfl).scalar
  cases a
  cases b
  exact (HttpParameter.mk.injEq ..).mpr ⟨hname, hvalue⟩

theorem HttpHeader.eq_of_alike {a b : HttpHeader} (h : Alike a.toValue b.toValue) : a = b := by
  have hname := text_inj (h.entry 0 rfl rfl)
  have hvalue := Py.Scalar.str.inj (h.entry 1 rfl rfl).scalar
  cases a
  cases b
  exact (HttpHeader.mk.injEq ..).mpr ⟨hname, hvalue⟩

theorem HttpRequestAction.eq_of_alike {a b : HttpRequestAction} (h : Alike a.toValue b.toValue) : a = b := by
  have hmethod := Alike.optional_inj (fun m : HttpMethod => neverNull_enum m.value)
    (fun h => HttpMethod.value_inj h.enum) (h.entry 1 rfl rfl)
  have htarget := Alike.optional_inj (fun _ => neverNull_mapping _) ActionTarget.eq_of_alike
    (h.entry 2 rfl rfl)
  have hquery := Alike.list_inj HttpParameter.eq_of_alike (h.entry 3 rfl rfl)
  have hheaders := Alike.list_inj HttpHeader.eq_of_alike (h.entry 4 rfl rfl)
  have hbody := optionalConstrained_inj (h.entry 5 rfl rfl)
  have hidentity := optionalConstrained_inj (h.entry 6 rfl rfl)
  have htemplate := optionalConstrained_inj (h.entry 7 rfl rfl)
  have hstatuses := naturals_inj (h.entry 8 rfl rfl)
  cases a
  cases b
  exact (HttpRequestAction.mk.injEq ..).mpr
    ⟨hmethod, htarget, hquery, hheaders, hbody, hidentity, htemplate, hstatuses⟩

theorem QueueReorderAction.eq_of_alike {a b : QueueReorderAction} (h : Alike a.toValue b.toValue) :
    a = b := by
  have hqueue := text_inj (h.entry 1 rfl rfl)
  have hjob := text_inj (h.entry 2 rfl rfl)
  have horder := QueueOrder.value_inj (h.entry 3 rfl rfl).enum
  have hrelative := optionalConstrained_inj (h.entry 4 rfl rfl)
  cases a
  cases b
  exact (QueueReorderAction.mk.injEq ..).mpr ⟨hqueue, hjob, horder, hrelative⟩

theorem Action.exists_toValue (a : Action) :
    ∃ entries, a.toValue = .mapping ((some "type", .scalar (.str a.type)) :: entries) := by
  cases a <;> exact ⟨_, rfl⟩

theorem Action.type_of_alike {a b : Action} (h : Alike a.toValue b.toValue) : a.type = b.type := by
  obtain ⟨entries, ha⟩ := a.exists_toValue
  obtain ⟨entries', hb⟩ := b.exists_toValue
  rw [ha, hb] at h
  exact Py.Scalar.str.inj (h.entry 0 rfl rfl).scalar

theorem Action.eq_of_alike {a b : Action} (h : Alike a.toValue b.toValue) : a = b := by
  have htype := Action.type_of_alike h
  cases a <;> cases b <;> first | exact absurd htype (by rw [type, type]; decide) | skip
  case httpRequest.httpRequest a b => exact congrArg _ (HttpRequestAction.eq_of_alike h)
  case browserNavigate.browserNavigate target identity target' identity' =>
    rw [ActionTarget.eq_of_alike (h.entry 1 rfl rfl), optionalConstrained_inj (h.entry 2 rfl rfl)]
  case browserClick.browserClick selector selector' => rw [text_inj (h.entry 1 rfl rfl)]
  case browserFill.browserFill selector artifact secret selector' artifact' secret' =>
    rw [text_inj (h.entry 1 rfl rfl), text_inj (h.entry 2 rfl rfl),
      Py.Scalar.bool.inj (h.entry 3 rfl rfl).scalar]
  case queueReorder.queueReorder a b => exact congrArg _ (QueueReorderAction.eq_of_alike h)
  case queueRelease.queueRelease queue job queue' job' =>
    rw [text_inj (h.entry 1 rfl rfl), text_inj (h.entry 2 rfl rfl)]
  case timeAdvance.timeAdvance a b =>
    have hspan := nat_inj (h.entry 1 rfl rfl)
    cases a
    cases b
    exact congrArg _ ((TimeAdvanceAction.mk.injEq ..).mpr hspan)
  case timeSet.timeSet epoch epoch' => rw [(h.entry 1 rfl rfl).datetime]
  case sessionRotate.sessionRotate identity identity' => rw [text_inj (h.entry 1 rfl rfl)]

theorem ActionEnvelope.eq_of_alike {a b : ActionEnvelope} (h : Alike a.toValue b.toValue) : a = b := by
  have hid := text_inj (h.entry 1 rfl rfl)
  have hexperiment := text_inj (h.entry 2 rfl rfl)
  have hworld := text_inj (h.entry 3 rfl rfl)
  have hscope := ScopeAction.value_inj (h.entry 4 rfl rfl).enum
  have haction := Action.eq_of_alike (h.entry 5 rfl rfl)
  have hguards := Alike.list_inj ActionGuard.eq_of_alike (h.entry 6 rfl rfl)
  have heffects := Alike.list_inj ExpectedEffect.eq_of_alike (h.entry 7 rfl rfl)
  have hrisk := RiskClass.value_inj (h.entry 8 rfl rfl).enum
  have hkey := text_inj (h.entry 9 rfl rfl)
  have hrequested := RequestedBy.eq_of_alike (h.entry 10 rfl rfl)
  have hdecision := text_inj (h.entry 11 rfl rfl)
  have happroval := optionalConstrained_inj (h.entry 12 rfl rfl)
  have hsequence := nat_inj (h.entry 13 rfl rfl)
  have htimeout := nat_inj (h.entry 14 rfl rfl)
  cases a
  cases b
  exact (ActionEnvelope.mk.injEq ..).mpr ⟨hid, hexperiment, hworld, hscope, haction, hguards, heffects, hrisk,
    hkey, hrequested, hdecision, happroval, hsequence, htimeout⟩

end StateWeaver.Contracts
