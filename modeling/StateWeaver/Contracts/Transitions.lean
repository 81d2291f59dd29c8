import StateWeaver.Contracts.Facts

/-!
# What actions, conditions and transitions are written as

The fields of the models, by their names.
-/

namespace StateWeaver.Contracts

/-! ## Actions -/

def HttpMethod.value : HttpMethod → String
  | .get => "GET"
  | .head => "HEAD"
  | .options => "OPTIONS"
  | .post => "POST"
  | .put => "PUT"
  | .patch => "PATCH"
  | .delete => "DELETE"

def QueueOrder.value : QueueOrder → String
  | .front => "front"
  | .back => "back"
  | .before => "before"
  | .after => "after"

def Scheme.value : Scheme → String
  | .http => "http"
  | .https => "https"

/-- A constrained text. -/
def Constrained.toValue {pattern : String → Bool} (s : Constrained pattern) : Value := .scalar (.str s.val)

def ActionTarget.toValue (t : ActionTarget) : Value :=
  .mapping
    [(some "scheme", .scalar (.str t.scheme.value)),
      (some "host", t.host.toValue),
      (some "port", .scalar (.int t.port)),
      (some "path", t.path.toValue)]

def HttpParameter.toValue (p : HttpParameter) : Value :=
  .mapping [(some "name", p.name.toValue), (some "value", .scalar p.value.val)]

def HttpHeader.toValue (h : HttpHeader) : Value :=
  .mapping [(some "name", h.name.toValue), (some "value", .scalar (.str h.value))]

def HttpRequestAction.toValue (a : HttpRequestAction) : Value :=
  .mapping
    [(some "type", .scalar (.str "http.request")),
      (some "method", optional (fun m => .enum m.value) a.method),
      (some "target", optional ActionTarget.toValue a.target),
      (some "query", .list (a.query.map HttpParameter.toValue)),
      (some "headers", .list (a.headers.map HttpHeader.toValue)),
      (some "body_artifact", optional Constrained.toValue a.bodyArtifact),
      (some "identity_handle", optional Constrained.toValue a.identityHandle),
      (some "template_ref", optional Constrained.toValue a.templateRef),
      (some "expected_statuses", .list (a.expectedStatuses.map fun status : Nat => .scalar (.int status)))]

def QueueReorderAction.toValue (a : QueueReorderAction) : Value :=
  .mapping
    [(some "type", .scalar (.str "queue.reorder")),
      (some "queue_ref", a.queueRef.toValue),
      (some "job_ref", a.jobRef.toValue),
      (some "order", .enum a.order.value),
      (some "relative_to_job_ref", optional Constrained.toValue a.relativeToJobRef)]

def Action.toValue : Action → Value
  | .httpRequest action => action.toValue
  | .browserNavigate target identityHandle => .mapping
      [(some "type", .scalar (.str "browser.navigate")),
        (some "target", target.toValue),
        (some "identity_handle", optional Constrained.toValue identityHandle)]
  | .browserClick selectorRef => .mapping
      [(some "type", .scalar (.str "browser.click")), (some "selector_ref", selectorRef.toValue)]
  | .browserFill selectorRef valueArtifact isSecret => .mapping
      [(some "type", .scalar (.str "browser.fill")),
        (some "selector_ref", selectorRef.toValue),
        (some "value_artifact", valueArtifact.toValue),
        (some "is_secret", .scalar (.bool isSecret))]
  | .queueReorder action => action.toValue
  | .queueRelease queueRef jobRef => .mapping
      [(some "type", .scalar (.str "queue.release")),
        (some "queue_ref", queueRef.toValue),
        (some "job_ref", jobRef.toValue)]
  | .timeAdvance action => .mapping
      [(some "type", .scalar (.str "time.advance")),
        (some "milliseconds", .scalar (.int action.milliseconds))]
  | .timeSet epoch => .mapping
      [(some "type", .scalar (.str "time.set")), (some "epoch", .datetime (some epoch))]
  | .sessionRotate identityHandle => .mapping
      [(some "type", .scalar (.str "session.rotate")), (some "identity_handle", identityHandle.toValue)]

/-! ## Conditions and effects -/

def ComparisonOperator.value : ComparisonOperator → String
  | .eq => "eq"
  | .ne => "ne"
  | .lt => "lt"
  | .le => "le"
  | .gt => "gt"
  | .ge => "ge"
  | .contains => "contains"
  | .notContains => "not_contains"
  | .exists_ => "exists"
  | .notExists => "not_exists"

def EffectOperation.value : EffectOperation → String
  | .set => "set"
  | .add => "add"
  | .remove => "remove"
  | .increment => "increment"
  | .decrement => "decrement"

def StateCondition.toValue (c : StateCondition) : Value :=
  .mapping
    [(some "path", c.path.toValue),
      (some "operator", .enum c.operator.value),
      (some "value", .scalar c.value.val),
      (some "reference", optional Constrained.toValue c.reference)]

def StateEffect.toValue (e : StateEffect) : Value :=
  .mapping
    [(some "path", e.path.toValue),
      (some "operation", .enum e.operation.value),
      (some "value", .scalar e.value.val)]

/-! ## Transitions -/

def FidelityLevel.value : FidelityLevel → String
  | .exact => "exact"
  | .observed => "observed"
  | .partial_ => "partial"
  | .inferred => "inferred"
  | .unknown => "unknown"

def FidelityProfile.toValue (f : FidelityProfile) : Value :=
  .mapping
    [(some "code", .enum f.code.value),
      (some "identity", .enum f.identity.value),
      (some "database", .enum f.database.value),
      (some "cache", .enum f.cache.value),
      (some "queue", .enum f.queue.value),
      (some "timing", .enum f.timing.value)]

def TransitionFragment.toValue (t : TransitionFragment) : Value :=
  .mapping
    [(some "schema_version", .scalar (.str "1.0")),
      (some "transition_id", t.transitionId.toValue),
      (some "name", .scalar (.str t.name)),
      (some "source", .enum t.source.value),
      (some "preconditions", .list (t.preconditions.map StateCondition.toValue)),
      (some "action", t.action.toValue),
      (some "effects", .list (t.effects.map StateEffect.toValue)),
      (some "observables", .list (t.observables.map StateCondition.toValue)),
      (some "evidence_ids", identifiers t.evidenceIds),
      (some "fidelity", t.fidelity.toValue),
      (some "consistent_replays", .scalar (.int t.consistentReplays))]

end StateWeaver.Contracts
