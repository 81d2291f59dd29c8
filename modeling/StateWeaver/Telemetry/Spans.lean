import Mathlib
import StateWeaver.Contracts.Digests
import StateWeaver.Contracts.Events
import StateWeaver.Lib.Worklist

/-!
# Spans of a trace

A trace is accepted if its spans hang together: the loops over them look for one root, for cycles among
the parents, for spans that the root does not reach and for spans that end after their parents. The accepted
spans are ordered by their start.
-/

namespace StateWeaver.Telemetry

open Contracts

/-! ## Spans -/

def maxUnixNano : Nat := 253402300799999999999

def maxSpans : Nat := 4096

def maxAttributes : Nat := 256

/-- The pattern of `SpanId`. -/
def isSpanId (s : String) : Bool := s.toList.length == 16 && s.toList.all Char.isLowerHex

abbrev SpanId := Constrained isSpanId

/-- The pattern of `AttributeKey`. -/
def isAttributeKey (s : String) : Bool :=
  hasLength 1 256 s && headTail Char.isAlpha (fun c => c.isAlphanum || ['_', '.', '-'].contains c) s.toList

/-- A name of a span: between 1 and 256 characters, without blanks around them. -/
def isSpanName (s : String) : Bool := hasLength 1 256 s && Constrained.strip s == s

inductive SpanKind where
  | unspecified | internal | server | client | producer | consumer
  deriving DecidableEq

def SpanKind.value : SpanKind → String
  | .unspecified => "SPAN_KIND_UNSPECIFIED"
  | .internal => "SPAN_KIND_INTERNAL"
  | .server => "SPAN_KIND_SERVER"
  | .client => "SPAN_KIND_CLIENT"
  | .producer => "SPAN_KIND_PRODUCER"
  | .consumer => "SPAN_KIND_CONSUMER"

structure SpanAttribute where
  key : Constrained isAttributeKey
  value : JsonScalar
  bounded : ∀ s, value.val = .str s → s.toList.length ≤ 4096
  deriving DecidableEq

/-- The fields of a span. -/
structure SpanFields where
  traceId : TraceId
  spanId : SpanId
  parentSpanId : Option SpanId
  name : Constrained isSpanName
  kind : SpanKind
  startTimeUnixNano : Nat
  endTimeUnixNano : Nat
  attributes : List SpanAttribute
  deriving DecidableEq

/-- `set(text) == {"0"}`. -/
def isAllZero (s : String) : Bool := s.toList ≠ [] ∧ s.toList.all (· == '0')

/-- The validation of a span: its times are bounded, its attributes are few, distinct and put in order, and
its identifiers and times fit. -/
def SpanFields.validate (span : SpanFields) : Except String SpanFields := do
  Imp.require (span.startTimeUnixNano ≤ maxUnixNano)
    "Input should be less than or equal to 253402300799999999999"
  Imp.require (1 ≤ span.endTimeUnixNano) "Input should be greater than or equal to 1"
  Imp.require (span.endTimeUnixNano ≤ maxUnixNano)
    "Input should be less than or equal to 253402300799999999999"
  Imp.require (span.attributes.length ≤ maxAttributes)
    "span attribute count exceeds the local ingestion limit"
  Imp.require (span.attributes.map SpanAttribute.key).Nodup "span attribute keys must be unique"
  Imp.require (isAllZero span.traceId.val = false ∧ isAllZero span.spanId.val = false)
    "W3C trace and span IDs cannot be all zero"
  Imp.require (∀ parent ∈ span.parentSpanId, isAllZero parent.val = false)
    "W3C parent span ID cannot be all zero"
  Imp.require (span.parentSpanId ≠ some span.spanId) "a span cannot parent itself"
  Imp.require (span.startTimeUnixNano < span.endTimeUnixNano) "span end time must be later than start time"
  return { span with attributes := span.attributes.insertionSort fun a b => a.key ≤ b.key }

/-- `OtlpSpan`: fields that validation accepts and leaves as they are. -/
structure OtlpSpan extends SpanFields where
  valid : toSpanFields.validate = .ok toSpanFields

/-! ## Cycles -/

/-- The identifiers of spans. -/
def spanIds (spans : List SpanFields) : Finset SpanId := (spans.map SpanFields.spanId).toFinset

theorem mem_spanIds {spans : List SpanFields} {id : SpanId} :
    id ∈ spanIds spans ↔ ∃ span ∈ spans, span.spanId = id := by
  rw [spanIds, List.mem_toFinset, List.mem_map]

/-- `by_id`. -/
def byId (spans : List SpanFields) : Dict SpanId { span // span ∈ spans } :=
  spans.attach.foldl (fun output item => output.insert item.val.spanId item) .empty

/-- Where the loop that follows the parents is: the current span, and the active spans in their order. -/
structure Walk (spans : List SpanFields) where
  current : Option { span // span ∈ spans }
  path : List SpanId

/-- The number of spans that are not yet active. -/
def Walk.remaining {spans : List SpanFields} (s : Walk spans) : Nat :=
  (spanIds spans \ s.path.toFinset).card

theorem remaining_append {spans : List SpanFields} {item : SpanFields} {path : List SpanId}
    (hitem : item ∈ spans) (hactive : item.spanId ∉ path) :
    (spanIds spans \ (path ++ [item.spanId]).toFinset).card < (spanIds spans \ path.toFinset).card := by
  refine Finset.card_lt_card (Finset.ssubset_iff_of_subset ?_ |>.mpr ⟨item.spanId, ?_, ?_⟩)
  · refine Finset.sdiff_subset_sdiff (Finset.Subset.refl _) fun id hid => ?_
    exact List.mem_toFinset.mpr (List.mem_append_left _ (List.mem_toFinset.mp hid))
  · rw [Finset.mem_sdiff, List.mem_toFinset]
    exact ⟨mem_spanIds.mpr ⟨item, hitem, rfl⟩, hactive⟩
  · rw [Finset.mem_sdiff, List.mem_toFinset]
    exact fun h => h.2 (List.mem_append_right _ (List.mem_singleton_self _))

/-- The loop of `_reject_cycles` that follows the parents of a span. It ends with the path. -/
def walk (spans : List SpanFields) (finished : List SpanId) :
    Loop (Walk spans) (Except String (List SpanId)) where
  body s :=
    match s.current with
    | none => .inr (.ok s.path)
    | some item =>
        if item.val.spanId ∈ finished then .inr (.ok s.path)
        else if item.val.spanId ∈ s.path then .inr (.error "trace parent graph contains a cycle")
        else .inl ⟨item.val.parentSpanId.bind (byId spans).get?, s.path ++ [item.val.spanId]⟩
  variant := Walk.remaining
  decreases := by
    intro s s' h
    split at h
    · cases h
    · next item hcurrent =>
        split_ifs at h with hfinished hactive
        obtain rfl := Sum.inl.inj h
        exact remaining_append item.property hactive

/-- The body of the loop over the spans: the parents of a span are followed unless that was done before. -/
def finish (spans : List SpanFields) (finished : List SpanId) (item : { span // span ∈ spans }) :
    Except String (List SpanId) :=
  if item.val.spanId ∈ finished then .ok finished
  else do return finished ++ (← (walk spans finished).run ⟨some item, []⟩)

/-- `_reject_cycles`. -/
def rejectCycles (spans : List SpanFields) : Except String Unit := do
  let _ ← spans.attach.foldlM (finish spans) []

/-! ## Connectivity -/

/-- The entry of a span in `children`. -/
def childrenOf (spans : List SpanFields) (id : SpanId) : List SpanId :=
  (spans.filter fun item => item.parentSpanId = some id).map SpanFields.spanId

theorem mem_childrenOf {spans : List SpanFields} {id child : SpanId} :
    child ∈ childrenOf spans id ↔ ∃ span ∈ spans, span.parentSpanId = some id ∧ span.spanId = child := by
  simp only [childrenOf, List.mem_map, List.mem_filter, decide_eq_true_eq, and_assoc]

/-- Where the loop that follows the children is: the stack, its top first, and the spans reached. -/
structure Descent (spans : List SpanFields) where
  pending : List SpanId
  reached : Finset SpanId
  known : ∀ id ∈ pending, id ∈ spanIds spans

/-- The number of identifiers that are on the stack or will be put on it. -/
def Descent.remaining {spans : List SpanFields} (s : Descent spans) : Nat :=
  s.pending.length + ∑ id ∈ spanIds spans \ s.reached, (childrenOf spans id).length

/-- The children of a span that is reached are put on the stack. -/
def Descent.push {spans : List SpanFields} (s : Descent spans) (current : SpanId) (pending : List SpanId)
    (hpending : ∀ id ∈ pending, id ∈ s.pending) : Descent spans where
  pending := (childrenOf spans current).reverse ++ pending
  reached := insert current s.reached
  known := by
    intro id hid
    rcases List.mem_append.mp hid with hid | hid
    · obtain ⟨span, hspan, -, rfl⟩ := mem_childrenOf.mp (List.mem_reverse.mp hid)
      exact mem_spanIds.mpr ⟨span, hspan, rfl⟩
    · exact s.known id (hpending id hid)

/-- The loop of `_validate_connectivity`. It ends with the spans that are reached. -/
def descend (spans : List SpanFields) : Loop (Descent spans) (Finset SpanId) where
  body s :=
    match h : s.pending with
    | [] => .inr s.reached
    | current :: pending =>
        if current ∈ s.reached then
          .inl ⟨pending, s.reached, fun id hid => s.known id (h ▸ List.mem_cons_of_mem _ hid)⟩
        else .inl (s.push current pending fun id hid => h ▸ List.mem_cons_of_mem _ hid)
  variant := Descent.remaining
  decreases := by
    intro s s' hbody
    split at hbody
    · cases hbody
    · next current pending h =>
        have hlength : s.pending.length = pending.length + 1 := congrArg List.length h
        split_ifs at hbody with hreached
        · obtain rfl := Sum.inl.inj hbody
          exact Nat.add_lt_add_right (hlength ▸ Nat.lt_succ_self _) _
        · obtain rfl := Sum.inl.inj hbody
          have hmem : current ∈ spanIds spans \ s.reached :=
            Finset.mem_sdiff.mpr ⟨s.known current (h ▸ List.mem_cons_self), hreached⟩
          have hsum := Finset.add_sum_erase _ (fun id => (childrenOf spans id).length) hmem
          rw [Descent.remaining, Descent.remaining, Descent.push, Finset.sdiff_insert, List.length_append,
            List.length_reverse]
          omega

/-- `_validate_connectivity`. -/
def validateConnectivity (spans : List SpanFields) (root : { span // span ∈ spans }) : Except String Unit :=
  Imp.require ((descend spans).run ⟨[root.val.spanId], ∅, List.forall_mem_singleton.mpr
    (mem_spanIds.mpr ⟨root, root.property, rfl⟩)⟩ = spanIds spans) "trace parent graph is disconnected"

/-! ## Traces -/

/-- `_validate_time_bounds`, of a span whose parent is known. -/
def withinParent (spans : List SpanFields) (item : SpanFields) : Except String Unit :=
  match item.parentSpanId.bind (byId spans).get? with
  | none => .ok ()
  | some parent =>
      Imp.require (parent.val.startTimeUnixNano ≤ item.startTimeUnixNano ∧
          item.startTimeUnixNano < item.endTimeUnixNano ∧
          item.endTimeUnixNano ≤ parent.val.endTimeUnixNano)
        "child span falls outside its parent time boundary"

/-- The order of the accepted spans. -/
def SpanFields.le (a b : SpanFields) : Prop :=
  toLex (a.startTimeUnixNano, a.spanId) ≤ toLex (b.startTimeUnixNano, b.spanId)

instance : DecidableRel SpanFields.le := fun _ _ => inferInstanceAs (Decidable (_ ≤ _))

/-- `validate_spans`. -/
def validateSpans (spans : List OtlpSpan) : Except String (List SpanFields) := do
  let normalized ← (spans.mapM fun span : OtlpSpan => span.toSpanFields.validate).mapError fun _ =>
    "typed OTLP span is invalid"
  Imp.require (normalized ≠ []) "trace must contain at least one span"
  Imp.require (normalized.length ≤ maxSpans) "trace span count exceeds the local ingestion limit"
  Imp.require ((normalized.map SpanFields.traceId).toFinset.card = 1)
    "trace ingestion requires exactly one W3C trace ID"
  Imp.require (normalized.map SpanFields.spanId).Nodup "trace span IDs must be unique"
  match normalized.attach.filter fun item => item.val.parentSpanId = none with
  | [root] =>
      Imp.require (∀ item ∈ normalized, ∀ parent ∈ item.parentSpanId,
          (byId normalized).contains parent = true)
        "trace DAG contains a disconnected parent reference"
      rejectCycles normalized
      validateConnectivity normalized root
      Imp.forEach normalized (withinParent normalized)
      return normalized.insertionSort SpanFields.le
  | _ => .error "trace DAG must have exactly one connected root"

/-- The fields of a span. -/
def SpanFields.toValue (span : SpanFields) : Value :=
  .mapping
    [(some "trace_id", .scalar (.str span.traceId.val)),
      (some "span_id", .scalar (.str span.spanId.val)),
      (some "parent_span_id", .scalar (optionalText (span.parentSpanId.map Constrained.val))),
      (some "name", .scalar (.str span.name.val)),
      (some "kind", .enum span.kind.value),
      (some "start_time_unix_nano", .scalar (.int span.startTimeUnixNano)),
      (some "end_time_unix_nano", .scalar (.int span.endTimeUnixNano)),
      (some "attributes", .list (span.attributes.map fun item =>
        .mapping [(some "key", .scalar (.str item.key.val)), (some "value", .scalar item.value.val)]))]

/-- `canonical_spans_sha256`. -/
def canonicalSpansSha256 [Sha256] (spans : List OtlpSpan) : Except String Sha256Digest := do
  digestOf (.list ((← validateSpans spans).map SpanFields.toValue))

end StateWeaver.Telemetry
