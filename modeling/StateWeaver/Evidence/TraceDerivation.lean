import StateWeaver.Evidence.SemanticTrace
import StateWeaver.Lib.Collecting

/-!
# Deriving traces

A trace is derived from a replay result exactly when the identifiers of the run, of the plan and of the steps have no
surrounding whitespace: the identifier of an event is made of them as they are, and is compared with one that is made
of the stripped texts. The semantic hash of a trace tells all of the result but the identifier of the run.
-/

namespace StateWeaver.Evidence

open Contracts Replay

/-! ## What is written -/

@[simp]
theorem wellKeyed_factValue (v : FactValue) : WellKeyed v.toValue := by
  cases v with
  | texts l =>
      refine wellKeyed_list.mpr fun v hv => ?_
      obtain ⟨s, -, rfl⟩ := List.mem_map.mp hv
      exact .scalar _
  | _ => exact .scalar _

@[simp]
theorem wellKeyed_fact (f : RealityTraceFact) : WellKeyed f.toValue := .record (by simp) (by simp) (by simp)

theorem wellKeyed_identityValue (eventType : RealityTraceEventType) (runId planId : String) (sequence : Nat)
    (stepId : Option String) : WellKeyed (identityValue eventType runId planId sequence stepId) :=
  .record (by simp) (by simp) (by simp)

theorem wellKeyed_derivedTraceValue (eventType : RealityTraceEventType) (planId : String) (sequence : Nat)
    (stepId : Option String) : WellKeyed (derivedTraceValue eventType planId sequence stepId) :=
  .record (by simp) (by simp) (by simp)

theorem EventContent.wellKeyed_projection (e : EventContent) : WellKeyed e.projection :=
  .record (by simp) (by simp) (by simp)

@[simp]
theorem EventContent.wellKeyed_semanticProjection (e : EventContent) : WellKeyed e.semanticProjection :=
  .record (by simp) (by simp) (by simp)

theorem wellKeyed_failureMessageValue (message : FailureMessage) : WellKeyed (failureMessageValue message) :=
  .record (by simp) (by simp) (by simp)

theorem wellKeyed_semanticValue [Sha256] (lane : RealityTraceLane) (planId : String) (replayTraceHash : Sha256Digest)
    (events : List RealityTraceEventV2) : WellKeyed (semanticValue lane planId replayTraceHash events) :=
  .record (by simp) (by simp) (by simp)

theorem canWrite_identityValue {eventType : RealityTraceEventType} {runId planId : String} {sequence : Nat}
    {stepId : Option String} :
    CanWrite (identityValue eventType runId planId sequence stepId) ↔ CanWrite (.scalar (.int sequence)) := by
  rw [identityValue, canWrite_record (by simp) (by simp)]
  simp

theorem canWrite_derivedTraceValue {eventType : RealityTraceEventType} {planId : String} {sequence : Nat}
    {stepId : Option String} :
    CanWrite (derivedTraceValue eventType planId sequence stepId) ↔ CanWrite (.scalar (.int sequence)) := by
  rw [derivedTraceValue, canWrite_record (by simp) (by simp)]
  simp

theorem canWrite_fact {f : RealityTraceFact} : CanWrite f.toValue ↔ CanWrite f.value.toValue := by
  rw [RealityTraceFact.toValue, canWrite_record (by simp) (by simp)]
  simp

theorem canWrite_texts (l : List String) : CanWrite (FactValue.texts l).toValue :=
  canWrite_list.mpr fun v hv => by
    obtain ⟨s, -, rfl⟩ := List.mem_map.mp hv
    exact canWrite_text s

theorem FactValue.canWrite_strip {v : FactValue} (h : CanWrite v.toValue) : CanWrite v.strip.toValue := by
  cases v with
  | text s => exact canWrite_text _
  | texts l => exact canWrite_texts _
  | _ => exact h

theorem canWrite_ofOption {pattern : String → Bool} (o : Option (Constrained pattern)) :
    CanWrite (FactValue.ofOption o).toValue := by
  cases o with
  | none => exact canWrite_scalar.mpr rfl
  | some s => exact canWrite_text _

theorem canWrite_actionFact {action : Option ReplayActionLogEntry} {value : ReplayActionLogEntry → FactValue}
    (h : ∀ entry ∈ action, CanWrite (value entry).toValue) : CanWrite (actionFact action value).toValue := by
  cases action with
  | none => exact canWrite_scalar.mpr rfl
  | some entry => exact h entry rfl

theorem EventContent.canWrite_projection {e : EventContent} (hsequence : CanWrite (.scalar (.int e.sequence)))
    (hpayload : ∀ f ∈ e.payload, CanWrite f.value.toValue) : CanWrite e.projection := by
  rw [projection, canWrite_record (by simp) (by simp)]
  simpa [hsequence, canWrite_fact] using hpayload

theorem EventContent.canWrite_semanticProjection {e : EventContent} (h : CanWrite e.projection) :
    CanWrite e.semanticProjection := by
  rw [projection, canWrite_record (by simp) (by simp)] at h
  rw [semanticProjection, canWrite_record (by simp) (by simp)]
  intro entry hentry
  refine h entry ?_
  simp only [List.mem_cons, List.not_mem_nil, or_false] at hentry ⊢
  tauto

/-! ## Payloads -/

/-- Facts that an event can have. -/
structure IsPayload (payload : List RealityTraceFact) : Prop where
  nonempty : payload ≠ []
  names : (payload.map RealityTraceFact.name).Nodup
  written : ∀ f ∈ payload, CanWrite f.value.toValue

theorem mem_sortedFacts {payload : List RealityTraceFact} {f : RealityTraceFact} :
    f ∈ sortedFacts payload ↔ f ∈ payload := List.mem_insertionSort _

theorem map_name_sortedFacts (payload : List RealityTraceFact) : (sortedFacts payload).map RealityTraceFact.name =
    (payload.map RealityTraceFact.name).insertionSort (· ≤ ·) :=
  List.map_insertionSort _ _ _ _ fun _ _ _ _ => Iff.rfl

theorem map_name_validate (payload : List RealityTraceFact) :
    (payload.map RealityTraceFact.validate).map RealityTraceFact.name = payload.map RealityTraceFact.name := by
  rw [List.map_map]
  rfl

theorem isPayload_sortedFacts {payload : List RealityTraceFact} (h : IsPayload payload) :
    IsPayload (sortedFacts (payload.map RealityTraceFact.validate)) where
  nonempty hnil := by
    have hlength := congrArg List.length hnil
    rw [sortedFacts, List.length_insertionSort, List.length_map, List.length_nil] at hlength
    exact h.nonempty (List.length_eq_zero_iff.mp hlength)
  names := by
    rw [map_name_sortedFacts, map_name_validate, (List.perm_insertionSort _ _).nodup_iff]
    exact h.names
  written f hf := by
    obtain ⟨g, hg, rfl⟩ := List.mem_map.mp (mem_sortedFacts.mp hf)
    exact FactValue.canWrite_strip (h.written g hg)

/-- The facts of an event are validated. -/
theorem map_validate_sortedFacts (payload : List RealityTraceFact) :
    (sortedFacts (payload.map RealityTraceFact.validate)).map RealityTraceFact.validate =
      sortedFacts (payload.map RealityTraceFact.validate) := by
  refine (List.map_congr_left fun f hf => ?_).trans (List.map_id _)
  obtain ⟨g, -, rfl⟩ := List.mem_map.mp (mem_sortedFacts.mp hf)
  exact validate_validate g

theorem isPayload_canonicalFacts {values : List (FactName × FactValue)} (hne : values ≠ [])
    (hnodup : (values.map fun p => p.1.val).Nodup) (hwritten : ∀ p ∈ values, CanWrite p.2.toValue) :
    IsPayload (canonicalFacts values) := by
  have hpayload : IsPayload (values.map fun p => (⟨p.1, p.2⟩ : RealityTraceFact)) := by
    refine ⟨fun hnil => hne (List.map_eq_nil_iff.mp hnil), ?_, fun f hf => ?_⟩
    · refine List.Nodup.of_map Constrained.val ?_
      rwa [List.map_map, List.map_map]
    · obtain ⟨p, hp, rfl⟩ := List.mem_map.mp hf
      exact hwritten p hp
  have hvalidated := isPayload_sortedFacts hpayload
  rwa [List.map_map] at hvalidated

/-! ## What is checked of an event -/

section Hashing

variable [Sha256]

/-- What `check` asks for. -/
structure EventFields.Matches (e : EventFields) : Prop where
  texts : isNonEmpty e.runId = true ∧ isNonEmpty e.planId = true ∧ ∀ id ∈ e.stepId, isNonEmpty id = true
  nonempty : e.payload ≠ []
  names : (e.payload.map RealityTraceFact.name).insertionSort (· ≤ ·) = e.payload.map RealityTraceFact.name ∧
    (e.payload.map RealityTraceFact.name).Nodup
  shape : e.eventType = .replayStep ↔ e.stepId ≠ none
  kind : e.kind = eventKind e.eventType e.stepId
  identified : eventIdFor e.eventType e.runId e.planId e.sequence e.stepId = .ok e.eventId
  hashed : hashOf e.projection = .ok e.eventSha256

theorem EventFields.check_eq_ok {e : EventFields} : e.check = .ok () ↔ e.Matches := by
  rw [check]
  simp only [Imp.check_bind_eq_ok, Imp.require_eq_ok]
  constructor
  · rintro ⟨htexts, hne, hnames, hshape, hkind, h⟩
    obtain ⟨id, hid, h⟩ := Imp.except_bind_eq_ok.mp h
    obtain ⟨heq, h⟩ := Imp.check_bind_eq_ok.mp h
    obtain ⟨hash, hhash, h⟩ := Imp.except_bind_eq_ok.mp h
    exact ⟨htexts, hne, hnames, hshape, hkind, Imp.require_eq_ok.mp heq ▸ hid, Imp.require_eq_ok.mp h ▸ hhash⟩
  · rintro ⟨htexts, hne, hnames, hshape, hkind, hid, hhash⟩
    refine ⟨htexts, hne, hnames, hshape, hkind, Imp.except_bind_eq_ok.mpr ⟨_, hid, ?_⟩⟩
    refine Imp.check_bind_eq_ok.mpr ⟨Imp.require_eq_ok.mpr rfl, Imp.except_bind_eq_ok.mpr ⟨_, hhash, ?_⟩⟩
    exact Imp.require_eq_ok.mpr rfl

namespace RealityTraceEventV2

theorem matches_fields (event : RealityTraceEventV2) : event.Matches := EventFields.check_eq_ok.mp event.checked

theorem ofFields_eq_ok {f : EventFields} {event : RealityTraceEventV2} :
    ofFields f = .ok event ↔ f.strip.Matches ∧ event.toEventFields = f.strip := by
  rw [← EventFields.check_eq_ok]
  unfold ofFields
  split
  · next e h =>
      refine iff_of_false nofun fun hc => ?_
      rw [h] at hc
      cases hc.1
  · next h =>
      constructor
      · intro heq
        cases heq
        exact ⟨h, rfl⟩
      · rintro ⟨-, heq⟩
        obtain ⟨fields, hstripped, hchecked⟩ := event
        cases heq
        rfl

theorem exists_ofFields {f : EventFields} (hstrip : f.strip = f) (h : f.Matches) : ∃ event, ofFields f = .ok event := by
  refine ⟨⟨f, hstrip, EventFields.check_eq_ok.mpr h⟩, ofFields_eq_ok.mpr ⟨?_, hstrip.symm⟩⟩
  rw [hstrip]
  exact h

/-- An event that is validated again is the same. -/
theorem ofFields_toEventFields (event : RealityTraceEventV2) : ofFields event.toEventFields = .ok event :=
  ofFields_eq_ok.mpr ⟨event.stripped.symm ▸ event.matches_fields, event.stripped.symm⟩

theorem mapM_ofFields (events : List RealityTraceEventV2) :
    (events.mapM fun event => ofFields event.toEventFields) = .ok events := by
  induction events with
  | nil => rfl
  | cons event events ih =>
      rw [List.mapM_cons, ofFields_toEventFields, ih]
      rfl

end RealityTraceEventV2

/-! ## Events that are created -/

section Created

variable {eventType : RealityTraceEventType} {runId planId : String} {sequence : Nat} {traceId : Option TraceId}
  {stepId : Option String} {payload : List RealityTraceFact} {event : RealityTraceEventV2}

/-- What an event is that is created. -/
structure Created (eventType : RealityTraceEventType) (runId planId : String) (sequence : Nat)
    (traceId : Option TraceId) (stepId : Option String) (payload : List RealityTraceFact)
    (event : RealityTraceEventV2) : Prop where
  resolved : resolveTraceId traceId eventType planId sequence stepId = .ok event.traceId
  identified : eventIdFor eventType runId planId sequence stepId = .ok event.eventId
  eventType_eq : event.eventType = eventType
  kind_eq : event.kind = eventKind eventType stepId
  runId_eq : event.runId = Constrained.strip runId
  planId_eq : event.planId = Constrained.strip planId
  sequence_eq : event.sequence = sequence
  stepId_eq : event.stepId = stepId.map Constrained.strip
  payload_eq : event.payload = sortedFacts (payload.map RealityTraceFact.validate)

theorem created_of_create
    (h : RealityTraceEventV2.create eventType runId planId sequence traceId stepId payload = .ok event) :
    Created eventType runId planId sequence traceId stepId payload event := by
  rw [RealityTraceEventV2.create] at h
  obtain ⟨resolved, hresolved, h⟩ := Imp.except_bind_eq_ok.mp h
  obtain ⟨id, hid, h⟩ := Imp.except_bind_eq_ok.mp h
  rw [EventContent.withHash] at h
  obtain ⟨hash, -, h⟩ := Imp.except_bind_eq_ok.mp h
  obtain ⟨-, heq⟩ := RealityTraceEventV2.ofFields_eq_ok.mp h
  obtain ⟨fields, hstripped, hchecked⟩ := event
  cases heq
  exact ⟨hresolved, hid, rfl, rfl, rfl, rfl, rfl, rfl, map_validate_sortedFacts payload⟩

theorem exists_eventIdFor (h : CanWrite (.scalar (.int sequence))) :
    ∃ id, eventIdFor eventType runId planId sequence stepId = .ok id := by
  obtain ⟨d, hd⟩ := exists_hashOf (wellKeyed_identityValue eventType runId planId sequence stepId)
    (canWrite_identityValue.mpr h)
  rw [eventIdFor, hd]
  exact ⟨_, rfl⟩

theorem exists_resolveTraceId (h : CanWrite (.scalar (.int sequence))) :
    ∃ id, resolveTraceId traceId eventType planId sequence stepId = .ok id := by
  cases traceId with
  | some id => exact ⟨id, rfl⟩
  | none =>
      obtain ⟨d, hd⟩ := exists_hashOf (wellKeyed_derivedTraceValue eventType planId sequence stepId)
        (canWrite_derivedTraceValue.mpr h)
      rw [resolveTraceId, derivedTraceId, hd]
      exact ⟨_, rfl⟩

theorem EventContent.exists_withHash {content : EventContent}
    (hstrip : ∀ hash, (⟨content, hash⟩ : EventFields).strip = ⟨content, hash⟩)
    (hmatches : ∀ hash, hashOf content.projection = .ok hash → (⟨content, hash⟩ : EventFields).Matches)
    (hwritten : CanWrite content.projection) : ∃ event, content.withHash = .ok event := by
  obtain ⟨hash, hhash⟩ := exists_hashOf content.wellKeyed_projection hwritten
  obtain ⟨event, hevent⟩ := RealityTraceEventV2.exists_ofFields (hstrip hash) (hmatches hash hhash)
  exact ⟨event, Imp.except_bind_eq_ok.mpr ⟨hash, hhash, hevent⟩⟩

/-- An event of stripped texts is created. -/
theorem exists_create (hrun : isNonEmpty runId = true ∧ Constrained.strip runId = runId)
    (hplan : isNonEmpty planId = true ∧ Constrained.strip planId = planId)
    (hstep : ∀ id ∈ stepId, isNonEmpty id = true ∧ Constrained.strip id = id)
    (hshape : eventType = .replayStep ↔ stepId ≠ none) (hsequence : CanWrite (.scalar (.int sequence)))
    (hpayload : IsPayload payload) :
    ∃ event, RealityTraceEventV2.create eventType runId planId sequence traceId stepId payload = .ok event := by
  obtain ⟨resolved, hresolved⟩ := @exists_resolveTraceId _ eventType planId sequence traceId stepId hsequence
  obtain ⟨id, hid⟩ := @exists_eventIdFor _ eventType runId planId sequence stepId hsequence
  have hfacts := isPayload_sortedFacts hpayload
  have hstepId : stepId.map Constrained.strip = stepId := by
    cases stepId with
    | none => rfl
    | some id => exact congrArg some (hstep id rfl).2
  have hsorted : ((sortedFacts (payload.map RealityTraceFact.validate)).map RealityTraceFact.name).insertionSort (· ≤ ·) =
      (sortedFacts (payload.map RealityTraceFact.validate)).map RealityTraceFact.name := by
    rw [map_name_sortedFacts]
    exact (List.pairwise_insertionSort _ _).insertionSort_eq
  rw [RealityTraceEventV2.create, hresolved, hid]
  refine EventContent.exists_withHash (fun hash => ?_) (fun hash hhash => ?_)
    (EventContent.canWrite_projection hsequence hfacts.written)
  · rw [EventFields.strip]
    simp only [hrun.2, hplan.2, hstepId, map_validate_sortedFacts]
  · exact ⟨⟨hrun.1, hplan.1, fun id hid => (hstep id hid).1⟩, hfacts.nonempty, ⟨hsorted, hfacts.names⟩, hshape, rfl, hid,
      hhash⟩

end Created

/-! ## Identifiers of events -/

/-- Whether the identifiers of events tell some values apart. -/
def EventIdsApart (values : Set Value) : Prop :=
  Set.InjOn (fun bytes => (Sha256.hexdigest bytes).toList.take 24) {bytes | ∃ v ∈ values, canonicalJsonBytes v = .ok bytes}

theorem toList_drop_digest {v : Value} {d : Sha256Digest} {bytes : ByteArray}
    (hbytes : canonicalJsonBytes v = .ok bytes) (hd : digestOf v = .ok d) :
    d.val.toList.drop 7 = (Sha256.hexdigest bytes).toList := by
  obtain ⟨bytes', hbytes', hval⟩ := digestOf_eq_ok.mp hd
  rw [hbytes] at hbytes'
  cases hbytes'
  have htag : "sha256:".toList.length = 7 := by decide +kernel
  rw [hval, String.toList_append, ← htag, List.drop_left]

theorem alike_of_eventIdOf {values : Set Value} {v w : Value} {d d' : Sha256Digest} (hfree : EventIdsApart values)
    (hv : v ∈ values) (hw : w ∈ values) (hkeyed : WellKeyed v) (hkeyed' : WellKeyed w) (hd : hashOf v = .ok d)
    (hd' : hashOf w = .ok d') (h : eventIdOf d = eventIdOf d') : Alike v w := by
  have hdigest := (hashOf_eq_ok hkeyed).mp hd
  have hdigest' := (hashOf_eq_ok hkeyed').mp hd'
  obtain ⟨bytes, hbytes, -⟩ := digestOf_eq_ok.mp hdigest
  obtain ⟨bytes', hbytes', -⟩ := digestOf_eq_ok.mp hdigest'
  have hdigits : (d.val.toList.drop 7).take 24 = (d'.val.toList.drop 7).take 24 := by
    have htext := congrArg (fun id : EventId => id.val.toList) h
    change (taggedDigits _ _ _).toList = (taggedDigits _ _ _).toList at htext
    rw [toList_taggedDigits, toList_taggedDigits] at htext
    exact List.append_cancel_left htext
  rw [toList_drop_digest hbytes hdigest, toList_drop_digest hbytes' hdigest'] at hdigits
  obtain rfl := hfree (Exists.intro v ⟨hv, hbytes⟩) (Exists.intro w ⟨hw, hbytes'⟩) hdigits
  exact alike_of_bytes hbytes hbytes'

/-- Values whose digests start differently are told apart. -/
theorem eventIdsApart_of_nodup {starts : List (Value × List Char)}
    (hdigest : ∀ a ∈ starts, ∃ d, digestOf a.1 = .ok d ∧ (d.val.toList.drop 7).take 24 = a.2)
    (hnodup : (starts.map Prod.snd).Nodup) : EventIdsApart {v | ∃ a ∈ starts, v = a.1} := by
  rintro bytes ⟨v, ⟨a, ha, rfl⟩, hbytes⟩ bytes' ⟨w, ⟨b, hb, rfl⟩, hbytes'⟩ heq
  obtain ⟨d, hd, hstart⟩ := hdigest a ha
  obtain ⟨d', hd', hstart'⟩ := hdigest b hb
  rw [toList_drop_digest hbytes hd] at hstart
  rw [toList_drop_digest hbytes' hd'] at hstart'
  obtain rfl : a = b := List.inj_on_of_nodup_map hnodup ha hb (hstart.symm.trans (heq.trans hstart'))
  exact Except.ok.inj (hbytes.symm.trans hbytes')

/-- What an event is told apart by within its run. -/
structure EventKey where
  eventType : RealityTraceEventType
  sequence : Nat
  stepId : Option String

def EventKey.identity (key : EventKey) (runId planId : String) : Value :=
  identityValue key.eventType runId planId key.sequence key.stepId

/-- The same with stripped texts. -/
def EventKey.strippedIdentity (key : EventKey) (runId planId : String) : Value :=
  identityValue key.eventType (Constrained.strip runId) (Constrained.strip planId) key.sequence
    (key.stepId.map Constrained.strip)

/-- The events of a trace. -/
def eventKeys (result : ReplayRunResult) (lane : RealityTraceLane) : List EventKey :=
  ⟨.replayStarted, 0, none⟩ :: (result.steps.zipIdx 1).map (fun p => ⟨.replayStep, p.2, some p.1.stepId.val⟩) ++
    [⟨lane.completedType, result.steps.length + 1, none⟩]

/-- What the identifiers of the events of a trace are made of, and what they are compared with. -/
def eventIdentities (result : ReplayRunResult) (lane : RealityTraceLane) : Set Value :=
  {v | ∃ key ∈ eventKeys result lane, v = key.identity result.runId.val result.planId.val ∨
    v = key.strippedIdentity result.runId.val result.planId.val}

omit [Sha256] in
theorem eq_of_alike_identityValue {eventType eventType' : RealityTraceEventType} {runId runId' planId planId' : String}
    {sequence sequence' : Nat} {stepId stepId' : Option String}
    (h : Alike (identityValue eventType runId planId sequence stepId)
      (identityValue eventType' runId' planId' sequence' stepId')) :
    runId = runId' ∧ planId = planId' ∧ sequence = sequence' ∧ stepId = stepId' := by
  have hplan := (h.entry 2 rfl rfl).scalar
  have hrun := (h.entry 3 rfl rfl).scalar
  have hsequence := (h.entry 4 rfl rfl).scalar
  have hstep := optionalText_injective (h.entry 5 rfl rfl).scalar
  exact ⟨Py.Scalar.str.inj hrun, Py.Scalar.str.inj hplan, Int.ofNat.inj (Py.Scalar.int.inj hsequence), hstep⟩

theorem hashOf_of_eventIdFor {eventType : RealityTraceEventType} {runId planId : String} {sequence : Nat}
    {stepId : Option String} {id : EventId} (h : eventIdFor eventType runId planId sequence stepId = .ok id) :
    ∃ d, hashOf (identityValue eventType runId planId sequence stepId) = .ok d ∧ id = eventIdOf d := by
  obtain ⟨d, hd, hret⟩ := Imp.except_bind_eq_ok.mp h
  exact ⟨d, hd, (Except.ok.inj hret).symm⟩

section Keys

variable {result : ReplayRunResult} {lane : RealityTraceLane} {key : EventKey} {traceId : Option TraceId}
  {payload : List RealityTraceFact} {event : RealityTraceEventV2}

/-- The texts of an event that is created are stripped. -/
theorem stripped_of_create (hfree : EventIdsApart (eventIdentities result lane)) (hkey : key ∈ eventKeys result lane)
    (h : RealityTraceEventV2.create key.eventType result.runId.val result.planId.val key.sequence traceId key.stepId
      payload = .ok event) :
    (Constrained.strip result.runId.val = result.runId.val ∧ Constrained.strip result.planId.val = result.planId.val ∧
      key.stepId.map Constrained.strip = key.stepId) ∧ CanWrite (.scalar (.int key.sequence)) := by
  have hcreated := created_of_create h
  obtain ⟨d, hd, hid⟩ := hashOf_of_eventIdFor hcreated.identified
  have hchecked := event.matches_fields.identified
  rw [hcreated.eventType_eq, hcreated.runId_eq, hcreated.planId_eq, hcreated.sequence_eq, hcreated.stepId_eq] at hchecked
  obtain ⟨d', hd', hid'⟩ := hashOf_of_eventIdFor hchecked
  have halike := alike_of_eventIdOf hfree (Exists.intro key ⟨hkey, .inl rfl⟩) (Exists.intro key ⟨hkey, .inr rfl⟩)
    (wellKeyed_identityValue ..) (wellKeyed_identityValue ..) hd hd' (hid.symm.trans hid')
  obtain ⟨hrun, hplan, -, hstep⟩ := eq_of_alike_identityValue halike
  exact ⟨⟨hrun.symm, hplan.symm, hstep.symm⟩, canWrite_identityValue.mp (canWrite_of_hashOf (wellKeyed_identityValue ..) hd)⟩

end Keys

/-! ## What is checked of a trace -/

/-- What `check` asks for. -/
structure ArtifactFields.Matches (a : ArtifactFields) : Prop where
  texts : isNonEmpty a.runId = true ∧ isNonEmpty a.planId = true
  length : 3 ≤ a.events.length
  sequences : a.events.map (·.sequence) = List.range a.events.length
  eventIds : (a.events.map (·.eventId)).Nodup
  runIds : ∀ event ∈ a.events, event.runId = a.runId
  planIds : ∀ event ∈ a.events, event.planId = a.planId
  started : a.events.head?.map (·.eventType) = some .replayStarted
  completed : a.events.getLast?.map (·.eventType) = some a.lane.completedType
  interior : ∀ event ∈ a.events.tail.dropLast, event.eventType = .replayStep
  stepIds : (a.events.tail.dropLast.map (·.stepId)).Nodup
  hashed : hashOf (semanticValue a.lane a.planId a.replayTraceHash a.events) = .ok a.semanticTraceHash

theorem ArtifactFields.check_eq_ok {a : ArtifactFields} : a.check = .ok () ↔ a.Matches := by
  rw [check]
  simp only [Imp.check_bind_eq_ok, Imp.require_eq_ok]
  constructor
  · rintro ⟨htexts, hlength, hsequences, hids, hruns, hplans, hstarted, hcompleted, hinterior, hsteps, h⟩
    obtain ⟨hash, hhash, h⟩ := Imp.except_bind_eq_ok.mp h
    exact ⟨htexts, hlength, hsequences, hids, hruns, hplans, hstarted, hcompleted, hinterior, hsteps,
      Imp.require_eq_ok.mp h ▸ hhash⟩
  · rintro ⟨htexts, hlength, hsequences, hids, hruns, hplans, hstarted, hcompleted, hinterior, hsteps, hhash⟩
    exact ⟨htexts, hlength, hsequences, hids, hruns, hplans, hstarted, hcompleted, hinterior, hsteps,
      Imp.except_bind_eq_ok.mpr ⟨_, hhash, Imp.require_eq_ok.mpr rfl⟩⟩

namespace RealityTraceArtifactV2

theorem matches_fields (artifact : RealityTraceArtifactV2) : artifact.Matches :=
  ArtifactFields.check_eq_ok.mp artifact.checked

theorem ofFields_eq_ok {f : ArtifactFields} {artifact : RealityTraceArtifactV2} :
    ofFields f = .ok artifact ↔ f.strip.Matches ∧ artifact.toArtifactFields = f.strip := by
  rw [← ArtifactFields.check_eq_ok]
  unfold ofFields
  split
  · next e h =>
      refine iff_of_false nofun fun hc => ?_
      rw [h] at hc
      cases hc.1
  · next h =>
      constructor
      · intro heq
        cases heq
        exact ⟨h, rfl⟩
      · rintro ⟨-, heq⟩
        obtain ⟨fields, hchecked⟩ := artifact
        cases heq
        rfl

/-- Events are hashed and stored as they are. -/
theorem create_eq_ok {lane : RealityTraceLane} {runId planId : String} {replayTraceHash : Sha256Digest}
    {events : List RealityTraceEventV2} {artifact : RealityTraceArtifactV2} :
    create lane runId planId replayTraceHash events = .ok artifact ↔
      ∃ hash, hashOf (semanticValue lane planId replayTraceHash events) = .ok hash ∧
        ofFields ⟨lane, runId, planId, replayTraceHash, hash, events⟩ = .ok artifact := by
  rw [create]
  constructor
  · intro h
    obtain ⟨validated, hvalidated, h⟩ := Imp.except_bind_eq_ok.mp h
    obtain rfl := Except.ok.inj ((RealityTraceEventV2.mapM_ofFields events).symm.trans hvalidated)
    obtain ⟨hash, hhash, h⟩ := Imp.except_bind_eq_ok.mp h
    obtain ⟨stored, hstored, h⟩ := Imp.except_bind_eq_ok.mp h
    obtain rfl := Except.ok.inj ((RealityTraceEventV2.mapM_ofFields events).symm.trans hstored)
    exact ⟨hash, hhash, h⟩
  · rintro ⟨hash, hhash, h⟩
    refine Imp.except_bind_eq_ok.mpr ⟨events, RealityTraceEventV2.mapM_ofFields events, ?_⟩
    refine Imp.except_bind_eq_ok.mpr ⟨hash, hhash, ?_⟩
    exact Imp.except_bind_eq_ok.mpr ⟨events, RealityTraceEventV2.mapM_ofFields events, h⟩

end RealityTraceArtifactV2

/-! ## The facts of a result -/

section Results

variable {result : ReplayRunResult} {lane : RealityTraceLane}

theorem canWrite_steps {step : ReplayStepResult} (h : step ∈ result.steps) : CanWrite step.toValue := by
  have hcontent := canWrite_of_hashOf result.wellKeyed_traceValue result.matches_content.hashed
  rw [RunContent.traceValue, canWrite_record (by simp) (by simp)] at hcontent
  have hsteps := hcontent (some "steps", .list (result.steps.map ReplayStepResult.toValue)) (by simp)
  exact canWrite_list.mp hsteps _ (List.mem_map_of_mem h)

theorem canWrite_actionLog {entry : ReplayActionLogEntry} (h : entry ∈ result.actionLog) : CanWrite entry.toValue := by
  have hcontent := canWrite_of_hashOf result.wellKeyed_traceValue result.matches_content.hashed
  rw [RunContent.traceValue, canWrite_record (by simp) (by simp)] at hcontent
  have hlog := hcontent (some "action_log", .list (result.actionLog.map ReplayActionLogEntry.toValue)) (by simp)
  exact canWrite_list.mp hlog _ (List.mem_map_of_mem h)

theorem isPayload_startedPayload : IsPayload (startedPayload result lane) := by
  refine isPayload_canonicalFacts (List.cons_ne_nil _ _) ?_ ?_
  · change ["lane", "root_fingerprint"].Nodup
    decide +kernel
  · simp only [List.forall_mem_cons, List.not_mem_nil, false_imp_iff, implies_true, and_true]
    exact ⟨canWrite_text _, canWrite_ofOption _⟩

theorem isPayload_completedPayload : IsPayload (completedPayload result) := by
  refine isPayload_canonicalFacts (List.cons_ne_nil _ _) ?_ ?_
  · change ["failed_step_id", "final_fingerprint", "replay_trace_hash", "run_status"].Nodup
    decide +kernel
  · simp only [List.forall_mem_cons, List.not_mem_nil, false_imp_iff, implies_true, and_true]
    exact ⟨canWrite_ofOption _, canWrite_ofOption _, canWrite_text _, canWrite_text _⟩

omit [Sha256] in
theorem isPayload_stepFacts {step : ReplayStepResult} {action : Option ReplayActionLogEntry}
    {failureMessage : Option Sha256Digest} {observed evaluated : Sha256Digest}
    (haction : ∀ entry ∈ action, CanWrite entry.toValue) :
    IsPayload (canonicalFacts (stepFacts step action failureMessage observed evaluated)) := by
  refine isPayload_canonicalFacts (List.cons_ne_nil _ _) ?_ ?_
  · change ["action_id", "action_sequence", "action_trace_id", "action_type", "after_fingerprint", "before_fingerprint",
      "envelope_hash", "evidence_ids", "failure_code", "failure_message_sha256", "idempotency_key", "observation_hash",
      "oracle_results_hash", "parameter_artifact", "policy_decision_ref", "request_template_hash", "status"].Nodup
    decide +kernel
  · have htext : ∀ value : ReplayActionLogEntry → String,
        CanWrite (actionFact action fun entry => .text (value entry)).toValue := fun value =>
      canWrite_actionFact fun entry _ => canWrite_text _
    have hsequence : CanWrite (actionFact action fun entry => .int entry.sequence).toValue := by
      refine canWrite_actionFact fun entry hentry => ?_
      have hrecord := haction entry hentry
      rw [ReplayActionLogEntry.toValue, canWrite_record (by simp) (by simp)] at hrecord
      exact hrecord (some "sequence", .scalar (.int entry.sequence)) (by simp)
    have hartifact : CanWrite (actionFact action fun entry => .ofOption entry.parameterArtifact).toValue :=
      canWrite_actionFact fun entry _ => canWrite_ofOption _
    simp only [stepFacts, List.forall_mem_cons, List.not_mem_nil, false_imp_iff, implies_true, and_true]
    exact ⟨htext _, hsequence, htext _, htext _, canWrite_ofOption _, canWrite_ofOption _, htext _, canWrite_texts _,
      canWrite_ofOption _, canWrite_ofOption _, htext _, canWrite_text _, canWrite_text _, hartifact, htext _, htext _,
      canWrite_text _⟩

theorem exists_stepPayload {step : ReplayStepResult} {action : Option ReplayActionLogEntry}
    (hstep : CanWrite step.toValue) (haction : ∀ entry ∈ action, CanWrite entry.toValue) :
    ∃ payload, stepPayload step action = .ok payload ∧ IsPayload payload := by
  rw [ReplayStepResult.toValue, canWrite_record (by simp) (by simp)] at hstep
  have hmessage : ∃ hash, failureMessageSha256 step.failureMessage = .ok hash := by
    cases step.failureMessage with
    | none => exact ⟨none, rfl⟩
    | some message =>
        have hwritten : CanWrite (failureMessageValue message) := by
          rw [failureMessageValue, canWrite_record (by simp) (by simp)]
          simp
        obtain ⟨d, hd⟩ := exists_hashOf (wellKeyed_failureMessageValue message) hwritten
        exact ⟨some d, Imp.except_bind_eq_ok.mpr ⟨d, hd, rfl⟩⟩
  obtain ⟨failureMessage, hfailure⟩ := hmessage
  obtain ⟨observed, hobserved⟩ := exists_hashOf (wellKeyed_list.mpr (by simp))
    (hstep (some "observations", .list (step.observations.map ReplayObservation.toValue)) (by simp))
  obtain ⟨evaluated, hevaluated⟩ := exists_hashOf (wellKeyed_list.mpr (by simp))
    (hstep (some "oracle_results", .list (step.oracleResults.map OracleResult.toValue)) (by simp))
  refine ⟨_, Imp.except_bind_eq_ok.mpr ⟨failureMessage, hfailure, Imp.except_bind_eq_ok.mpr ⟨observed, hobserved,
    Imp.except_bind_eq_ok.mpr ⟨evaluated, hevaluated, rfl⟩⟩⟩, isPayload_stepFacts haction⟩

/-! ## Derived traces -/

/-- The identifiers of a result that whitespace around them could change are as they are stored. -/
structure HasStrippedIds (result : ReplayRunResult) : Prop where
  run : Constrained.strip result.runId.val = result.runId.val
  plan : Constrained.strip result.planId.val = result.planId.val
  steps : ∀ step ∈ result.steps, Constrained.strip step.stepId.val = step.stepId.val

theorem actionOf_eq_some {step : ReplayStepResult} {entry : ReplayActionLogEntry}
    (h : actionOf result step = some entry) : entry ∈ result.actionLog ∧ entry.stepId = step.stepId := by
  rw [actionOf] at h
  have hid := List.find?_some h
  exact ⟨List.mem_of_find?_eq_some h, of_decide_eq_true hid⟩

/-- A step of the plan has an entry. -/
theorem actionOf_ne_none {step : ReplayStepResult} (h : step ∈ result.steps) (hid : step.stepId.val ∉ reservedStepIds) :
    actionOf result step ≠ none := by
  have hmem : step.stepId ∈ result.actionLog.map ReplayActionLogEntry.stepId := by
    rw [result.matches_content.logIds, List.mem_filter]
    exact ⟨List.mem_map_of_mem h, decide_eq_true hid⟩
  obtain ⟨entry, hentry, heq⟩ := List.mem_map.mp hmem
  rw [actionOf, ne_eq, List.find?_eq_none]
  exact fun hnone => hnone entry hentry (decide_eq_true heq)

theorem exists_stepEvent (hids : HasStrippedIds result) {step : ReplayStepResult} (h : step ∈ result.steps)
    {sequence : Nat} (hsequence : CanWrite (.scalar (.int sequence))) :
    ∃ event, stepEvent result sequence step = .ok event := by
  have hentry : step.stepId.val ∈ reservedStepIds ∨ actionOf result step ≠ none := by
    by_cases hid : step.stepId.val ∈ reservedStepIds
    · exact .inl hid
    · exact .inr (actionOf_ne_none h hid)
  obtain ⟨traceId, htrace⟩ := @exists_resolveTraceId _ .replayStep result.planId.val sequence
    ((actionOf result step).map ReplayActionLogEntry.traceId) (some step.stepId.val) hsequence
  have hwritten (entry : ReplayActionLogEntry) (hentry : actionOf result step = some entry) : CanWrite entry.toValue :=
    canWrite_actionLog (actionOf_eq_some hentry).1
  obtain ⟨payload, hpayload, hfacts⟩ := exists_stepPayload (canWrite_steps h) hwritten
  obtain ⟨event, hevent⟩ := @exists_create _ .replayStep result.runId.val result.planId.val sequence (some traceId)
    (some step.stepId.val) payload ⟨result.runId.matchesPattern, hids.run⟩ ⟨result.planId.matchesPattern, hids.plan⟩
    (fun id hid => Option.some.inj hid ▸ ⟨step.stepId.matchesPattern, hids.steps step h⟩)
    (iff_of_true rfl nofun) hsequence hfacts
  refine ⟨event, Imp.check_bind_eq_ok.mpr ⟨Imp.require_eq_ok.mpr hentry, ?_⟩⟩
  exact Imp.except_bind_eq_ok.mpr ⟨traceId, htrace, Imp.except_bind_eq_ok.mpr ⟨payload, hpayload, hevent⟩⟩

/-- What a step event tells. -/
theorem created_of_stepEvent {step : ReplayStepResult} {sequence : Nat} {event : RealityTraceEventV2}
    (h : stepEvent result sequence step = .ok event) :
    ∃ traceId payload, stepPayload step (actionOf result step) = .ok payload ∧
      resolveTraceId ((actionOf result step).map ReplayActionLogEntry.traceId) .replayStep result.planId.val sequence
        (some step.stepId.val) = .ok traceId ∧
      RealityTraceEventV2.create .replayStep result.runId.val result.planId.val sequence (some traceId)
        (some step.stepId.val) payload = .ok event := by
  obtain ⟨-, h⟩ := Imp.check_bind_eq_ok.mp h
  obtain ⟨traceId, htrace, h⟩ := Imp.except_bind_eq_ok.mp h
  obtain ⟨payload, hpayload, h⟩ := Imp.except_bind_eq_ok.mp h
  exact ⟨traceId, payload, hpayload, htrace, h⟩

/-- The events that a result is told by. -/
structure Narrates (result : ReplayRunResult) (lane : RealityTraceLane) (started : RealityTraceEventV2)
    (steps : List RealityTraceEventV2) (completed : RealityTraceEventV2) : Prop where
  started : RealityTraceEventV2.create .replayStarted result.runId.val result.planId.val 0 none none
    (startedPayload result lane) = .ok started
  stepEvents : (result.steps.zipIdx 1).mapM (fun p => stepEvent result p.2 p.1) = .ok steps
  completed : RealityTraceEventV2.create lane.completedType result.runId.val result.planId.val
    (steps.length + 1) none none (completedPayload result) = .ok completed

theorem fromReplayResult_eq_ok {artifact : RealityTraceArtifactV2} :
    RealityTraceArtifactV2.fromReplayResult result lane = .ok artifact ↔
      ∃ started steps completed, Narrates result lane started steps completed ∧
        RealityTraceArtifactV2.create lane result.runId.val result.planId.val result.traceHash
          (started :: steps ++ [completed]) = .ok artifact := by
  rw [RealityTraceArtifactV2.fromReplayResult]
  constructor
  · intro h
    obtain ⟨started, hstarted, h⟩ := Imp.except_bind_eq_ok.mp h
    obtain ⟨steps, hsteps, h⟩ := Imp.except_bind_eq_ok.mp h
    obtain ⟨completed, hcompleted, h⟩ := Imp.except_bind_eq_ok.mp h
    exact ⟨started, steps, completed, ⟨hstarted, hsteps, hcompleted⟩, h⟩
  · rintro ⟨started, steps, completed, hnarrates, h⟩
    refine Imp.except_bind_eq_ok.mpr ⟨started, hnarrates.started, ?_⟩
    refine Imp.except_bind_eq_ok.mpr ⟨steps, hnarrates.stepEvents, ?_⟩
    exact Imp.except_bind_eq_ok.mpr ⟨completed, hnarrates.completed, h⟩

omit [Sha256] in
theorem canWrite_int {m n : Nat} (h : CanWrite (.scalar (.int n))) (hle : m ≤ n) : CanWrite (.scalar (.int m)) := by
  have hwritten : ∀ k : Nat, CanWrite (.scalar (.int k)) ↔ k < 10 ^ 4300 := fun k => by
    rw [canWrite_scalar, scalarError, Int.natAbs_natCast, ← Nat.length_toDigits_le_iff (by decide) (by decide)]
    split
    · next hlength => exact iff_of_true rfl hlength
    · next hlength => exact iff_of_false (fun h => by cases h) hlength
  rw [hwritten] at h ⊢
  exact lt_of_le_of_lt hle h

section Narrated

variable {started completed : RealityTraceEventV2} {steps : List RealityTraceEventV2}

/-- A result has steps. -/
theorem steps_ne_nil (result : ReplayRunResult) : result.steps ≠ [] := by
  have hstatus := result.matches_content.status
  rw [RunContent.checkStatus] at hstatus
  split_ifs at hstatus with h
  · exact (Imp.require_eq_ok.mp (Imp.check_bind_eq_ok.mp hstatus).1).1
  · intro hnil
    rw [RunContent.failedSteps, hnil, List.filter_nil] at hstatus
    cases hstatus

theorem Narrates.length (h : Narrates result lane started steps completed) : steps.length = result.steps.length := by
  rw [Imp.length_mapM h.stepEvents, List.length_zipIdx]

/-- Every event is created for its key. -/
theorem Narrates.created (h : Narrates result lane started steps completed) {event : RealityTraceEventV2}
    (hevent : event ∈ started :: steps ++ [completed]) :
    ∃ key ∈ eventKeys result lane, ∃ traceId payload,
      RealityTraceEventV2.create key.eventType result.runId.val result.planId.val key.sequence traceId key.stepId
        payload = .ok event := by
  rw [List.mem_append, List.mem_cons, List.mem_singleton] at hevent
  rcases hevent with (rfl | hevent) | rfl
  · exact ⟨⟨.replayStarted, 0, none⟩, List.mem_append_left _ List.mem_cons_self, _, _, h.started⟩
  · obtain ⟨⟨step, sequence⟩, hmem, hok⟩ := Imp.exists_of_mem_mapM h.stepEvents hevent
    obtain ⟨traceId, payload, -, -, hcreate⟩ := created_of_stepEvent hok
    refine ⟨⟨.replayStep, sequence, some step.stepId.val⟩, ?_, _, _, hcreate⟩
    exact List.mem_append_left _ (List.mem_cons_of_mem _ (List.mem_map.mpr ⟨_, hmem, rfl⟩))
  · refine ⟨⟨lane.completedType, result.steps.length + 1, none⟩, List.mem_append_right _ (List.mem_singleton_self _),
      none, completedPayload result, ?_⟩
    rw [← h.length]
    exact h.completed

theorem Narrates.sequences (h : Narrates result lane started steps completed) :
    (started :: steps ++ [completed]).map (·.sequence) = List.range (result.steps.length + 2) := by
  have hsteps : steps.map (·.sequence) = List.range' 1 result.steps.length := by
    rw [Imp.map_of_mapM (k := Prod.snd) h.stepEvents, List.zipIdx_map_snd]
    intro p event hok
    obtain ⟨traceId, payload, -, -, hcreate⟩ := created_of_stepEvent hok
    exact (created_of_create hcreate).sequence_eq
  rw [List.map_append, List.map_cons, List.map_singleton, hsteps, (created_of_create h.started).sequence_eq,
    (created_of_create h.completed).sequence_eq, h.length, List.range_succ, List.range_eq_range', List.range'_succ]

/-- Events of a trace have different identifiers. -/
theorem Narrates.nodup_eventIds (h : Narrates result lane started steps completed)
    (hfree : EventIdsApart (eventIdentities result lane)) :
    ((started :: steps ++ [completed]).map (·.eventId)).Nodup := by
  have hnodup : ((started :: steps ++ [completed]).map (·.sequence)).Nodup := by
    rw [h.sequences]
    exact List.nodup_range
  have hidentity : ∀ event ∈ started :: steps ++ [completed],
      ∃ key ∈ eventKeys result lane, event.sequence = key.sequence ∧ ∃ d,
        hashOf (key.identity result.runId.val result.planId.val) = .ok d ∧ event.eventId = eventIdOf d := by
    intro event hevent
    obtain ⟨key, hkey, traceId, payload, hcreate⟩ := h.created hevent
    have hcreated := created_of_create hcreate
    obtain ⟨d, hd, hid⟩ := hashOf_of_eventIdFor hcreated.identified
    exact ⟨key, hkey, hcreated.sequence_eq, d, hd, hid⟩
  refine hnodup.of_map.map_on fun event hevent event' hevent' heq => ?_
  obtain ⟨key, hkey, hsequence, d, hd, hid⟩ := hidentity event hevent
  obtain ⟨key', hkey', hsequence', d', hd', hid'⟩ := hidentity event' hevent'
  rw [hid, hid'] at heq
  have halike := alike_of_eventIdOf hfree (Exists.intro key ⟨hkey, .inl rfl⟩) (Exists.intro key' ⟨hkey', .inl rfl⟩)
    (wellKeyed_identityValue ..) (wellKeyed_identityValue ..) hd hd' heq
  refine List.inj_on_of_nodup_map hnodup hevent hevent' ?_
  rw [hsequence, hsequence']
  exact (eq_of_alike_identityValue halike).2.2.1

/-- The events of a trace are stored together. -/
theorem Narrates.matches_fields (h : Narrates result lane started steps completed) (hids : HasStrippedIds result)
    (hfree : EventIdsApart (eventIdentities result lane)) {hash : Sha256Digest}
    (hhash : hashOf (semanticValue lane result.planId.val result.traceHash (started :: steps ++ [completed])) = .ok hash) :
    (⟨lane, result.runId.val, result.planId.val, result.traceHash, hash, started :: steps ++ [completed]⟩ :
      ArtifactFields).Matches where
  texts := ⟨result.runId.matchesPattern, result.planId.matchesPattern⟩
  length := by
    have hpos := List.length_pos_iff.mpr (steps_ne_nil result)
    rw [← h.length] at hpos
    rw [List.length_append, List.length_cons, List.length_singleton]
    omega
  sequences := by
    rw [h.sequences, List.length_append, List.length_cons, List.length_singleton, h.length]
  eventIds := h.nodup_eventIds hfree
  runIds event hevent := by
    obtain ⟨key, -, traceId, payload, hcreate⟩ := h.created hevent
    exact (created_of_create hcreate).runId_eq.trans hids.run
  planIds event hevent := by
    obtain ⟨key, -, traceId, payload, hcreate⟩ := h.created hevent
    exact (created_of_create hcreate).planId_eq.trans hids.plan
  started := congrArg some (created_of_create h.started).eventType_eq
  completed := by
    rw [List.getLast?_concat]
    exact congrArg some (created_of_create h.completed).eventType_eq
  interior event hevent := by
    rw [List.cons_append, List.tail_cons, List.dropLast_concat] at hevent
    obtain ⟨p, -, hok⟩ := Imp.exists_of_mem_mapM h.stepEvents hevent
    obtain ⟨traceId, payload, -, -, hcreate⟩ := created_of_stepEvent hok
    exact (created_of_create hcreate).eventType_eq
  stepIds := by
    have hsteps : steps.map (·.stepId) = result.steps.map fun step => some (Constrained.strip step.stepId.val) := by
      have hfst := congrArg (List.map fun step : ReplayStepResult => some (Constrained.strip step.stepId.val))
        (List.zipIdx_map_fst 1 result.steps)
      rw [List.map_map] at hfst
      refine (Imp.map_of_mapM h.stepEvents fun p event hok => ?_).trans hfst
      obtain ⟨traceId, payload, -, -, hcreate⟩ := created_of_stepEvent hok
      exact (created_of_create hcreate).stepId_eq
    have hval : (result.steps.map fun step => some (Constrained.strip step.stepId.val)) =
        (result.steps.map ReplayStepResult.stepId).map fun id => some id.val := by
      rw [List.map_map]
      exact List.map_congr_left fun step hstep => congrArg some (hids.steps step hstep)
    rw [List.cons_append, List.tail_cons, List.dropLast_concat, hsteps, hval]
    refine result.matches_content.stepIdsUnique.map fun id id' heq => ?_
    exact Constrained.val_injective (Option.some.inj heq)
  hashed := hhash

end Narrated

theorem canWrite_semanticValue {planId : String} {replayTraceHash : Sha256Digest} {events : List RealityTraceEventV2} :
    CanWrite (semanticValue lane planId replayTraceHash events) := by
  rw [semanticValue, canWrite_record (by simp) (by simp)]
  have hevents : CanWrite (.list (events.map fun event => event.semanticProjection)) := by
    refine canWrite_list.mpr fun v hv => ?_
    obtain ⟨event, -, rfl⟩ := List.mem_map.mp hv
    exact EventContent.canWrite_semanticProjection
      (canWrite_of_hashOf event.wellKeyed_projection event.matches_fields.hashed)
  simp only [List.forall_mem_cons, List.not_mem_nil, false_imp_iff, implies_true, and_true]
  exact ⟨canWrite_text _, canWrite_text _, hevents, canWrite_enum _, canWrite_text _, canWrite_text _, canWrite_text _⟩

omit [Sha256] in
theorem RealityTraceLane.completedType_ne (lane : RealityTraceLane) : lane.completedType ≠ .replayStep := by
  cases lane <;> nofun

theorem exists_narrates (hids : HasStrippedIds result)
    (hcount : CanWrite (.scalar (.int (result.steps.length + 1 : ℕ)))) :
    ∃ started steps completed, Narrates result lane started steps completed := by
  have hrun := And.intro result.runId.matchesPattern hids.run
  have hplan := And.intro result.planId.matchesPattern hids.plan
  have hpayload : IsPayload (startedPayload result lane) := isPayload_startedPayload
  obtain ⟨started, hstarted⟩ := @exists_create _ .replayStarted _ _ 0 none none _ hrun hplan nofun
    (iff_of_false nofun fun h => h rfl) (canWrite_int hcount (Nat.zero_le _)) hpayload
  obtain ⟨steps, hsteps⟩ := (Imp.exists_mapM (f := fun p : ReplayStepResult × ℕ => stepEvent result p.2 p.1)
    (l := result.steps.zipIdx 1)).mpr fun ⟨step, sequence⟩ hmem => by
      obtain ⟨-, hle, hmem⟩ := List.mem_zipIdx hmem
      exact exists_stepEvent hids (hmem ▸ List.getElem_mem _) (canWrite_int hcount (by omega))
  have hlength : steps.length = result.steps.length := by rw [Imp.length_mapM hsteps, List.length_zipIdx]
  obtain ⟨completed, hcompleted⟩ := @exists_create _ lane.completedType _ _ (steps.length + 1) none none _ hrun hplan
    nofun (iff_of_false lane.completedType_ne fun h => h rfl) (by rwa [hlength]) isPayload_completedPayload
  exact ⟨started, steps, completed, hstarted, hsteps, hcompleted⟩

theorem exists_fromReplayResult (hfree : EventIdsApart (eventIdentities result lane)) (hids : HasStrippedIds result)
    (hcount : CanWrite (.scalar (.int (result.steps.length + 1 : ℕ)))) :
    ∃ artifact, RealityTraceArtifactV2.fromReplayResult result lane = .ok artifact := by
  obtain ⟨started, steps, completed, hnarrates⟩ : ∃ started steps completed,
      Narrates result lane started steps completed := exists_narrates hids hcount
  obtain ⟨hash, hhash⟩ := exists_hashOf (wellKeyed_semanticValue lane result.planId.val result.traceHash
    (started :: steps ++ [completed])) canWrite_semanticValue
  have hmatches := hnarrates.matches_fields hids hfree hhash
  have hstrip : ArtifactFields.strip ⟨lane, result.runId.val, result.planId.val, result.traceHash, hash,
      started :: steps ++ [completed]⟩ = ⟨lane, result.runId.val, result.planId.val, result.traceHash, hash,
      started :: steps ++ [completed]⟩ := by
    rw [ArtifactFields.strip]
    simp only [hids.run, hids.plan]
  refine ⟨⟨_, ArtifactFields.check_eq_ok.mpr hmatches⟩, fromReplayResult_eq_ok.mpr ⟨started, steps, completed,
    hnarrates, RealityTraceArtifactV2.create_eq_ok.mpr ⟨hash, hhash, ?_⟩⟩⟩
  rw [RealityTraceArtifactV2.ofFields_eq_ok, hstrip]
  exact ⟨hmatches, rfl⟩

end Results

end Hashing

/-! ## A run that does not start -/

namespace Demo

def content : RunContent where
  planId := ⟨"plan.demo", by decide +kernel⟩
  status := .failed
  rootFingerprint := none
  finalFingerprint := none
  steps := [{ stepId := ⟨"root", by decide +kernel⟩, status := .failed,
              failureCode := some ⟨"NOT_READY", by decide +kernel⟩, failedExplained := fun _ => rfl,
              othersUnexplained := fun h => absurd rfl h }]
  actionLog := []
  failedStepId := some ⟨"root", by decide +kernel⟩

theorem checkStatus_content : content.checkStatus = .ok () := by decide +kernel

theorem exists_traceHash : ∃ traceHash, @hashOf Sha2.sha256 content.traceValue = .ok traceHash := by
  let _ := Sha2.sha256
  refine exists_hashOf content.wellKeyed_traceValue ?_
  rw [RunContent.traceValue, canWrite_record (by simp) (by simp)]
  simp [content, ReplayStepResult.toValue, canWrite_record]

variable {runId : NonEmpty} {traceHash : Sha256Digest} (h : @hashOf Sha2.sha256 content.traceValue = .ok traceHash)

include h in
theorem matches_content : @RunContent.Matches Sha2.sha256 content traceHash :=
  @RunContent.Matches.mk Sha2.sha256 content traceHash (List.nodup_singleton _) checkStatus_content (by decide +kernel)
    List.nodup_nil (by decide +kernel) (List.forall_mem_nil _) h

def result (runId : NonEmpty) : @ReplayRunResult Sha2.sha256 :=
  @ReplayRunResult.mk Sha2.sha256 content runId traceHash (List.forall_mem_nil _)
    ((@RunContent.actionLogMatchesStepResults_eq_ok Sha2.sha256 content traceHash).mpr (matches_content h))

def runOne : NonEmpty := ⟨"run.one", by decide +kernel⟩

def runTwo : NonEmpty := ⟨"run.two", by decide +kernel⟩

theorem hasStrippedIds (hrun : Constrained.strip runId.val = runId.val) :
    @HasStrippedIds Sha2.sha256 (result h runId) := by
  have hplan : Constrained.strip "plan.demo" = "plan.demo" := by decide +kernel
  have hroot : Constrained.strip "root" = "root" := by decide +kernel
  exact @HasStrippedIds.mk Sha2.sha256 (result h runId) hrun hplan (List.forall_mem_singleton.mpr hroot)

/-- What the identifiers of the three events are made of. -/
def identities (runId : NonEmpty) : List Value :=
  [identityValue .replayStarted runId.val "plan.demo" 0 none,
    identityValue .replayStep runId.val "plan.demo" 1 (some "root"),
    identityValue .replayCompleted runId.val "plan.demo" 2 none]

theorem eventIdentities_result (hrun : Constrained.strip runId.val = runId.val) :
    @eventIdentities Sha2.sha256 (result h runId) .primary ⊆ {v | v ∈ identities runId} := by
  have hplan : Constrained.strip "plan.demo" = "plan.demo" := by decide +kernel
  have hroot : Constrained.strip "root" = "root" := by decide +kernel
  have hkeys : ∀ key ∈ @eventKeys Sha2.sha256 (result h runId) .primary,
      key.identity runId.val "plan.demo" ∈ identities runId ∧
        key.strippedIdentity runId.val "plan.demo" = key.identity runId.val "plan.demo" := by
    refine List.forall_mem_cons.mpr ⟨?_, List.forall_mem_cons.mpr ⟨?_, List.forall_mem_singleton.mpr ?_⟩⟩
    · refine ⟨List.mem_cons_self, ?_⟩
      rw [EventKey.strippedIdentity, hrun, hplan]
      rfl
    · refine ⟨List.mem_cons_of_mem _ List.mem_cons_self, ?_⟩
      rw [EventKey.strippedIdentity, hrun, hplan, Option.map_some]
      change identityValue _ _ _ _ (some (Constrained.strip "root")) = _
      rw [hroot]
      rfl
    · refine ⟨List.mem_cons_of_mem _ (List.mem_cons_of_mem _ List.mem_cons_self), ?_⟩
      rw [EventKey.strippedIdentity, hrun, hplan]
      rfl
  rintro v ⟨key, hkey, rfl | rfl⟩
  · exact (hkeys key hkey).1
  · exact (hkeys key hkey).2 ▸ (hkeys key hkey).1

/-- What evaluates is the digest. -/
theorem exists_digestOf_of_evaluatedDigest {v : Value} {digest : List Char} (h : evaluatedDigest v = some digest) :
    ∃ d, @digestOf Sha2.sha256 v = .ok d ∧ d.val.toList = digest := by
  have hdigits : isSha256Digest (String.ofList digest) = true := by
    rw [evaluatedDigest] at h
    split at h
    · cases h
    · split at h
      · cases h
      · obtain ⟨digits, hdigits, rfl⟩ := Option.map_eq_some_iff.mp h
        have hhex : isHexDigest (String.ofList digits) = true := by
          rw [← Sha2.hexdigest_of_asciiDigest hdigits]
          exact Sha2.isHexDigest_hexdigest _
        have htag : "sha256:".toList.length = 7 := by decide +kernel
        rw [isSha256Digest, String.toList_ofList, ← htag, List.take_left, List.drop_left, hhex, Bool.and_true]
        exact beq_self_eq_true _
  exact ⟨⟨String.ofList digest, hdigits⟩, digestOf_of_evaluatedDigest (by rw [h, String.toList_ofList]),
    String.toList_ofList⟩

theorem eventIdsApart (starts : List (Value × List Char)) (hrun : Constrained.strip runId.val = runId.val)
    (hvalues : starts.map Prod.fst = identities runId)
    (hdigest : ∀ a ∈ starts, ((evaluatedDigest a.1).map fun digest => (digest.drop 7).take 24) = some a.2)
    (hnodup : (starts.map Prod.snd).Nodup) :
    @EventIdsApart Sha2.sha256 (@eventIdentities Sha2.sha256 (result h runId) .primary) := by
  let _ := Sha2.sha256
  have hstart : ∀ a ∈ starts, ∃ d, digestOf a.1 = .ok d ∧ (d.val.toList.drop 7).take 24 = a.2 := by
    intro a ha
    obtain ⟨digest, heval, hdigits⟩ := Option.map_eq_some_iff.mp (hdigest a ha)
    obtain ⟨d, hd⟩ := exists_digestOf_of_evaluatedDigest heval
    exact ⟨d, hd.1, hd.2 ▸ hdigits⟩
  refine (eventIdsApart_of_nodup hstart hnodup).mono ?_
  rintro bytes ⟨v, hv, hbytes⟩
  obtain ⟨a, ha, rfl⟩ := List.mem_map.mp (hvalues ▸ eventIdentities_result h hrun hv)
  exact ⟨a.1, ⟨a, ha, rfl⟩, hbytes⟩

def startsOne : List (Value × List Char) :=
  (identities runOne).zip ["908b19dbe2be8b5a0142151a".toList, "38a1f6522f1069fb3e83eacc".toList,
    "97a30e5e688c3fd09fdc4611".toList]

def startsTwo : List (Value × List Char) :=
  (identities runTwo).zip ["69bf033a9ee8657bbb7fa4d7".toList, "6c283d6df259cceeab98531d".toList,
    "600d0fa874c34465155e4dc8".toList]

theorem eventIdsApart_one : @EventIdsApart Sha2.sha256 (@eventIdentities Sha2.sha256 (result h runOne) .primary) :=
  eventIdsApart h startsOne (by decide +kernel) rfl (by decide +kernel) (by decide +kernel)

theorem eventIdsApart_two : @EventIdsApart Sha2.sha256 (@eventIdentities Sha2.sha256 (result h runTwo) .primary) :=
  eventIdsApart h startsTwo (by decide +kernel) rfl (by decide +kernel) (by decide +kernel)

theorem canWrite_two : CanWrite (.scalar (.int (2 : ℕ))) := canWrite_scalar.mpr (by decide +kernel)

end Demo

section Hashing

variable [Sha256] {result : ReplayRunResult} {lane : RealityTraceLane}

/-- A trace is derived exactly if the identifiers are stripped and the number of steps can be written. -/
theorem fromReplayResult_iff (hfree : EventIdsApart (eventIdentities result lane)) :
    (∃ artifact, RealityTraceArtifactV2.fromReplayResult result lane = .ok artifact) ↔
      HasStrippedIds result ∧ CanWrite (.scalar (.int (result.steps.length + 1 : ℕ))) := by
  constructor
  · rintro ⟨artifact, h⟩
    obtain ⟨started, steps, completed, hnarrates, -⟩ := fromReplayResult_eq_ok.mp h
    have hkey : (⟨.replayStarted, 0, none⟩ : EventKey) ∈ eventKeys result lane :=
      List.mem_append_left _ List.mem_cons_self
    have hfirst := stripped_of_create hfree hkey hnarrates.started
    refine ⟨⟨hfirst.1.1, hfirst.1.2.1, fun step hstep => ?_⟩, ?_⟩
    · obtain ⟨i, hi, rfl⟩ := List.getElem_of_mem hstep
      have hmem : (result.steps[i], i + 1) ∈ result.steps.zipIdx 1 :=
        List.mem_zipIdx_iff_le_and_getElem?_sub.mpr ⟨Nat.le_add_left 1 i, List.getElem?_eq_getElem hi⟩
      obtain ⟨event, hevent⟩ := Imp.exists_mapM.mp ⟨steps, hnarrates.stepEvents⟩ _ hmem
      obtain ⟨traceId, payload, -, -, hcreate⟩ := created_of_stepEvent hevent
      have hkey : (⟨.replayStep, i + 1, some result.steps[i].stepId.val⟩ : EventKey) ∈ eventKeys result lane :=
        List.mem_append_left _ (List.mem_cons_of_mem _ (List.mem_map.mpr ⟨_, hmem, rfl⟩))
      exact Option.some.inj (stripped_of_create hfree hkey hcreate).1.2.2
    · have hcompleted := hnarrates.completed
      rw [hnarrates.length] at hcompleted
      have hkey : (⟨lane.completedType, result.steps.length + 1, none⟩ : EventKey) ∈ eventKeys result lane :=
        List.mem_append_right _ (List.mem_singleton_self _)
      exact (stripped_of_create hfree hkey hcompleted).2
  · rintro ⟨hids, hcount⟩
    exact exists_fromReplayResult hfree hids hcount

end Hashing

theorem fromReplayResult_iff_runOne : let _ := Sha2.sha256
    ∃ result : ReplayRunResult, result.toRunContent = Demo.content ∧ result.runId = Demo.runOne ∧
      ∃ trace, RealityTraceArtifactV2.fromReplayResult result .primary = .ok trace := by
  obtain ⟨traceHash, h⟩ := Demo.exists_traceHash
  exact ⟨Demo.result h Demo.runOne, rfl, rfl, (@fromReplayResult_iff Sha2.sha256 _ _ (Demo.eventIdsApart_one h)).mpr
    ⟨Demo.hasStrippedIds h (by decide +kernel), Demo.canWrite_two⟩⟩

/-! ## What the semantic hash tells -/

section Semantics

variable [Sha256]

variable {a b : ReplayRunResult} {lane lane' : RealityTraceLane} {trace trace' : RealityTraceArtifactV2}

omit [Sha256] in
theorem RealityTraceLane.value_inj (h : lane.value = lane'.value) : lane = lane' := by
  cases lane <;> cases lane' <;> first | rfl | exact absurd h (by decide)

/-- What the semantic hash of a trace is made of. -/
def RealityTraceArtifactV2.semanticValue (trace : RealityTraceArtifactV2) : Value :=
  Evidence.semanticValue trace.lane trace.planId trace.replayTraceHash trace.events

theorem RealityTraceArtifactV2.digest_semanticValue (trace : RealityTraceArtifactV2) :
    digestOf trace.semanticValue = .ok trace.semanticTraceHash :=
  (hashOf_eq_ok (wellKeyed_semanticValue ..)).mp trace.matches_fields.hashed

/-- The identifier of the run is not in the semantics of an event. -/
theorem semanticProjection_eq_of_created {eventType : RealityTraceEventType} {runId runId' planId : String}
    {sequence : Nat} {traceId : Option TraceId} {stepId : Option String} {payload : List RealityTraceFact}
    {event event' : RealityTraceEventV2} (h : Created eventType runId planId sequence traceId stepId payload event)
    (h' : Created eventType runId' planId sequence traceId stepId payload event') :
    event.semanticProjection = event'.semanticProjection := by
  have htrace : event.traceId = event'.traceId := Except.ok.inj (h.resolved.symm.trans h'.resolved)
  rw [EventContent.semanticProjection, EventContent.semanticProjection, h.eventType_eq, h'.eventType_eq, h.kind_eq,
    h'.kind_eq, h.planId_eq, h'.planId_eq, h.sequence_eq, h'.sequence_eq, h.stepId_eq, h'.stepId_eq, h.payload_eq,
    h'.payload_eq, htrace]

theorem semanticProjection_eq_of_stepEvent (hsame : a.toRunContent = b.toRunContent) {step : ReplayStepResult}
    {sequence : Nat} {event event' : RealityTraceEventV2} (h : stepEvent a sequence step = .ok event)
    (h' : stepEvent b sequence step = .ok event') : event.semanticProjection = event'.semanticProjection := by
  obtain ⟨traceId, payload, hpayload, htrace, hcreate⟩ := created_of_stepEvent h
  obtain ⟨traceId', payload', hpayload', htrace', hcreate'⟩ := created_of_stepEvent h'
  have haction : actionOf a step = actionOf b step := by rw [actionOf, actionOf, hsame]
  rw [hsame, haction] at htrace
  rw [haction] at hpayload
  obtain rfl := Except.ok.inj (htrace.symm.trans htrace')
  obtain rfl := Except.ok.inj (hpayload.symm.trans hpayload')
  rw [hsame] at hcreate
  exact semanticProjection_eq_of_created (created_of_create hcreate) (created_of_create hcreate')

theorem semanticProjections_eq {started started' completed completed' : RealityTraceEventV2}
    {steps steps' : List RealityTraceEventV2} (hsame : a.SameApartFromRunId b)
    (h : Narrates a lane started steps completed) (h' : Narrates b lane started' steps' completed') :
    ((started :: steps ++ [completed]).map fun event => event.semanticProjection) =
      (started' :: steps' ++ [completed']).map fun event => event.semanticProjection := by
  obtain ⟨hcontent, hhash⟩ := hsame
  have hstarted := h.started
  have hsteps := h.stepEvents
  have hcompleted := h.completed
  have hlength := h.length.trans ((congrArg (fun content => content.steps.length) hcontent).trans h'.length.symm)
  rw [startedPayload, hcontent] at hstarted
  rw [hcontent] at hsteps
  rw [completedPayload, hcontent, hhash, hlength] at hcompleted
  simp only [List.map_append, List.map_cons, List.map_nil]
  rw [Imp.map_eq_of_mapM hsteps h'.stepEvents fun p event event' => semanticProjection_eq_of_stepEvent hcontent,
    semanticProjection_eq_of_created (created_of_create hstarted) (created_of_create h'.started),
    semanticProjection_eq_of_created (created_of_create hcompleted) (created_of_create h'.completed)]

theorem stored_of_fromReplayResult (h : RealityTraceArtifactV2.fromReplayResult a lane = .ok trace) :
    ∃ started steps completed hash, Narrates a lane started steps completed ∧ trace.toArtifactFields =
      ArtifactFields.strip ⟨lane, a.runId.val, a.planId.val, a.traceHash, hash, started :: steps ++ [completed]⟩ := by
  obtain ⟨started, steps, completed, hnarrates, hcreate⟩ := fromReplayResult_eq_ok.mp h
  obtain ⟨hash, -, hfields⟩ := RealityTraceArtifactV2.create_eq_ok.mp hcreate
  exact ⟨started, steps, completed, hash, hnarrates, (RealityTraceArtifactV2.ofFields_eq_ok.mp hfields).2⟩

/-- Results that differ in the identifier of the run only have the same semantics. -/
theorem semanticValue_eq_of_same (h : RealityTraceArtifactV2.fromReplayResult a lane = .ok trace)
    (h' : RealityTraceArtifactV2.fromReplayResult b lane = .ok trace') (hsame : a.SameApartFromRunId b) :
    trace.semanticValue = trace'.semanticValue := by
  obtain ⟨started, steps, completed, hash, hnarrates, hstored⟩ := stored_of_fromReplayResult h
  obtain ⟨started', steps', completed', hash', hnarrates', hstored'⟩ := stored_of_fromReplayResult h'
  rw [RealityTraceArtifactV2.semanticValue, RealityTraceArtifactV2.semanticValue, hstored, hstored',
    Evidence.semanticValue, Evidence.semanticValue]
  simp only [ArtifactFields.strip, semanticProjections_eq hsame hnarrates hnarrates', hsame.1, hsame.2]

/-- The semantic hash of a derived trace tells the lane and all of the result but the identifier of the run. -/
theorem semanticTraceHash_eq_iff (h : RealityTraceArtifactV2.fromReplayResult a lane = .ok trace)
    (h' : RealityTraceArtifactV2.fromReplayResult b lane' = .ok trace')
    (hresults : CollisionFree {a.traceValue, b.traceValue})
    (htraces : CollisionFree {trace.semanticValue, trace'.semanticValue}) :
    trace.semanticTraceHash = trace'.semanticTraceHash ↔ lane = lane' ∧ a.SameApartFromRunId b := by
  obtain ⟨started, steps, completed, hash, -, hstored⟩ := stored_of_fromReplayResult h
  obtain ⟨started', steps', completed', hash', -, hstored'⟩ := stored_of_fromReplayResult h'
  have hdigest := trace.digest_semanticValue
  have hdigest' := trace'.digest_semanticValue
  constructor
  · intro heq
    rw [heq] at hdigest
    have halike := htraces.alike (by simp) (by simp) hdigest hdigest'
    have hlane := RealityTraceLane.value_inj (halike.entry 3 rfl rfl).enum
    have hreplay : trace.replayTraceHash = trace'.replayTraceHash := text_inj (halike.entry 5 rfl rfl)
    rw [hstored, hstored'] at hlane hreplay
    exact ⟨hlane, (ReplayRunResult.sameApartFromRunId_iff hresults (by simp) (by simp)).mpr hreplay⟩
  · rintro ⟨rfl, hsame⟩
    rw [semanticValue_eq_of_same h h' hsame] at hdigest
    exact Except.ok.inj (hdigest.symm.trans hdigest')

end Semantics

theorem semanticTraceHash_eq_iff_runs : let _ := Sha2.sha256
    ∃ a b : ReplayRunResult, ∃ trace trace', a.runId = Demo.runOne ∧ b.runId = Demo.runTwo ∧
      RealityTraceArtifactV2.fromReplayResult a .primary = .ok trace ∧
      RealityTraceArtifactV2.fromReplayResult b .primary = .ok trace' ∧
        trace.semanticTraceHash = trace'.semanticTraceHash := by
  intro _
  obtain ⟨traceHash, hhash⟩ := Demo.exists_traceHash
  obtain ⟨trace, h⟩ := exists_fromReplayResult (Demo.eventIdsApart_one hhash)
    (Demo.hasStrippedIds hhash (by decide +kernel)) Demo.canWrite_two
  obtain ⟨trace', h'⟩ := exists_fromReplayResult (Demo.eventIdsApart_two hhash)
    (Demo.hasStrippedIds hhash (by decide +kernel)) Demo.canWrite_two
  have hsame : (Demo.result hhash Demo.runOne).SameApartFromRunId (Demo.result hhash Demo.runTwo) := ⟨rfl, rfl⟩
  have hsingle : ∀ v : Value, CollisionFree {v, v} := by
    rintro v bytes ⟨w, hw, hbytes⟩ bytes' ⟨w', hw', hbytes'⟩ -
    rw [Set.pair_eq_singleton, Set.mem_singleton_iff] at hw hw'
    rw [hw] at hbytes
    rw [hw', hbytes] at hbytes'
    exact Except.ok.inj hbytes'
  refine ⟨_, _, trace, trace', rfl, rfl, h, h', (semanticTraceHash_eq_iff h h' (hsingle _) ?_).mpr ⟨rfl, hsame⟩⟩
  rw [semanticValue_eq_of_same h h' hsame]
  exact hsingle _

end StateWeaver.Evidence
