import StateWeaver.Contracts.Alike

/-!
# The chain of events

A list of events is the list of a history exactly when it is canonical: numbered from 1, linked by the
hashes, intact, of one run of one experiment, and in order of time. The head of a history determines
its events.
-/

namespace StateWeaver.Contracts

/-! ## Specification -/

/-- Events with their sequence numbers and hashes. -/
def eventChain : HashChain EventEnvelope Sha256Digest where
  position := fun e => e.sequence
  previous := fun e => e.prevEventHash
  hash := EventEnvelope.semanticHash

/-- Whether an event is not later than another. -/
def NotLater (e e' : EventEnvelope) : Prop := e.timestamp.microseconds ≤ e'.timestamp.microseconds

instance : IsTrans EventEnvelope NotLater := ⟨fun _ _ _ h h' => Int.le_trans h h'⟩

/-- Events that are equal, their payloads up to the order of the entries of objects. -/
structure SameEvent (e e' : EventEnvelope) : Prop where
  eventId : e.eventId = e'.eventId
  sequence : e.sequence = e'.sequence
  prevEventHash : e.prevEventHash = e'.prevEventHash
  eventType : e.eventType = e'.eventType
  experimentId : e.experimentId = e'.experimentId
  runId : e.runId = e'.runId
  worldId : e.worldId = e'.worldId
  actor : e.actor = e'.actor
  traceId : e.traceId = e'.traceId
  timestamp : e.timestamp = e'.timestamp
  payloadHash : e.payloadHash = e'.payloadHash
  semanticHash : e.semanticHash = e'.semanticHash
  payload : (Json.obj e.payload.entries).Same (.obj e'.payload.entries)

/-- The values that are hashed for an event. -/
def EventEnvelope.hashed (e : EventEnvelope) : Set Value :=
  {e.payload.toValue, e.semanticValue e.payloadHash, eventIdValue e.semanticHash}

/-- The values that are hashed for some events. -/
def hashed (events : List EventEnvelope) : Set Value := {v | ∃ e ∈ events, v ∈ e.hashed}

variable [Sha256]

/-- An event whose hashes recompute from its content. -/
structure EventEnvelope.Intact (e : EventEnvelope) : Prop where
  payloadHash : digestOf e.payload.toValue = .ok e.payloadHash
  semanticHash : digestOf (e.semanticValue e.payloadHash) = .ok e.semanticHash
  eventId : digestOf (eventIdValue e.semanticHash) = .ok e.eventId

/-- What the events of a history are. -/
structure Canonical (events : List EventEnvelope) : Prop where
  nonempty : events ≠ []
  linked : eventChain.Linked 1 none events
  intact : ∀ e ∈ events, e.Intact
  experiment : ∀ e ∈ events, ∀ e' ∈ events, e.experimentId = e'.experimentId
  run : ∀ e ∈ events, ∀ e' ∈ events, e.runId = e'.runId
  times : events.Pairwise NotLater

/-- Whether a history is accepted. -/
def EventHistory.Accepted (h : EventHistory) : Prop := h.historyIsExactAndSelfConsistent = .ok ()

/-! ## Texts determine values -/

omit [Sha256] in
theorem EventType.value_inj {a b : EventType} (h : a.value = b.value) : a = b := by
  have hall : ([.experimentCreated, .scopeValidated, .baselineCaptureStarted,
      .baselineCaptureCompleted, .twinFactUpserted, .twinTransitionLearned, .twinDivergenceDetected,
      .hypothesisProposed, .worldForked, .worldPromoted, .worldPruned, .worldPromotionLifecycle,
      .worldMaterializationStarted, .worldMaterializationCompleted, .actionProposed,
      .actionAuthorized, .actionExecuted, .observationCaptured, .oracleViolated, .fragmentExtracted,
      .chainCompiled, .replayStarted, .replayCompleted, .findingVerified, .findingRejected,
      .patchReplayCompleted].map EventType.value).Nodup := by decide +kernel
  refine List.inj_on_of_nodup_map hall ?_ ?_ h
  · cases a <;> decide
  · cases b <;> decide

omit [Sha256] in
theorem requestedBy_inj {a b : RequestedBy} (h : Alike a.toValue b.toValue) : a = b := by
  have htype := RequesterType.value_inj (h.entry 0 rfl rfl).enum
  have hrole := text_inj (h.entry 1 rfl rfl)
  have hactor := optionalText_inj (h.entry 2 rfl rfl).scalar
  cases a
  cases b
  exact (RequestedBy.mk.injEq ..).mpr ⟨htype, hrole, hactor⟩

/-! ## The head determines the events -/

variable {events : List EventEnvelope} {e e' : EventEnvelope} {values : Set Value}

/-- Intact events with one hash have the same content. -/
theorem sameEvent_of_semanticHash_eq (hfree : CollisionFree values) (h : e.Intact) (h' : e'.Intact)
    (hsub : e.hashed ⊆ values) (hsub' : e'.hashed ⊆ values) (heq : e.semanticHash = e'.semanticHash) :
    SameEvent e e' := by
  have hpayload : ∀ e : EventEnvelope, e.payload.toValue ∈ e.hashed := fun e => .inl rfl
  have hsemantic : ∀ e : EventEnvelope, e.semanticValue e.payloadHash ∈ e.hashed :=
    fun e => .inr (.inl rfl)
  have halike := hfree.alike (hsub (hsemantic e)) (hsub' (hsemantic e')) (heq ▸ h.semanticHash)
    h'.semanticHash
  have hpayloadHash : e.payloadHash = e'.payloadHash := text_inj (halike.entry 11 rfl rfl)
  refine ⟨?_, ?_, ?_, ?_, ?_, ?_, ?_, ?_, ?_, ?_, hpayloadHash, heq, ?_⟩
  · have hid := h.eventId
    rw [heq, h'.eventId] at hid
    exact (Except.ok.inj hid).symm
  · exact Int.natCast_inj.mp (Py.Scalar.int.inj (halike.entry 9 rfl rfl).scalar)
  · exact optionalText_inj (halike.entry 10 rfl rfl).scalar
  · exact EventType.value_inj (halike.entry 2 rfl rfl).enum
  · exact text_inj (halike.entry 3 rfl rfl)
  · exact text_inj (halike.entry 4 rfl rfl)
  · exact optionalText_inj (halike.entry 5 rfl rfl).scalar
  · exact requestedBy_inj (halike.entry 6 rfl rfl)
  · exact text_inj (halike.entry 7 rfl rfl)
  · exact (halike.entry 8 rfl rfl).datetime
  · have hdigest := h.payloadHash
    rw [hpayloadHash] at hdigest
    exact (hfree.alike (hsub (hpayload e)) (hsub' (hpayload e')) hdigest h'.payloadHash).ofJson

theorem Canonical.forall₂_sameEvent {events' : List EventEnvelope} (h : Canonical events)
    (h' : Canonical events') (hfree : CollisionFree (hashed events ∪ hashed events'))
    (hlast : events.getLast?.map EventEnvelope.semanticHash =
      events'.getLast?.map EventEnvelope.semanticHash) : List.Forall₂ SameEvent events events' := by
  refine h.linked.forall₂_of_getLast_eq h'.linked (fun e he e' he' heq => ?_)
    (fun _ _ hsame => hsame.sequence) (fun _ _ hsame => hsame.prevEventHash) h.nonempty hlast
  exact sameEvent_of_semanticHash_eq hfree (h.intact e he) (h'.intact e' he')
    (fun v hv => .inl ⟨e, he, hv⟩) (fun v hv => .inr ⟨e', he', hv⟩) heq

/-! ## What is accepted -/

theorem integrityFieldsMatchContent_eq_ok : e.integrityFieldsMatchContent = .ok () ↔ e.Intact := by
  rw [EventEnvelope.integrityFieldsMatchContent]
  constructor
  · intro h
    obtain ⟨payloadHash, hpayload, h⟩ := Imp.except_bind_eq_ok.mp h
    obtain ⟨heq, h⟩ := Imp.check_bind_eq_ok.mp h
    obtain ⟨semanticHash, hsemantic, h⟩ := Imp.except_bind_eq_ok.mp h
    obtain ⟨heq', h⟩ := Imp.check_bind_eq_ok.mp h
    obtain ⟨eventId, hid, h⟩ := Imp.except_bind_eq_ok.mp h
    rw [Imp.require_eq_ok] at heq heq' h
    exact ⟨heq ▸ hpayload, heq' ▸ hsemantic, h ▸ hid⟩
  · intro h
    refine Imp.except_bind_eq_ok.mpr ⟨_, h.payloadHash, ?_⟩
    refine Imp.check_bind_eq_ok.mpr ⟨Imp.require_eq_ok.mpr rfl, ?_⟩
    refine Imp.except_bind_eq_ok.mpr ⟨_, h.semanticHash, ?_⟩
    refine Imp.check_bind_eq_ok.mpr ⟨Imp.require_eq_ok.mpr rfl, ?_⟩
    exact Imp.except_bind_eq_ok.mpr ⟨_, h.eventId, Imp.require_eq_ok.mpr rfl⟩

omit [Sha256] in
theorem checkEvents_eq_ok {experimentId runId : ContractId} {n : ℕ} {previous : Option EventEnvelope} :
    checkEvents experimentId runId n previous events = .ok () ↔
      eventChain.Linked n (previous.map EventEnvelope.semanticHash) events ∧
        (∀ e ∈ events, e.experimentId = experimentId ∧ e.runId = runId) ∧
          (previous.toList ++ events).IsChain NotLater := by
  induction events generalizing n previous with
  | nil =>
      refine iff_of_true rfl ⟨trivial, List.forall_mem_nil _, ?_⟩
      cases previous
      · exact .nil
      · exact .singleton _
  | cons e events ih =>
      have hprevious : checkPrevious e previous = .ok () ↔
          e.prevEventHash = previous.map EventEnvelope.semanticHash ∧
            ∀ p ∈ previous, NotLater p e := by
        cases previous with
        | none => exact Imp.require_eq_ok.trans (and_iff_left (by simp)).symm
        | some p =>
            rw [checkPrevious, Imp.check_bind_eq_ok, Imp.require_eq_ok, Imp.require_eq_ok]
            exact and_congr_right fun _ => by simp [NotLater]
      have hchain : (previous.toList ++ e :: events).IsChain NotLater ↔
          (∀ p ∈ previous, NotLater p e) ∧ (e :: events).IsChain NotLater := by
        cases previous with
        | none => exact (and_iff_right (by simp)).symm
        | some p => exact List.isChain_cons_cons.trans (and_congr_left' (by simp))
      rw [checkEvents, Imp.check_bind_eq_ok, Imp.check_bind_eq_ok, Imp.check_bind_eq_ok, ih, hprevious,
        hchain, List.forall_mem_cons, HashChain.Linked, Imp.require_eq_ok, Imp.require_eq_ok]
      constructor
      · rintro ⟨hsequence, hids, ⟨hhash, htime⟩, hlinked, hall, htimes⟩
        exact ⟨⟨hsequence, hhash, hlinked⟩, ⟨hids, hall⟩, htime, htimes⟩
      · rintro ⟨⟨hsequence, hhash, hlinked⟩, ⟨hids, hall⟩, htime, htimes⟩
        exact ⟨hsequence, hids, ⟨hhash, htime⟩, hlinked, hall, htimes⟩

/-- What the validator of a history establishes. -/
theorem EventHistory.accepted_iff {h : EventHistory} : h.Accepted ↔
    (∀ e ∈ h.events, e.Intact) ∧ ∃ last, h.events.getLast? = some last ∧
      h.eventCount = h.events.length ∧ (h.events.map EventEnvelope.eventId).Nodup ∧
      checkEvents h.experimentId h.runId 1 none h.events = .ok () ∧
      h.headHash = last.semanticHash ∧
      digestOf (historyValue h.experimentId h.runId h.eventCount h.headHash h.events) =
        .ok h.historyHash := by
  rw [EventHistory.Accepted, EventHistory.historyIsExactAndSelfConsistent, Imp.check_bind_eq_ok,
    Imp.forEach_eq_ok]
  refine and_congr (forall₂_congr fun _ _ => integrityFieldsMatchContent_eq_ok) ?_
  cases h.events.getLast? with
  | none =>
      refine iff_of_false (fun h => by cases h) ?_
      rintro ⟨last, hlast, -⟩
      cases hlast
  | some last =>
      simp only [Option.some.injEq, exists_eq_left']
      rw [Imp.check_bind_eq_ok, Imp.check_bind_eq_ok, Imp.check_bind_eq_ok, Imp.check_bind_eq_ok,
        Imp.require_eq_ok, Imp.require_eq_ok, Imp.require_eq_ok, Imp.except_bind_eq_ok]
      refine and_congr_right fun _ => and_congr_right fun _ => and_congr_right fun _ =>
        and_congr_right fun _ => ?_
      constructor
      · rintro ⟨d, hd, heq⟩
        rw [Imp.require_eq_ok.mp heq]
        exact hd
      · exact fun hd => ⟨_, hd, Imp.require_eq_ok.mpr rfl⟩

theorem EventHistory.Accepted.canonical {h : EventHistory} (haccepted : h.Accepted) :
    Canonical h.events := by
  obtain ⟨hintact, last, hlast, -, -, hcheck, -, -⟩ := EventHistory.accepted_iff.mp haccepted
  obtain ⟨hlinked, hids, htimes⟩ := checkEvents_eq_ok.mp hcheck
  refine ⟨?_, hlinked, hintact, fun e he e' he' => ?_, fun e he e' he' => ?_,
    List.isChain_iff_pairwise.mp htimes⟩
  · rintro hnil
    rw [hnil] at hlast
    cases hlast
  · rw [(hids e he).1, (hids e' he').1]
  · rw [(hids e he).2, (hids e' he').2]

theorem EventHistory.Accepted.getLast {h : EventHistory} (haccepted : h.Accepted) :
    h.events.getLast?.map EventEnvelope.semanticHash = some h.headHash := by
  obtain ⟨-, last, hlast, -, -, -, hhead, -⟩ := EventHistory.accepted_iff.mp haccepted
  rw [hlast, hhead]
  rfl

/-- Events with different sequence numbers have different identifiers. -/
theorem Canonical.nodup_eventId (h : Canonical events) (hfree : CollisionFree (hashed events)) :
    (events.map EventEnvelope.eventId).Nodup := by
  refine List.pairwise_map.mpr ?_
  refine (List.pairwise_map.mp h.linked.nodup_position).imp_of_mem fun {e e'} he he' hne heq => hne ?_
  have hmem : ∀ e ∈ events, eventIdValue e.semanticHash ∈ hashed events :=
    fun e he => ⟨e, he, .inr (.inr rfl)⟩
  have halike := hfree.alike (hmem e he) (hmem e' he') (heq ▸ (h.intact e he).eventId)
    (h.intact e' he').eventId
  have hsame := sameEvent_of_semanticHash_eq hfree (h.intact e he) (h.intact e' he')
    (fun v hv => ⟨e, he, hv⟩) (fun v hv => ⟨e', he', hv⟩) (text_inj (halike.entry 1 rfl rfl))
  exact hsame.sequence

/-- The plain JSON of the value that is hashed for a history. -/
def historyJson (experimentId runId : ContractId) (eventCount : ℕ) (headHash : Sha256Digest)
    (events : List EventEnvelope) : PlainJson :=
  .obj
    [("domain", .scalar (.str "stateweaver.event.history.v2")),
      ("schema_version", .scalar (.str "2.0")),
      ("experiment_id", .scalar (.str experimentId.val)), ("run_id", .scalar (.str runId.val)),
      ("event_count", .scalar (.int eventCount)), ("head_hash", .scalar (.str headHash.val)),
      ("events", .arr (events.map fun e => .obj
        [("event_id", .scalar (.str e.eventId.val)),
          ("semantic_hash", .scalar (.str e.semanticHash.val))]))]

omit [Sha256] in
theorem ofJson_historyJson (experimentId runId : ContractId) (eventCount : ℕ)
    (headHash : Sha256Digest) (events : List EventEnvelope) :
    .ofJson (historyJson experimentId runId eventCount headHash events) =
      historyValue experimentId runId eventCount headHash events := by
  have hitems : ∀ f : EventEnvelope → PlainJson,
      Value.ofItems (events.map f) = events.map fun e => .ofJson (f e) := by
    intro f
    induction events with
    | nil => rfl
    | cons e events ih => rw [List.map_cons, Value.ofItems, ih, List.map_cons]
  simp only [historyJson, Value.ofJson, Value.ofEntries, hitems]
  rfl

/-- A history can be hashed if the number of its events can be written. -/
theorem exists_historyHash (experimentId runId : ContractId) {eventCount : ℕ}
    (headHash : Sha256Digest) (events : List EventEnvelope)
    (hcount : scalarError (.int eventCount) = none) :
    ∃ d, digestOf (historyValue experimentId runId eventCount headHash events) = .ok d := by
  have hkeys : ["domain", "schema_version", "experiment_id", "run_id", "event_count", "head_hash",
      "events"].Nodup := by decide +kernel
  have hentryKeys : ["event_id", "semantic_hash"].Nodup := by decide +kernel
  have hdistinct : (historyJson experimentId runId eventCount headHash events).Distinct := by
    refine .obj hkeys ?_
    simp only [List.forall_mem_cons, Json.Distinct.scalar, true_and]
    refine ⟨.arr fun v hv => ?_, List.forall_mem_nil _⟩
    obtain ⟨e, -, rfl⟩ := List.mem_map.mp hv
    refine .obj hentryKeys ?_
    simp only [List.forall_mem_cons, Json.Distinct.scalar, true_and]
    exact List.forall_mem_nil _
  have hscalars : ∀ s ∈ (historyJson experimentId runId eventCount headHash events).scalars,
      (∃ text, s = .str text) ∨ s = .int eventCount := by
    intro s hs
    simp only [historyJson, Json.scalars, Json.entriesScalars, List.mem_append,
      List.mem_singleton] at hs
    rcases hs with hs | hs | hs | hs | hs | hs | hs | hs
    · exact .inl ⟨_, hs⟩
    · exact .inl ⟨_, hs⟩
    · exact .inl ⟨_, hs⟩
    · exact .inl ⟨_, hs⟩
    · exact .inr hs
    · exact .inl ⟨_, hs⟩
    · obtain ⟨v, hv, hs⟩ := Json.mem_itemsScalars.mp hs
      obtain ⟨e, -, rfl⟩ := List.mem_map.mp hv
      rcases List.mem_cons.mp hs with hs | hs
      · exact .inl ⟨_, hs⟩
      · exact .inl ⟨_, List.mem_singleton.mp hs⟩
    · cases hs
  have hwritten : ∀ s ∈ (historyJson experimentId runId eventCount headHash events).scalars,
      scalarError s = none := by
    intro s hs
    rcases hscalars s hs with ⟨text, rfl⟩ | rfl
    · rfl
    · exact hcount
  have hbytes := canonicalJsonBytes_ofJson.mpr ⟨hdistinct, hwritten, rfl⟩
  rw [ofJson_historyJson] at hbytes
  exact exists_digestOf hbytes

/-- Canonical events make a history. -/
theorem Canonical.exists_create (h : Canonical events) (hfree : CollisionFree (hashed events)) :
    ∃ experimentId runId history, EventHistory.create experimentId runId events = .ok history ∧
      history.events = events := by
  have hlast := List.getLast?_eq_some_getLast h.nonempty
  have hmem := List.getLast_mem h.nonempty
  generalize events.getLast h.nonempty = last at hlast hmem
  -- the last sequence number has been written already, and it is the number of events
  have hcount : scalarError (.int events.length) = none := by
    obtain ⟨bytes, hbytes, -⟩ := digestOf_eq_ok.mp (h.intact last hmem).semanticHash
    have hposition : last.sequence + 1 = 1 + events.length := h.linked.position_getLast hlast
    have hsequence : last.sequence = events.length := by omega
    rw [← hsequence]
    exact scalarError_of_entry hbytes (List.mem_of_getElem? (i := 9) rfl)
  obtain ⟨historyHash, hhash⟩ := exists_historyHash last.experimentId last.runId
    last.semanticHash events hcount
  let history : EventHistory := ⟨last.experimentId, last.runId, events.length, last.semanticHash,
    historyHash, events, List.length_pos_of_mem hmem⟩
  have haccepted : history.Accepted := by
    refine EventHistory.accepted_iff.mpr ⟨h.intact, last, hlast, rfl, h.nodup_eventId hfree, ?_, rfl,
      hhash⟩
    refine checkEvents_eq_ok.mpr ⟨h.linked, fun e he => ?_, List.isChain_iff_pairwise.mpr h.times⟩
    exact ⟨h.experiment e he last hmem, h.run e he last hmem⟩
  refine ⟨last.experimentId, last.runId, history, ?_, rfl⟩
  rw [EventHistory.create]
  split
  · next hnone =>
      rw [hnone] at hlast
      cases hlast
  · next last' hlast' =>
      obtain rfl : last = last' := Option.some.inj (hlast.symm.trans hlast')
      exact Imp.except_bind_eq_ok.mpr ⟨historyHash, hhash, Imp.check_bind_eq_ok.mpr ⟨haccepted, rfl⟩⟩

theorem accepted_of_create {experimentId runId : ContractId} {history : EventHistory}
    (h : EventHistory.create experimentId runId events = .ok history) : history.Accepted := by
  rw [EventHistory.create] at h
  split at h
  · cases h
  · obtain ⟨historyHash, -, hcreated⟩ := Imp.except_bind_eq_ok.mp h
    obtain ⟨haccepted, hcreated⟩ := Imp.check_bind_eq_ok.mp hcreated
    cases hcreated
    exact haccepted

/-- The chain of events: histories with one head have the same events, and the lists of events that
are accepted are the canonical ones. -/
theorem eventChain_spec :
    (∀ h h' : EventHistory, CollisionFree (hashed h.events ∪ hashed h'.events) → h.Accepted →
      h'.Accepted → h.headHash = h'.headHash → List.Forall₂ SameEvent h.events h'.events) ∧
    (∀ events : List EventEnvelope, CollisionFree (hashed events) →
      ((∃ h : EventHistory, h.Accepted ∧ h.events = events) ↔ Canonical events)) ∧
    ∀ events : List EventEnvelope, CollisionFree (hashed events) →
      ((∃ experimentId runId h, EventHistory.create experimentId runId events = .ok h ∧
        h.events = events) ↔ Canonical events) := by
  refine ⟨fun h h' hfree haccepted haccepted' hhead => ?_, fun events hfree => ⟨?_, ?_⟩,
    fun events hfree => ⟨?_, fun hcanonical => hcanonical.exists_create hfree⟩⟩
  · refine haccepted.canonical.forall₂_sameEvent haccepted'.canonical hfree ?_
    rw [haccepted.getLast, haccepted'.getLast, hhead]
  · rintro ⟨h, haccepted, rfl⟩
    exact haccepted.canonical
  · intro hcanonical
    obtain ⟨experimentId, runId, h, hcreate, hevents⟩ := hcanonical.exists_create hfree
    exact ⟨h, accepted_of_create hcreate, hevents⟩
  · rintro ⟨experimentId, runId, h, hcreate, rfl⟩
    exact (accepted_of_create hcreate).canonical

end StateWeaver.Contracts

/-! ## Two events -/

namespace StateWeaver.Contracts.Demo

def event (experimentId : ContractId) (sequence : Nat) (prevEventHash : Option Sha256Digest)
    (eventId semanticHash : Sha256Digest) (hpositive : 0 < sequence) : EventEnvelope where
  eventType := .worldForked
  experimentId := experimentId
  runId := ⟨"run.one", by decide +kernel⟩
  actor := ⟨.workflow, ⟨"tester", by decide +kernel⟩, none⟩
  traceId := ⟨"00000000000000000000000000000000", by decide +kernel⟩
  timestamp := ⟨0⟩
  payload := ⟨[], .obj List.nodup_nil nofun, nofun, nofun⟩
  sequence := sequence
  prevEventHash := prevEventHash
  sequencePositive := hpositive
  eventId := eventId
  payloadHash :=
    ⟨"sha256:44136fa355b3678a1146ad16f7e8649e94fb4fc21fe77e8310c060f61caaff8a", by decide +kernel⟩
  semanticHash := semanticHash

/-- An event and its successor, of one run but of two experiments. -/
def first : EventEnvelope :=
  event ⟨"experiment.one", by decide +kernel⟩ 1 none
    ⟨"sha256:ae7e849af91f7eda3d665c603b77d97e3ae37b1f27544f95b92b2d71a668db52", by decide +kernel⟩
    ⟨"sha256:b493cef4293e1c0ad5a74a687a3a006c3bdc11c1a62683bc05f571d0d85b81d5", by decide +kernel⟩
    (by decide)

def second : EventEnvelope :=
  event ⟨"experiment.two", by decide +kernel⟩ 2 (some first.semanticHash)
    ⟨"sha256:75362445cb25ed9ca02d9c8327b5a1e59295f20616a0a0557748017f25452654", by decide +kernel⟩
    ⟨"sha256:d3671647ede243da4adc6547f4ba75836f86d03072749ff681a5e03bb254df7e", by decide +kernel⟩
    (by decide)

theorem first_intact : @EventEnvelope.Intact Sha2.sha256 first :=
  let _ := Sha2.sha256
  ⟨digestOf_of_evaluatedDigest (by decide +kernel), digestOf_of_evaluatedDigest (by decide +kernel),
    digestOf_of_evaluatedDigest (by decide +kernel)⟩

theorem second_intact : @EventEnvelope.Intact Sha2.sha256 second :=
  let _ := Sha2.sha256
  ⟨digestOf_of_evaluatedDigest (by decide +kernel), digestOf_of_evaluatedDigest (by decide +kernel),
    digestOf_of_evaluatedDigest (by decide +kernel)⟩

/-- The digests of both events are different, except that their payloads are the same. -/
theorem collisionFree : @CollisionFree Sha2.sha256 (hashed [first, second]) := by
  let _ := Sha2.sha256
  let hashes : List (Value × Sha256Digest) :=
    [(first.payload.toValue, first.payloadHash),
      (first.semanticValue first.payloadHash, first.semanticHash),
      (eventIdValue first.semanticHash, first.eventId),
      (second.semanticValue second.payloadHash, second.semanticHash),
      (eventIdValue second.semanticHash, second.eventId)]
  have hdigests : ∀ a ∈ hashes, digestOf a.1 = .ok a.2 := by
    simp only [hashes, List.forall_mem_cons]
    exact ⟨first_intact.payloadHash, first_intact.semanticHash, first_intact.eventId,
      second_intact.semanticHash, second_intact.eventId, List.forall_mem_nil _⟩
  have hnodup : (hashes.map fun a => a.2.val).Nodup := by decide +kernel
  have hfree := collisionFree_of_nodup hdigests (List.Nodup.of_map Constrained.val (by
    rw [List.map_map]
    exact hnodup))
  refine hfree.mono ?_
  rintro v ⟨e, he, hv⟩
  rcases List.mem_cons.mp he with rfl | he
  · rcases hv with rfl | rfl | rfl
    · exact ⟨_, List.mem_of_getElem? (i := 0) rfl, rfl⟩
    · exact ⟨_, List.mem_of_getElem? (i := 1) rfl, rfl⟩
    · exact ⟨_, List.mem_of_getElem? (i := 2) rfl, rfl⟩
  · rw [List.mem_singleton.mp he] at hv
    rcases hv with rfl | rfl | rfl
    · exact ⟨_, List.mem_of_getElem? (i := 0) rfl, rfl⟩
    · exact ⟨_, List.mem_of_getElem? (i := 3) rfl, rfl⟩
    · exact ⟨_, List.mem_of_getElem? (i := 4) rfl, rfl⟩

/-- The first event alone is a history. -/
theorem first_accepted : let _ := Sha2.sha256
    ∃ h : EventHistory, h.Accepted ∧ h.events = [first] ∧
      List.Forall₂ SameEvent h.events h.events := by
  intro _
  have hsub : hashed [first] ⊆ hashed [first, second] := by
    rintro v ⟨e, he, hv⟩
    exact ⟨e, List.mem_cons.mpr (.inl (List.mem_singleton.mp he)), hv⟩
  have hfree := collisionFree.mono hsub
  have hcanonical : Canonical [first] := by
    refine ⟨List.cons_ne_nil _ _, ⟨rfl, rfl, trivial⟩, List.forall_mem_singleton.mpr first_intact, ?_,
      ?_, List.pairwise_singleton _ _⟩
    · exact List.forall_mem_singleton.mpr (List.forall_mem_singleton.mpr rfl)
    · exact List.forall_mem_singleton.mpr (List.forall_mem_singleton.mpr rfl)
  obtain ⟨h, haccepted, hevents⟩ := (eventChain_spec.2.1 [first] hfree).mpr hcanonical
  refine ⟨h, haccepted, hevents, ?_⟩
  refine eventChain_spec.1 h h ?_ haccepted haccepted rfl
  rw [hevents, Set.union_self]
  exact hfree

/-- Events of one run are not accepted if they are of two experiments, or if there are none. -/
theorem not_accepted_of_run : let _ := Sha2.sha256
    (CollisionFree (hashed [first, second]) ∧ eventChain.Linked 1 none [first, second] ∧
      (∀ e ∈ [first, second], e.Intact) ∧
      (∀ e ∈ [first, second], ∀ e' ∈ [first, second], e.runId = e'.runId) ∧
      [first, second].Pairwise NotLater ∧
      ¬∃ h : EventHistory, h.Accepted ∧ h.events = [first, second]) ∧
    ¬∃ h : EventHistory, h.Accepted ∧ h.events = [] := by
  intro _
  have hrun : ∀ e ∈ [first, second], e.runId = first.runId :=
    List.forall_mem_cons.mpr ⟨rfl, List.forall_mem_singleton.mpr rfl⟩
  refine ⟨⟨collisionFree, ⟨rfl, rfl, rfl, rfl, trivial⟩, ?_, ?_, ?_, ?_⟩, ?_⟩
  · exact List.forall_mem_cons.mpr ⟨first_intact, List.forall_mem_singleton.mpr second_intact⟩
  · exact fun e he e' he' => (hrun e he).trans (hrun e' he').symm
  · exact List.pairwise_pair.mpr (Int.le_refl 0)
  · rintro ⟨h, haccepted, hevents⟩
    have hcanonical := haccepted.canonical
    rw [hevents] at hcanonical
    have hexperiment := hcanonical.experiment first List.mem_cons_self second
      (List.mem_cons_of_mem _ List.mem_cons_self)
    have hne : first.experimentId.val ≠ second.experimentId.val := by decide +kernel
    exact hne (congrArg Constrained.val hexperiment)
  · rintro ⟨h, haccepted, hevents⟩
    exact haccepted.canonical.nonempty hevents

end StateWeaver.Contracts.Demo
