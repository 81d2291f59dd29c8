import StateWeaver.Lab.LabState

/-!
# What the lab discloses

In every run the state of the lab tells what was done since the last reset. So the protected document goes to somebody
else exactly if the lab is vulnerable and the whole chain was done with the old session, within the replay window, and
the oracle finds a violation exactly if this has happened.
-/

namespace StateWeaver.Lab

open Py (Text text)

/-! ## The fixtures in a run -/

def FixtureSessionId.principalId : FixtureSessionId → PrincipalId
  | .tenantAOld | .tenantAFresh => .aEditor
  | .tenantBViewer => .bViewer
  | .labAdmin => .admin

def FixtureSessionId.tenantId : FixtureSessionId → TenantId
  | .tenantAOld | .tenantAFresh => .a
  | .tenantBViewer => .b
  | .labAdmin => .platform

/-- The cached decision, which is about the document of tenant A. -/
def primedCache : AuthorizationCacheEntry := ⟨.aEditor, text "document:read", true, .tenantAOwned, .a, 1⟩

def downgradedPrincipals (id : PrincipalId) : PrincipalFixture :=
  if id = .aEditor then { canonicalPrincipals .aEditor with role := .viewer } else canonicalPrincipals id

/-- The sessions after a downgrade. -/
def sessionsAfter (t : ℕ) (id : FixtureSessionId) : Option SessionFixture :=
  if id = .tenantAFresh then some ⟨.tenantAFresh, .aEditor, .viewer, 2, t, t + seconds 3600⟩ else canonicalSessions id

/-! ## What a state tells -/

/-- A run in which nobody was downgraded. -/
structure Before (run : LabRun) : Prop where
  downgradedAt : run.state.roleDowngradedAt = none
  generation : run.state.policyGeneration = 1
  principals : run.state.principals = canonicalPrincipals
  sessions : run.state.sessions = canonicalSessions
  window : run.state.replayWindowOpensAt = none
  queueJob : run.state.queueJob = none
  cache : ∀ c, run.state.authorizationCache = some c ↔ c = primedCache ∧ Primed run.history
  notPutOff : ¬PutOff run.history
  notDowngraded : ∀ t, ¬DowngradedAt run.history t

/-- A run in which the editor was downgraded. -/
structure After (run : LabRun) (t : ℕ) (job : QueueJobFixture) : Prop where
  downgradedAt : run.state.roleDowngradedAt = some t
  passed : t ≤ run.state.now
  generation : run.state.policyGeneration = 2
  principals : run.state.principals = downgradedPrincipals
  sessions : run.state.sessions = sessionsAfter t
  opens : run.state.replayWindowOpensAt = some (t + seconds 60)
  closes : run.state.replayWindowClosesAt = some (t + seconds 180)
  queueJob : run.state.queueJob = some job
  due : job.deliberatelyDelayed = true ∧ PutOff run.history ∧ job.dueAt = t + seconds 240 ∨
    job.deliberatelyDelayed = false ∧ ¬PutOff run.history ∧ job.dueAt = t + seconds 30
  pending : job.status = .pending ↔ run.state.now < job.dueAt
  cache : ∀ c, run.state.authorizationCache = some c ↔
    c = primedCache ∧ Primed run.history ∧ run.state.mode = .vulnerable ∧ run.state.now < job.dueAt
  downgraded : ∀ t', DowngradedAt run.history t' ↔ t' = t

/-- The state of a run tells what was done. -/
structure Tells (mode : LabMode) (run : LabRun) : Prop where
  mode : run.state.mode = mode
  started : canonicalEpoch ≤ run.state.now
  clock : run.state.now < canonicalEpoch + seconds 86700
  reference : run.state.reference.documentId = .tenantBProtected ∧ run.state.reference.recipientId = .aEditor
  published : run.state.reference.published = true ↔ Published run.history
  claimed : ∀ id, run.state.reference.claimedBySessionId = some id ↔ ClaimedBy run.history id
  claimedPublished : run.state.reference.claimedBySessionId ≠ none → run.state.reference.published = true
  retained : .tenantAOld ∈ run.state.retainedSessions ↔ Retained run.history
  phase : Before run ∨ ∃ t job, After run t job
  disclosed : run.state.lastDisclosure = (run.history.filterMap Deed.disclosure).getLast?
  genuine : ∀ o ∈ run.history.filterMap Deed.disclosure, o.requesterTenant = .a ∧ o.ownerTenant = .b ∧
    o.documentId = .tenantBProtected ∧ o.responseStatus = 200 ∧ o.bodyMarker = syntheticTenantBMarker ∧
    o.provenance = .observed

variable {mode : LabMode} {run : LabRun} {bearerValue : Text} {context : AuthContext} {t : ℕ} {job : QueueJobFixture}

/-! ## Who is known -/

theorem authenticate_eq_some {s : LabState} : s.authenticate bearerValue = some context ↔
    ∃ id session, bearerToSession bearerValue = some id ∧ s.sessions id = some session ∧ s.now < session.expiresAt ∧
      context = ⟨session.sessionId, session.principalId, (s.principals session.principalId).tenantId, session.issuedRole,
        session.policyGeneration⟩ := by
  rw [LabState.authenticate]
  simp only [bind, Option.bind_eq_some_iff]
  refine exists_congr fun id => ?_
  constructor
  · rintro ⟨hid, session, hsession, h⟩
    split_ifs at h with hexpired
    exact ⟨session, hid, hsession, not_le.mp hexpired, (Option.some.inj h).symm⟩
  · rintro ⟨session, hid, hsession, hlive, rfl⟩
    refine ⟨hid, session, hsession, ?_⟩
    rw [if_neg (not_le.mpr hlive)]

/-- What is known of somebody in a run. -/
structure Known (run : LabRun) (bearerValue : Text) (context : AuthContext) : Prop where
  sessionId : bearerToSession bearerValue = some context.sessionId
  principalId : context.principalId = context.sessionId.principalId
  tenantId : context.tenantId = context.sessionId.tenantId
  admin : context.sessionId = .labAdmin → run.state.now < canonicalEpoch + seconds 86400
  old : context.sessionId = .tenantAOld → run.state.now < canonicalEpoch + seconds 3600

theorem sessionsAfter_eq_some {id : FixtureSessionId} {session : SessionFixture}
    (h : sessionsAfter t id = some session) : session.sessionId = id ∧ session.principalId = id.principalId ∧
      (id = .labAdmin → session.expiresAt = canonicalEpoch + seconds 86400) ∧
      (id = .tenantAOld → session.expiresAt = canonicalEpoch + seconds 3600) := by
  cases id <;> cases h <;> exact ⟨rfl, rfl, by first | exact fun _ => rfl | nofun, by first | exact fun _ => rfl | nofun⟩

theorem Tells.sessions (h : Tells mode run) {id : FixtureSessionId} {session : SessionFixture}
    (hsession : run.state.sessions id = some session) : ∃ t, sessionsAfter t id = some session := by
  rcases h.phase with hbefore | ⟨t, job, hafter⟩
  · rw [hbefore.sessions] at hsession
    refine ⟨0, ?_⟩
    cases id with
    | tenantAFresh => cases hsession
    | _ => exact hsession
  · rw [hafter.sessions] at hsession
    exact ⟨t, hsession⟩

theorem Tells.tenants (h : Tells mode run) (id : FixtureSessionId) :
    (run.state.principals id.principalId).tenantId = id.tenantId := by
  rcases h.phase with hbefore | ⟨t, job, hafter⟩
  · rw [hbefore.principals]
    cases id <;> rfl
  · rw [hafter.principals]
    cases id <;> rfl

theorem Tells.known (h : Tells mode run) (hcontext : run.state.authenticate bearerValue = some context) :
    Known run bearerValue context := by
  obtain ⟨id, session, hid, hsession, hlive, rfl⟩ := authenticate_eq_some.mp hcontext
  obtain ⟨t, hafter⟩ := h.sessions hsession
  obtain ⟨rfl, hprincipal, hadmin, hold⟩ := sessionsAfter_eq_some hafter
  refine ⟨hid, hprincipal, ?_, fun heq => ?_, fun heq => ?_⟩
  · exact (congrArg (fun id => (run.state.principals id).tenantId) hprincipal).trans (h.tenants _)
  · exact lt_of_lt_of_eq hlive (hadmin heq)
  · exact lt_of_lt_of_eq hlive (hold heq)

theorem Known.eq_admin (h : Known run bearerValue context) (hadmin : context.principalId = .admin) :
    context.sessionId = .labAdmin := by
  rw [h.principalId] at hadmin
  cases hid : context.sessionId with
  | labAdmin => rfl
  | _ => rw [hid] at hadmin; cases hadmin

/-! ## Due jobs -/

/-- In a run no job is overdue. -/
theorem Tells.processDueJobs (h : Tells mode run) : run.state.processDueJobs = run.state := by
  rw [LabState.processDueJobs]
  rcases h.phase with hbefore | ⟨t, job, hafter⟩
  · rw [hbefore.queueJob]
  · rw [hafter.queueJob]
    refine if_neg fun hdue => ?_
    exact absurd (hafter.pending.mp hdue.1) (not_lt.mpr hdue.2)

/-! ## What a deed changes -/

section Deeds

variable {s : LabState} {d : Deed}

theorem disclosures_concat (history : List Deed) : (history ++ [d]).filterMap Deed.disclosure =
    history.filterMap Deed.disclosure ++ d.disclosure.toList := by
  rw [List.filterMap_append, List.filterMap_cons, List.filterMap_nil]
  cases d.disclosure <;> rfl

/-- What the phase of a run is about. -/
def LabState.phase (s : LabState) :=
  (s.mode, s.now, s.roleDowngradedAt, s.policyGeneration, s.principals, s.sessions, s.replayWindowOpensAt,
    s.replayWindowClosesAt, s.queueJob, s.authorizationCache)

/-- A deed that does not prime, put off or downgrade keeps the phase. -/
theorem Tells.phase_concat (h : Tells mode run) (hphase : s.phase = run.state.phase)
    (hprimed : ∀ documentId, d.action ≠ .primeAuthorizationCache documentId)
    (hputOff : ∀ jobId delay, d.action ≠ .deferQueue jobId delay)
    (hdowngraded : ∀ principalId newRole, d.action ≠ .downgradeRole principalId newRole) :
    Before ⟨s, run.history ++ [d]⟩ ∨ ∃ t job, After ⟨s, run.history ++ [d]⟩ t job := by
  simp only [LabState.phase, Prod.mk.injEq] at hphase
  obtain ⟨hmode, hnow, hdown, hgeneration, hprincipals, hsessions, hopens, hcloses, hjob, hcache⟩ := hphase
  have hprimed' : Primed (run.history ++ [d]) ↔ Primed run.history := primed_concat_of_ne hprimed
  have hputOff' : PutOff (run.history ++ [d]) ↔ PutOff run.history :=
    putOff_concat.trans (or_iff_left fun ⟨_, _, heq⟩ => hputOff _ _ heq)
  have hdowngraded' : ∀ t, DowngradedAt (run.history ++ [d]) t ↔ DowngradedAt run.history t := fun t =>
    downgradedAt_concat.trans (or_iff_left fun ⟨⟨_, _, heq⟩, _⟩ => hdowngraded _ _ heq)
  rcases h.phase with hbefore | ⟨t, job, hafter⟩
  · left
    refine ⟨hdown.trans hbefore.downgradedAt, hgeneration.trans hbefore.generation,
      hprincipals.trans hbefore.principals, hsessions.trans hbefore.sessions, hopens.trans hbefore.window,
      hjob.trans hbefore.queueJob, fun c => ?_, fun hput => hbefore.notPutOff (hputOff'.mp hput),
      fun t hdone => hbefore.notDowngraded t ((hdowngraded' t).mp hdone)⟩
    rw [hcache, hprimed']
    exact hbefore.cache c
  · refine .inr ⟨t, job, hdown.trans hafter.downgradedAt, hafter.passed.trans_eq hnow.symm,
      hgeneration.trans hafter.generation, hprincipals.trans hafter.principals, hsessions.trans hafter.sessions,
      hopens.trans hafter.opens, hcloses.trans hafter.closes, hjob.trans hafter.queueJob, ?_, ?_, fun c => ?_,
      fun t' => (hdowngraded' t').trans (hafter.downgraded t')⟩
    · rw [hputOff']
      exact hafter.due
    · rw [hnow]
      exact hafter.pending
    · rw [hcache, hprimed', hmode, hnow]
      exact hafter.cache c

/-- What is told after a deed. -/
theorem Tells.concat (h : Tells mode run) (hmode : s.mode = run.state.mode) (hnow : run.state.now ≤ s.now)
    (hclock : s.now < canonicalEpoch + seconds 86700) (hdocument : s.reference.documentId = run.state.reference.documentId)
    (hrecipient : s.reference.recipientId = run.state.reference.recipientId)
    (hpublished : s.reference.published = true ↔ run.state.reference.published = true ∨
      ∃ documentId recipientId, d.action = .publishReference documentId recipientId)
    (hclaimed : ∀ id, s.reference.claimedBySessionId = some id ↔ run.state.reference.claimedBySessionId = some id ∨
      (∃ referenceId, d.action = .claimReference referenceId) ∧ d.context.sessionId = id)
    (hclaimedPublished : s.reference.claimedBySessionId ≠ none → s.reference.published = true)
    (hretained : .tenantAOld ∈ s.retainedSessions ↔ .tenantAOld ∈ run.state.retainedSessions ∨
      d.action = .retainSession)
    (hphase : Before ⟨s, run.history ++ [d]⟩ ∨ ∃ t job, After ⟨s, run.history ++ [d]⟩ t job)
    (hdisclosed : s.lastDisclosure = d.disclosure.or run.state.lastDisclosure)
    (hgenuine : ∀ o ∈ d.disclosure, o.requesterTenant = .a ∧ o.ownerTenant = .b ∧ o.documentId = .tenantBProtected ∧
      o.responseStatus = 200 ∧ o.bodyMarker = syntheticTenantBMarker ∧ o.provenance = .observed) :
    Tells mode ⟨s, run.history ++ [d]⟩ where
  mode := hmode.trans h.mode
  started := h.started.trans hnow
  clock := hclock
  reference := ⟨hdocument.trans h.reference.1, hrecipient.trans h.reference.2⟩
  published := hpublished.trans ((or_congr_left h.published).trans published_concat.symm)
  claimed id := (hclaimed id).trans ((or_congr_left (h.claimed id)).trans claimedBy_concat.symm)
  claimedPublished := hclaimedPublished
  retained := hretained.trans ((or_congr_left h.retained).trans retained_concat.symm)
  phase := hphase
  disclosed := by
    rw [hdisclosed, h.disclosed, disclosures_concat]
    cases d.disclosure with
    | none => rw [Option.toList_none, List.append_nil, Option.none_or]
    | some o => rw [Option.some_or, Option.toList_some, List.getLast?_concat]
  genuine o ho := by
    rw [disclosures_concat, List.mem_append] at ho
    rcases ho with ho | ho
    · exact h.genuine o ho
    · exact hgenuine o (Option.mem_toList.mp ho)

/-- A deed that does not retain, publish, claim or disclose changes the phase only. -/
theorem Tells.concat_idle (h : Tells mode run) (hmode : s.mode = run.state.mode) (hnow : run.state.now ≤ s.now)
    (hclock : s.now < canonicalEpoch + seconds 86700) (hreference : s.reference = run.state.reference)
    (hretained : s.retainedSessions = run.state.retainedSessions)
    (hdisclosed : s.lastDisclosure = run.state.lastDisclosure)
    (hphase : Before ⟨s, run.history ++ [d]⟩ ∨ ∃ t job, After ⟨s, run.history ++ [d]⟩ t job)
    (hretain : d.action ≠ .retainSession)
    (hpublish : ∀ documentId recipientId, d.action ≠ .publishReference documentId recipientId)
    (hclaim : ∀ referenceId, d.action ≠ .claimReference referenceId) (hnone : d.disclosure = none) :
    Tells mode ⟨s, run.history ++ [d]⟩ := by
  refine h.concat hmode hnow hclock (hreference ▸ rfl) (hreference ▸ rfl) ?_ (fun id => ?_) ?_ ?_ hphase ?_ ?_
  · rw [hreference]
    exact (or_iff_left fun ⟨_, _, heq⟩ => hpublish _ _ heq).symm
  · rw [hreference]
    exact (or_iff_left fun ⟨⟨_, heq⟩, _⟩ => hclaim _ heq).symm
  · rw [hreference]
    exact h.claimedPublished
  · rw [hretained]
    exact (or_iff_left hretain).symm
  · rw [hdisclosed, hnone, Option.none_or]
  · rw [hnone]
    exact nofun

end Deeds

/-! ## Every action keeps what is told -/

section Actions

variable {s : LabState} {result : LabActionResult}

theorem Tells.retain (h : Tells mode run) (hok : retainOldSession context run.state = .ok result s) :
    Tells mode ⟨s, run.history ++ [⟨context, .retainSession, result, s.now⟩]⟩ := by
  obtain ⟨hsession, -, -, rfl, rfl⟩ := retainOldSession_eq_ok.mp hok
  refine h.concat rfl le_rfl h.clock rfl rfl (or_iff_left ?_).symm (fun id => (or_iff_left ?_).symm) h.claimedPublished
    ?_ (h.phase_concat rfl nofun nofun nofun) rfl nofun
  · rintro ⟨_, _, heq⟩
    cases heq
  · rintro ⟨⟨_, heq⟩, -⟩
    cases heq
  · refine iff_of_true ?_ (.inr rfl)
    rw [← hsession]
    exact Finset.mem_insert_self _ _

theorem Tells.publish (h : Tells mode run) {documentId : DocumentId} {recipientId : PrincipalId}
    (hok : publishReference context documentId recipientId run.state = .ok result s) :
    Tells mode ⟨s, run.history ++ [⟨context, .publishReference documentId recipientId, result, s.now⟩]⟩ := by
  obtain ⟨-, -, -, rfl, rfl⟩ := publishReference_eq_ok.mp hok
  refine h.concat rfl le_rfl h.clock rfl rfl (iff_of_true rfl (.inr ⟨_, _, rfl⟩)) (fun id => (or_iff_left ?_).symm)
    (fun _ => rfl) (or_iff_left nofun).symm (h.phase_concat rfl nofun nofun nofun) rfl nofun
  rintro ⟨⟨_, heq⟩, -⟩
  cases heq

theorem Tells.claim (h : Tells mode run) {referenceId : ReferenceId}
    (hok : claimReference context referenceId run.state = .ok result s) :
    Tells mode ⟨s, run.history ++ [⟨context, .claimReference referenceId, result, s.now⟩]⟩ := by
  obtain ⟨-, -, hpublished, hunclaimed, rfl, rfl⟩ := claimReference_eq_ok.mp hok
  refine h.concat rfl le_rfl h.clock rfl rfl (or_iff_left ?_).symm (fun id => ?_) (fun _ => hpublished)
    (or_iff_left nofun).symm (h.phase_concat rfl nofun nofun nofun) rfl nofun
  · rintro ⟨_, _, heq⟩
    cases heq
  · rw [hunclaimed]
    constructor
    · exact fun heq => .inr ⟨⟨_, rfl⟩, Option.some.inj heq⟩
    · rintro (heq | ⟨-, heq⟩)
      · cases heq
      · exact congrArg some heq

theorem Tells.prime (h : Tells mode run) (hknown : Known run bearerValue context) {documentId : DocumentId}
    (hok : primeAuthorizationCache context documentId run.state = .ok result s) :
    Tells mode ⟨s, run.history ++ [⟨context, .primeAuthorizationCache documentId, result, s.now⟩]⟩ := by
  obtain ⟨hsession, ⟨-, htenant⟩, hnone, rfl, rfl⟩ := primeAuthorizationCache_eq_ok.mp hok
  refine h.concat_idle rfl le_rfl h.clock rfl rfl rfl ?_ nofun nofun nofun rfl
  rcases h.phase with hbefore | ⟨t, job, hafter⟩
  · have hprincipal : context.principalId = .aEditor := by rw [hknown.principalId, hsession]; rfl
    rw [hbefore.principals, hprincipal] at htenant
    have hdocument : documentId = .tenantAOwned := by
      cases documentId with
      | tenantAOwned => rfl
      | tenantBProtected => cases htenant
    refine .inl ⟨hbefore.downgradedAt, hbefore.generation, hbefore.principals, hbefore.sessions, hbefore.window,
      hbefore.queueJob, fun c => ?_, fun hput => hbefore.notPutOff ?_, fun t hdone => hbefore.notDowngraded t ?_⟩
    · have hcache : (⟨context.principalId, text "document:read", true, documentId,
          (run.state.principals context.principalId).tenantId, run.state.policyGeneration⟩ : AuthorizationCacheEntry) =
          primedCache := by
        rw [hbefore.principals, hprincipal, hdocument, hbefore.generation]
        rfl
      constructor
      · exact fun heq => ⟨(Option.some.inj heq).symm.trans hcache, primed_concat.mpr (.inr ⟨_, rfl⟩)⟩
      · exact fun heq => congrArg some (hcache.trans heq.1.symm)
    · exact (putOff_concat.mp hput).resolve_right (by rintro ⟨_, _, heq⟩; cases heq)
    · exact (downgradedAt_concat.mp hdone).resolve_right (by rintro ⟨⟨_, _, heq⟩, -⟩; cases heq)
  · rw [hafter.downgradedAt] at hnone
    cases hnone

theorem Tells.downgrade (h : Tells mode run) {principalId : PrincipalId} {newRole : Role}
    (hok : downgradeRole context principalId newRole run.state = .ok result s) :
    Tells mode ⟨s, run.history ++ [⟨context, .downgradeRole principalId newRole, result, s.now⟩]⟩ := by
  obtain ⟨-, ⟨rfl, -⟩, ⟨-, hnone⟩, rfl, rfl⟩ := downgradeRole_eq_ok.mp hok
  refine h.concat_idle rfl le_rfl h.clock rfl rfl rfl ?_ nofun nofun nofun rfl
  rcases h.phase with hbefore | ⟨t, job, hafter⟩
  · refine .inr ⟨run.state.now, { jobId := .roleSyncA, principalId := .aEditor, dueAt := run.state.now + seconds 30 },
      rfl, le_rfl, rfl, ?_, ?_, rfl, rfl, rfl, .inr ⟨rfl, fun hput => hbefore.notPutOff ?_, rfl⟩, ?_, fun c => ?_,
      fun t => ?_⟩
    · funext id
      change (if id = .aEditor then { run.state.principals .aEditor with role := .viewer } else run.state.principals id) =
        downgradedPrincipals id
      rw [hbefore.principals]
      rfl
    · funext id
      change (if id = .tenantAFresh then _ else run.state.sessions id) = sessionsAfter run.state.now id
      rw [hbefore.sessions]
      rfl
    · exact (putOff_concat.mp hput).resolve_right (by rintro ⟨_, _, heq⟩; cases heq)
    · refine iff_of_true rfl ?_
      change run.state.now < run.state.now + seconds 30
      exact Nat.lt_add_of_pos_right (by decide)
    · have hlive : run.state.now < run.state.now + seconds 30 := Nat.lt_add_of_pos_right (by decide)
      change (if run.state.mode = .patched then none else run.state.authorizationCache) = some c ↔
        c = primedCache ∧ Primed (run.history ++ _) ∧ run.state.mode = .vulnerable ∧ _
      rw [primed_concat_of_ne]
      · cases hmode : run.state.mode with
        | vulnerable =>
            rw [if_neg nofun, hbefore.cache c]
            exact and_congr_right fun _ => (and_iff_left ⟨rfl, hlive⟩).symm
        | patched =>
            rw [if_pos rfl]
            exact iff_of_false nofun fun hc => nomatch hc.2.2.1
      · nofun
    · refine downgradedAt_concat.trans ⟨?_, ?_⟩
      · rintro (hdone | ⟨-, heq⟩)
        · exact absurd hdone (hbefore.notDowngraded t)
        · exact heq.symm
      · exact fun heq => .inr ⟨⟨_, _, rfl⟩, heq.symm⟩
  · rw [hafter.downgradedAt] at hnone
    cases hnone

theorem Tells.putOff (h : Tells mode run) {jobId : QueueJobId} {delaySeconds : ℤ}
    (hok : delayQueueJob context jobId delaySeconds run.state = .ok result s) :
    Tells mode ⟨s, run.history ++ [⟨context, .deferQueue jobId delaySeconds, result, s.now⟩]⟩ := by
  obtain ⟨-, -, -, job, t, hcheck, rfl, rfl⟩ := delayQueueJob_eq_ok.mp hok
  rw [h.processDueJobs] at hcheck ⊢
  obtain ⟨hjob, hpending, -, hdowngraded⟩ := checkDelay_eq_ok.mp hcheck
  refine h.concat_idle rfl le_rfl h.clock rfl rfl rfl ?_ nofun nofun nofun rfl
  rcases h.phase with hbefore | ⟨t', job', hafter⟩
  · rw [hbefore.queueJob] at hjob
    cases hjob
  · rw [hafter.queueJob] at hjob
    rw [hafter.downgradedAt] at hdowngraded
    cases hjob
    cases hdowngraded
    -- a pending job is due later than now, in half a minute or in four after the downgrade
    have hlive := hafter.pending.mp hpending
    have hlater : run.state.now < t + seconds 240 := by
      rcases hafter.due with ⟨-, -, hdue⟩ | ⟨-, -, hdue⟩ <;> rw [hdue] at hlive <;> simp only [seconds] at hlive ⊢ <;> omega
    refine .inr ⟨t, _, hafter.downgradedAt, hafter.passed, hafter.generation, hafter.principals, hafter.sessions,
      hafter.opens, hafter.closes, rfl, .inl ⟨rfl, putOff_concat.mpr (.inr ⟨_, _, rfl⟩), rfl⟩,
      iff_of_true hpending hlater, fun c => ?_, fun t' => ?_⟩
    · refine (hafter.cache c).trans (and_congr_right fun _ => and_congr ?_ (and_congr_right fun _ => ?_))
      · refine (primed_concat_of_ne ?_).symm
        nofun
      · exact iff_of_true hlive hlater
    · refine (downgradedAt_concat.trans (or_iff_left ?_)).trans (hafter.downgraded t')
      rintro ⟨⟨_, _, heq⟩, -⟩
      cases heq

theorem processDueJobs_cases (s : LabState) :
    ((∀ job, s.queueJob = some job → job.status = .pending → s.now < job.dueAt) ∧ s.processDueJobs = s) ∨
    ∃ job, s.queueJob = some job ∧ job.status = .pending ∧ job.dueAt ≤ s.now ∧
      s.processDueJobs = { s with queueJob := some { job with status := .completed }, authorizationCache := none } := by
  rw [LabState.processDueJobs]
  cases hjob : s.queueJob with
  | none => exact .inl ⟨nofun, rfl⟩
  | some job =>
      dsimp only
      by_cases hdue : job.status = .pending ∧ job.dueAt ≤ s.now
      · rw [if_pos hdue]
        exact .inr ⟨job, rfl, hdue.1, hdue.2, rfl⟩
      · rw [if_neg hdue]
        refine .inl ⟨fun job' heq hpending => ?_, rfl⟩
        cases heq
        exact not_le.mp fun hle => hdue ⟨hpending, hle⟩

/-- What is told at a later time: a job that has come due was processed. -/
theorem Tells.later_phase (h : Tells mode run) {now : ℕ} (hnow : run.state.now ≤ now) :
    Before ⟨({ run.state with now := now } : LabState).processDueJobs, run.history⟩ ∨
      ∃ t job, After ⟨({ run.state with now := now } : LabState).processDueJobs, run.history⟩ t job := by
  rcases h.phase with hbefore | ⟨t, job, hafter⟩
  · have hsame : ({ run.state with now := now } : LabState).processDueJobs = { run.state with now := now } := by
      rw [LabState.processDueJobs]
      simp only [hbefore.queueJob]
    rw [hsame]
    exact .inl ⟨hbefore.downgradedAt, hbefore.generation, hbefore.principals, hbefore.sessions, hbefore.window,
      hbefore.queueJob, hbefore.cache, hbefore.notPutOff, hbefore.notDowngraded⟩
  · have hpassed : t ≤ now := hafter.passed.trans hnow
    rcases processDueJobs_cases { run.state with now := now } with
      ⟨hnotDue, hsame⟩ | ⟨job', hjob, hpending, hdue, hprocessed⟩
    · rw [hsame]
      have hstill : job.status = .pending ↔ now < job.dueAt :=
        ⟨hnotDue job hafter.queueJob, fun hlive => hafter.pending.mpr (hnow.trans_lt hlive)⟩
      refine .inr ⟨t, job, hafter.downgradedAt, hpassed, hafter.generation, hafter.principals, hafter.sessions,
        hafter.opens, hafter.closes, hafter.queueJob, hafter.due, hstill, fun c => ?_, hafter.downgraded⟩
      rw [← hstill, hafter.pending]
      exact hafter.cache c
    · rw [hprocessed]
      obtain rfl : job = job' := Option.some.inj (hafter.queueJob.symm.trans hjob)
      refine .inr ⟨t, _, hafter.downgradedAt, hpassed, hafter.generation, hafter.principals, hafter.sessions,
        hafter.opens, hafter.closes, rfl, hafter.due, ?_, fun c => ?_, hafter.downgraded⟩
      · exact iff_of_false QueueJobStatus.noConfusion (not_lt.mpr hdue)
      · exact iff_of_false (Option.some_ne_none c).symm fun hc => absurd hc.2.2.2 (not_lt.mpr hdue)

theorem Tells.later (h : Tells mode run) {now : ℕ} (hnow : run.state.now ≤ now)
    (hclock : now < canonicalEpoch + seconds 86700) :
    Tells mode ⟨({ run.state with now := now } : LabState).processDueJobs, run.history⟩ := by
  have hphase := h.later_phase hnow
  have hstarted := h.started.trans hnow
  rcases processDueJobs_cases { run.state with now := now } with ⟨-, hsame⟩ | ⟨job, -, -, -, hsame⟩
  all_goals
    rw [hsame] at hphase ⊢
    exact ⟨h.mode, hstarted, hclock, h.reference, h.published, h.claimed, h.claimedPublished, h.retained, hphase,
      h.disclosed, h.genuine⟩

/-- The session of the administrator, who moves the clock, expires within the bound on the clock. -/
theorem Known.clock (h : Known run bearerValue context) (hadmin : context.principalId = .admin) {duration : ℕ}
    (hbounded : duration ≤ 300) : run.state.now + seconds duration < canonicalEpoch + seconds 86700 := by
  have hlive := h.admin (h.eq_admin hadmin)
  simp only [seconds] at hlive ⊢
  omega

theorem Tells.advance (h : Tells mode run) (hknown : Known run bearerValue context) {payload : AdvanceClockRequest}
    (hok : advanceClock context payload run.state = .ok result s) :
    Tells mode ⟨s, run.history ++ [⟨context, .advanceClock payload, result, s.now⟩]⟩ := by
  obtain ⟨hadmin, rfl, rfl⟩ := advanceClock_eq_ok.mp hok
  have hlater : Tells mode ⟨run.state.later payload.seconds, run.history⟩ :=
    h.later (Nat.le_add_right _ _) (hknown.clock hadmin payload.bounded)
  exact hlater.concat_idle rfl le_rfl hlater.clock rfl rfl rfl (hlater.phase_concat rfl nofun nofun nofun) nofun nofun
    nofun rfl

theorem Tells.masked (h : Tells mode run) {documentId : DocumentId}
    (hok : maskedDecoy context documentId run.state = .ok result s) :
    Tells mode ⟨s, run.history ++ [⟨context, .maskedRead documentId, result, s.now⟩]⟩ := by
  cases hok
  exact h.concat_idle rfl le_rfl h.clock rfl rfl rfl (h.phase_concat rfl nofun nofun nofun) nofun nofun nofun rfl

theorem Tells.mock (h : Tells mode run) {documentId : DocumentId}
    (hok : mockPolicyDecoy context documentId run.state = .ok result s) :
    Tells mode ⟨s, run.history ++ [⟨context, .mockPolicy documentId, result, s.now⟩]⟩ := by
  cases hok
  exact h.concat_idle rfl le_rfl h.clock rfl rfl rfl (h.phase_concat rfl nofun nofun nofun) nofun nofun nofun rfl

theorem Tells.read (h : Tells mode run) (hknown : Known run bearerValue context) {documentId : DocumentId}
    (hok : readDocument context documentId run.state = .ok result s) :
    Tells mode ⟨s, run.history ++ [⟨context, .readDocument documentId, result, s.now⟩]⟩ := by
  rw [readDocument_eq, h.processDueJobs] at hok
  dsimp only at hok
  split_ifs at hok with htenant hchain
  · cases hok
    refine h.concat_idle rfl le_rfl h.clock rfl rfl rfl (h.phase_concat rfl nofun nofun nofun) nofun nofun nofun ?_
    exact if_pos htenant
  · have hold : context.sessionId = .tenantAOld := by
      simp only [LabState.completeVulnerableChain, Bool.and_eq_true, decide_eq_true_eq] at hchain
      exact hchain.1.2
    have hrequester : context.tenantId = .a := by rw [hknown.tenantId, hold]; rfl
    have hprotected : documentId = .tenantBProtected := by
      cases documentId with
      | tenantAOwned => exact absurd hrequester.symm htenant
      | tenantBProtected => rfl
    cases hok
    have hdisclosure : ∀ item, (⟨context, .readDocument documentId, documentResponse documentId item,
        run.state.now⟩ : Deed).disclosure = some ⟨item.evidenceId, context.tenantId, (documents documentId).tenantId,
          documentId, 200, (documents documentId).body, .observed⟩ := fun _ => if_neg htenant
    refine h.concat rfl le_rfl h.clock rfl rfl (or_iff_left ?_).symm (fun id => (or_iff_left ?_).symm) h.claimedPublished
      (or_iff_left nofun).symm (h.phase_concat rfl nofun nofun nofun) ?_ fun o ho => ?_
    · rintro ⟨_, _, heq⟩
      cases heq
    · rintro ⟨⟨_, heq⟩, -⟩
      cases heq
    · exact ((congrArg (Option.or · _) (hdisclosure _)).trans Option.some_or).symm
    · obtain rfl := Option.some.inj ((hdisclosure _).symm.trans ho)
      exact ⟨hrequester, hprotected ▸ rfl, hprotected, rfl, hprotected ▸ rfl, rfl⟩

theorem Tells.perform (h : Tells mode run) (hknown : Known run bearerValue context) {action : LabAction}
    (hok : perform context action run.state = .ok result s) :
    Tells mode ⟨s, run.history ++ [⟨context, action, result, s.now⟩]⟩ := by
  cases action with
  | retainSession => exact h.retain hok
  | primeAuthorizationCache documentId => exact h.prime hknown hok
  | downgradeRole principalId newRole => exact h.downgrade hok
  | deferQueue jobId delaySeconds => exact h.putOff hok
  | publishReference documentId recipientId => exact h.publish hok
  | claimReference referenceId => exact h.claim hok
  | advanceClock payload => exact h.advance hknown hok
  | readDocument documentId => exact h.read hknown hok
  | maskedRead documentId => exact h.masked hok
  | mockPolicy documentId => exact h.mock hok

/-- A record changes nothing of what is told. -/
theorem Tells.recorded (h : Tells mode run) (item : InternalEvidence) :
    Tells mode ⟨run.state.recorded item, run.history⟩ where
  mode := h.mode
  started := h.started
  clock := h.clock
  reference := h.reference
  published := h.published
  claimed := h.claimed
  claimedPublished := h.claimedPublished
  retained := h.retained
  phase := h.phase.imp (fun ⟨a, b, c, d, e, f, g, i, j⟩ => ⟨a, b, c, d, e, f, g, i, j⟩)
    fun ⟨t, job, a, b, c, d, e, f, g, i, j, k, l, m⟩ => ⟨t, job, a, b, c, d, e, f, g, i, j, k, l, m⟩
  disclosed := h.disclosed
  genuine := h.genuine

theorem Tells.perform_error (h : Tells mode run) {action : LabAction} {e : LabActionError}
    (herror : Lab.perform context action run.state = .error e s) : Tells mode ⟨s, run.history⟩ := by
  rcases perform_eq_error herror with rfl | rfl | ⟨documentId, -, -, rfl⟩
  · exact h
  · rw [h.processDueJobs]
    exact h
  · rw [h.processDueJobs]
    exact h.recorded _

end Actions

/-! ## Every run -/

theorem tells_canonical (mode : LabMode) : Tells mode ⟨LabState.canonical mode, []⟩ where
  mode := rfl
  started := le_refl canonicalEpoch
  clock := by
    change canonicalEpoch < canonicalEpoch + seconds 86700
    exact Nat.lt_add_of_pos_right (by decide)
  reference := ⟨rfl, rfl⟩
  published := iff_of_false Bool.false_ne_true not_exists_mem_nil
  claimed id := iff_of_false (Option.some_ne_none id).symm not_exists_mem_nil
  claimedPublished := fun hclaimed => absurd rfl hclaimed
  retained := iff_of_false (Finset.notMem_empty _) not_exists_mem_nil
  phase := .inl ⟨rfl, rfl, rfl, rfl, rfl, rfl,
    fun c => iff_of_false (Option.some_ne_none c).symm fun hcache => not_exists_mem_nil hcache.2, not_exists_mem_nil,
    fun _ => not_exists_mem_nil⟩
  disclosed := rfl
  genuine _ ho := absurd ho List.not_mem_nil

theorem execute_eq (bearerValue : Text) (action : LabAction) (s : LabState) : execute bearerValue action s =
    match s.authenticate bearerValue with
    | none => .error ⟨401, "unknown_or_expired_fixture"⟩ s
    | some context => perform context action s := by
  rw [execute, Imp.get_bind, LabState.context]
  cases s.authenticate bearerValue <;> rfl

theorem Tells.call (h : Tells mode run) (call : LabCall) : Tells mode (run.call call).2 := by
  cases call with
  | execute bearerValue action =>
      rw [LabRun.call, execute_eq]
      cases hcontext : run.state.authenticate bearerValue with
      | none => exact h
      | some context =>
          dsimp only
          cases hperform : Lab.perform context action run.state with
          | ok result s => exact h.perform (h.known hcontext) hperform
          | error e s => exact h.perform_error hperform
  | observe =>
      rw [LabRun.call, h.processDueJobs]
      exact h
  | reset =>
      rw [LabRun.call, h.mode]
      exact tells_canonical mode

theorem Runs.tells (h : Runs mode run) : Tells mode run := by
  refine Machine.Reaches.invariant h (tells_canonical mode) ?_
  rintro run call o run' htells - hstep
  have hcall : run' = (run.call call).2 := congrArg Prod.snd (Option.some.inj hstep).symm
  rw [hcall]
  exact htells.call call

/-! ## The chain -/

/-- The whole chain, done by the old session, at a time within the replay window. -/
structure FullChain (history : List Deed) (now : ℕ) : Prop where
  retained : Retained history
  primed : Primed history
  putOff : PutOff history
  claimed : ClaimedBy history .tenantAOld
  window : ∃ t, DowngradedAt history t ∧ t + seconds 60 ≤ now ∧ now < t + seconds 180

theorem Before.not_complete (h : Before run) : run.state.chainState.complete = false := by
  have hdowngraded : run.state.chainState.roleDowngraded = false := by
    change (run.state.roleDowngradedAt.isSome && decide ((run.state.principals .aEditor).role = .viewer)) = false
    rw [h.downgradedAt]
    rfl
  rw [ChainStateResponse.complete, hdowngraded, Bool.and_false]
  rfl

theorem After.roleDowngraded (h : After run t job) : run.state.chainState.roleDowngraded = true := by
  change (run.state.roleDowngradedAt.isSome && decide ((run.state.principals .aEditor).role = .viewer)) = true
  rw [h.downgradedAt, h.principals]
  rfl

theorem After.oldSessionGenerationStale (h : After run t job) :
    run.state.chainState.oldSessionGenerationStale = true := by
  change ((run.state.sessions .tenantAOld).any fun session =>
    decide (session.policyGeneration < run.state.policyGeneration)) = true
  rw [h.sessions, h.generation]
  rfl

theorem After.staleAuthorizationCache_iff (h : After run t job) :
    run.state.chainState.staleAuthorizationCache = true ↔ run.state.authorizationCache = some primedCache := by
  change (run.state.authorizationCache.any fun cache => cache.allowed && decide (cache.principalId = .aEditor) &&
    decide (cache.policyGeneration < run.state.policyGeneration)) = true ↔ _
  rw [h.generation]
  cases hsome : run.state.authorizationCache with
  | none => exact iff_of_false Bool.false_ne_true (Option.some_ne_none _).symm
  | some c =>
      obtain ⟨rfl, -⟩ := (h.cache c).mp hsome
      exact iff_of_true rfl rfl

theorem After.complete_iff (h : After run t job) : run.state.chainState.complete = true ↔
    .tenantAOld ∈ run.state.retainedSessions ∧ job.deliberatelyDelayed = true ∧ job.status = .pending ∧
      run.state.authorizationCache = some primedCache ∧
      (run.state.reference.published = true ∧ run.state.reference.claimedBySessionId = some .tenantAOld) ∧
      t + seconds 60 ≤ run.state.now ∧ run.state.now < t + seconds 180 := by
  have hretained : run.state.chainState.oldSessionRetained = decide (.tenantAOld ∈ run.state.retainedSessions) := rfl
  have hdelayed : run.state.chainState.queueSyncDelayed = job.deliberatelyDelayed := by
    change (run.state.queueJob.any fun job => job.deliberatelyDelayed) = _
    rw [h.queueJob, Option.any_some]
  have hpending : run.state.chainState.queueSyncPending = decide (job.status = .pending) := by
    change (run.state.queueJob.any fun job => decide (job.status = .pending)) = _
    rw [h.queueJob, Option.any_some]
  have hreference : run.state.chainState.foreignReferenceObtained =
      (run.state.reference.published && decide (run.state.reference.claimedBySessionId = some .tenantAOld)) := rfl
  have hwindow : run.state.chainState.replayWindowOpen =
      (decide (t + seconds 60 ≤ run.state.now) && decide (run.state.now < t + seconds 180)) := by
    change (run.state.replayWindowOpensAt.any (fun opens => decide (opens ≤ run.state.now)) &&
      run.state.replayWindowClosesAt.any fun closes => decide (run.state.now < closes)) = _
    rw [h.opens, h.closes, Option.any_some, Option.any_some]
  rw [ChainStateResponse.complete, h.roleDowngraded, h.oldSessionGenerationStale, hretained, hdelayed, hpending,
    hreference, hwindow]
  simp only [Bool.and_true, Bool.and_eq_true, h.staleAuthorizationCache_iff, decide_eq_true_eq, and_assoc]

/-- The lab gives the protected document away in a read of the old session exactly if the whole chain was done. -/
theorem Tells.completeVulnerableChain_iff (h : Tells mode run) : run.state.completeVulnerableChain context = true ↔
    mode = .vulnerable ∧ context.sessionId = .tenantAOld ∧ FullChain run.history run.state.now := by
  rw [LabState.completeVulnerableChain, Bool.and_eq_true, Bool.and_eq_true, decide_eq_true_eq, decide_eq_true_eq, h.mode,
    and_assoc]
  refine and_congr_right fun hmode => and_congr_right fun _ => ?_
  rcases h.phase with hbefore | ⟨t, job, hafter⟩
  · rw [hbefore.not_complete]
    refine iff_of_false Bool.false_ne_true fun hchain => ?_
    obtain ⟨t, hdone, -⟩ := hchain.window
    exact hbefore.notDowngraded t hdone
  · rw [hafter.complete_iff]
    constructor
    · rintro ⟨hretained, hdelayed, -, hcache, ⟨-, hclaimed⟩, hopen, hclose⟩
      refine ⟨h.retained.mp hretained, ((hafter.cache _).mp hcache).2.1, ?_, (h.claimed _).mp hclaimed, t,
        (hafter.downgraded t).mpr rfl, hopen, hclose⟩
      rcases hafter.due with ⟨-, hput, -⟩ | ⟨hnot, -⟩
      · exact hput
      · rw [hnot] at hdelayed
        cases hdelayed
    · rintro ⟨hretained, hprimed, hput, hclaimed, t', hdone, hopen, hclose⟩
      have ht := (hafter.downgraded t').mp hdone
      subst ht
      have hdue : job.deliberatelyDelayed = true ∧ job.dueAt = t' + seconds 240 := by
        rcases hafter.due with ⟨hdelayed, -, hat⟩ | ⟨-, hnot, -⟩
        · exact ⟨hdelayed, hat⟩
        · exact absurd hput hnot
      have hlive : run.state.now < job.dueAt := by
        rw [hdue.2]
        exact hclose.trans (Nat.add_lt_add_left (by decide) _)
      have hclaimed' := (h.claimed _).mpr hclaimed
      refine ⟨h.retained.mpr hretained, hdue.1, hafter.pending.mpr hlive,
        (hafter.cache _).mpr ⟨rfl, hprimed, h.mode.trans hmode, hlive⟩, ⟨h.claimedPublished ?_, hclaimed'⟩, hopen, hclose⟩
      rw [hclaimed']
      exact Option.some_ne_none _

/-! ## The protected document -/

theorem bearerToSession_eq_old :
    bearerToSession bearerValue = some .tenantAOld ↔ bearerValue = FixtureBearer.tenantAOldEditor.value := by
  rw [bearerToSession, Option.map_eq_some_iff]
  constructor
  · rintro ⟨bearer, hfind, hsession⟩
    have hbearer : bearer = .tenantAOldEditor := by
      cases bearer with
      | tenantAOldEditor => rfl
      | _ => cases hsession
    rw [hbearer] at hfind
    have hvalue := List.find?_some hfind
    exact (beq_iff_eq.mp hvalue).symm
  · rintro rfl
    exact ⟨.tenantAOldEditor, List.find?_cons_of_pos (beq_self_eq_true _), rfl⟩

theorem Tells.oldSession (h : Tells mode run) : run.state.sessions .tenantAOld =
    some ⟨.tenantAOld, .aEditor, .editor, 1, canonicalEpoch - seconds 300, canonicalEpoch + seconds 3600⟩ := by
  rcases h.phase with hbefore | ⟨t, job, hafter⟩
  · rw [hbefore.sessions, canonicalSessions]
  · rw [hafter.sessions, sessionsAfter, if_neg nofun, canonicalSessions]

/-- Only a document has the marker of tenant B, and somebody else gets it only if the chain is complete. -/
theorem Tells.perform_marker (h : Tells mode run) {s : LabState} {result : LabActionResult} {action : LabAction}
    (hok : Lab.perform context action run.state = .ok result s) (hbody : result.body = some syntheticTenantBMarker)
    (htenant : context.tenantId ≠ .b) :
    action = .readDocument .tenantBProtected ∧ run.state.completeVulnerableChain context = true ∧
      ∃ r, result = .document r ∧ r.ownerTenant = .b := by
  have hplain : syntheticTenantABody ≠ syntheticTenantBMarker := by decide +kernel
  have hmasked : maskedBody ≠ syntheticTenantBMarker := by decide +kernel
  have hmock : syntheticMockPlaceholder ≠ syntheticTenantBMarker := by decide +kernel
  cases action with
  | retainSession =>
      obtain ⟨-, -, -, rfl, -⟩ := retainOldSession_eq_ok.mp hok
      exact absurd hbody.symm (Option.some_ne_none _)
  | primeAuthorizationCache documentId =>
      obtain ⟨-, -, -, rfl, -⟩ := primeAuthorizationCache_eq_ok.mp hok
      exact absurd hbody.symm (Option.some_ne_none _)
  | downgradeRole principalId newRole =>
      obtain ⟨-, -, -, rfl, -⟩ := downgradeRole_eq_ok.mp hok
      exact absurd hbody.symm (Option.some_ne_none _)
  | deferQueue jobId delaySeconds =>
      obtain ⟨-, -, -, job, t, -, rfl, -⟩ := delayQueueJob_eq_ok.mp hok
      exact absurd hbody.symm (Option.some_ne_none _)
  | publishReference documentId recipientId =>
      obtain ⟨-, -, -, rfl, -⟩ := publishReference_eq_ok.mp hok
      exact absurd hbody.symm (Option.some_ne_none _)
  | claimReference referenceId =>
      obtain ⟨-, -, -, -, rfl, -⟩ := claimReference_eq_ok.mp hok
      exact absurd hbody.symm (Option.some_ne_none _)
  | advanceClock payload =>
      obtain ⟨-, rfl, -⟩ := advanceClock_eq_ok.mp hok
      exact absurd hbody.symm (Option.some_ne_none _)
  | readDocument documentId =>
      rw [Lab.perform, readDocument_eq, h.processDueJobs] at hok
      dsimp only at hok
      split_ifs at hok with hsame hchain
      · cases hok
        cases documentId with
        | tenantAOwned => exact absurd (Option.some.inj hbody) hplain
        | tenantBProtected => exact absurd hsame.symm htenant
      · cases hok
        cases documentId with
        | tenantAOwned => exact absurd (Option.some.inj hbody) hplain
        | tenantBProtected => exact ⟨rfl, hchain, _, rfl, rfl⟩
  | maskedRead documentId =>
      cases hok
      exact absurd (Option.some.inj hbody) hmasked
  | mockPolicy documentId =>
      cases hok
      exact absurd (Option.some.inj hbody) hmock

/-- In every run the protected document goes to somebody else exactly if the lab is vulnerable, the old session reads it
before it expires, and the whole chain was done since the last reset. -/
theorem discloses_iff (h : Runs mode run) (bearerValue : Text) (action : LabAction) :
    (∃ context result s, run.state.authenticate bearerValue = some context ∧ context.tenantId ≠ .b ∧
      execute bearerValue action run.state = .ok result s ∧ result.body = some syntheticTenantBMarker) ↔
    mode = .vulnerable ∧ bearerValue = FixtureBearer.tenantAOldEditor.value ∧
      action = .readDocument .tenantBProtected ∧ run.state.now < canonicalEpoch + seconds 3600 ∧
      FullChain run.history run.state.now := by
  have htells := h.tells
  constructor
  · rintro ⟨context, result, s, hcontext, htenant, hok, hbody⟩
    have hknown := htells.known hcontext
    rw [execute_eq, hcontext] at hok
    obtain ⟨haction, hcomplete, -⟩ := htells.perform_marker hok hbody htenant
    obtain ⟨hmode, hold, hchain⟩ := htells.completeVulnerableChain_iff.mp hcomplete
    have hbearer := hknown.sessionId
    rw [hold] at hbearer
    exact ⟨hmode, bearerToSession_eq_old.mp hbearer, haction, hknown.old hold, hchain⟩
  · rintro ⟨hmode, hbearer, rfl, hlive, hchain⟩
    obtain ⟨context, hcontext, hold⟩ : ∃ context, run.state.authenticate bearerValue = some context ∧
        context.sessionId = .tenantAOld :=
      ⟨_, authenticate_eq_some.mpr ⟨_, _, bearerToSession_eq_old.mpr hbearer, htells.oldSession, hlive, rfl⟩, rfl⟩
    have htenant : context.tenantId = .a := by
      rw [(htells.known hcontext).tenantId, hold]
      rfl
    have hforeign : (documents .tenantBProtected).tenantId ≠ context.tenantId := by
      rw [htenant]
      intro hsame
      cases hsame
    have hcomplete := htells.completeVulnerableChain_iff.mpr ⟨hmode, hold, hchain⟩
    obtain ⟨result, s, hok, hbody⟩ : ∃ result s, execute bearerValue (.readDocument .tenantBProtected) run.state =
        .ok result s ∧ result.body = some syntheticTenantBMarker := by
      rw [execute_eq, hcontext]
      dsimp only
      rw [Lab.perform, readDocument_eq, htells.processDueJobs]
      dsimp only
      rw [if_neg hforeign, if_pos hcomplete]
      exact ⟨_, _, rfl, rfl⟩
    refine ⟨context, result, s, hcontext, ?_, hok, hbody⟩
    rw [htenant]
    intro hsame
    cases hsame

/-- The whole chain, up to the read of the document. -/
def chainCalls : List LabCall :=
  [.execute FixtureBearer.tenantAOldEditor.value .retainSession,
    .execute FixtureBearer.tenantAOldEditor.value (.primeAuthorizationCache .tenantAOwned),
    .execute FixtureBearer.labAdmin.value (.downgradeRole .aEditor .viewer),
    .execute FixtureBearer.labAdmin.value (.deferQueue .roleSyncA 240),
    .execute FixtureBearer.tenantBViewer.value (.publishReference .tenantBProtected .aEditor),
    .execute FixtureBearer.tenantAOldEditor.value (.claimReference .bToA),
    .execute FixtureBearer.labAdmin.value (.advanceClock ⟨60, by decide, by decide⟩)]

/-- The whole chain with the read. -/
def disclosingCalls : List LabCall :=
  chainCalls ++ [.execute FixtureBearer.tenantAOldEditor.value (.readDocument .tenantBProtected)]

theorem discloses_iff_chain : FullChain (LabRun.calls .vulnerable chainCalls).history
    (LabRun.calls .vulnerable chainCalls).state.now := by
  have hforeign : ((LabRun.calls .vulnerable chainCalls).state.authenticate
      FixtureBearer.tenantAOldEditor.value).any (fun context => decide (context.tenantId ≠ .b)) = true := by
    decide +kernel
  have hread : ((execute FixtureBearer.tenantAOldEditor.value (.readDocument .tenantBProtected)).run'
      (LabRun.calls .vulnerable chainCalls).state).bind LabActionResult.body =
        some syntheticTenantBMarker := by
    decide +kernel
  obtain ⟨context, hcontext, htenant⟩ := (Option.any_eq_true _ _).mp hforeign
  refine ((discloses_iff (runs_calls .vulnerable chainCalls) FixtureBearer.tenantAOldEditor.value
    (.readDocument .tenantBProtected)).mp ?_).2.2.2.2
  cases hok : execute FixtureBearer.tenantAOldEditor.value (.readDocument .tenantBProtected)
      (LabRun.calls .vulnerable chainCalls).state with
  | ok result s =>
      rw [EStateM.run', EStateM.run, hok] at hread
      exact ⟨context, result, s, hcontext, of_decide_eq_true htenant, rfl, hread⟩
  | error e s =>
      rw [EStateM.run', EStateM.run, hok] at hread
      exact absurd hread (Option.some_ne_none _).symm

/-! ## The oracle -/

theorem Deed.disclosure_eq_some {d : Deed} {o : DisclosureObservation} : d.disclosure = some o ↔
    ∃ r, d.result = .document r ∧ r.ownerTenant ≠ d.context.tenantId ∧
      o = ⟨r.evidenceId, d.context.tenantId, r.ownerTenant, r.documentId, 200, r.body, r.provenance⟩ := by
  rw [Deed.disclosure]
  cases d.result with
  | document r =>
      dsimp only
      split_ifs with hsame
      · refine iff_of_false nofun ?_
        rintro ⟨r', heq, hforeign, -⟩
        cases heq
        exact hforeign hsame
      · constructor
        · exact fun h => ⟨r, rfl, hsame, (Option.some.inj h).symm⟩
        · rintro ⟨r', heq, -, rfl⟩
          cases heq
          rfl
  | _ => exact iff_of_false nofun fun ⟨_, heq, _⟩ => nomatch heq

/-- The deeds that disclose are those in which somebody else got the marker of tenant B, in a vulnerable lab. -/
structure Deed.Accounted (mode : LabMode) (d : Deed) : Prop where
  discloses : d.disclosure ≠ none ↔ d.context.tenantId ≠ .b ∧ d.result.body = some syntheticTenantBMarker
  vulnerable : d.disclosure ≠ none → mode = .vulnerable

theorem Tells.accounted (h : Tells mode run) (hknown : Known run bearerValue context) {s : LabState}
    {result : LabActionResult} {action : LabAction} (hok : Lab.perform context action run.state = .ok result s) :
    Deed.Accounted mode ⟨context, action, result, s.now⟩ := by
  have hmarked (hne : (⟨context, action, result, s.now⟩ : Deed).disclosure ≠ none) :
      context.tenantId ≠ .b ∧ result.body = some syntheticTenantBMarker := by
    obtain ⟨o, ho⟩ := Option.ne_none_iff_exists'.mp hne
    have hmem : o ∈ (run.history ++ [(⟨context, action, result, s.now⟩ : Deed)]).filterMap Deed.disclosure :=
      List.mem_filterMap.mpr ⟨_, List.mem_append_right _ (List.mem_singleton_self _), ho⟩
    obtain ⟨hrequester, -, -, -, hmarker, -⟩ := (h.perform hknown hok).genuine o hmem
    obtain ⟨r, hresult, -, rfl⟩ := Deed.disclosure_eq_some.mp ho
    refine ⟨fun heq => ?_, ?_⟩
    · exact absurd (hrequester.symm.trans heq) nofun
    · rw [show result = .document r from hresult]
      exact congrArg some hmarker
  refine ⟨⟨hmarked, fun ⟨htenant, hbody⟩ => ?_⟩, fun hne => ?_⟩
  · obtain ⟨-, -, r, rfl, howner⟩ := h.perform_marker hok hbody htenant
    refine Option.ne_none_iff_exists'.mpr ⟨_, Deed.disclosure_eq_some.mpr ⟨r, rfl, ?_, rfl⟩⟩
    rw [howner]
    exact htenant.symm
  · obtain ⟨htenant, hbody⟩ := hmarked hne
    obtain ⟨-, hcomplete, -⟩ := h.perform_marker hok hbody htenant
    exact (h.completeVulnerableChain_iff.mp hcomplete).1

theorem Runs.accounted (h : Runs mode run) : ∀ d ∈ run.history, d.Accounted mode := by
  have hboth : Tells mode run ∧ ∀ d ∈ run.history, d.Accounted mode := by
    refine Machine.Reaches.invariant (P := fun run => Tells mode run ∧ ∀ d ∈ run.history, d.Accounted mode) h
      ⟨tells_canonical mode, fun _ hd => absurd hd List.not_mem_nil⟩ ?_
    rintro run call o run' ⟨htells, haccounted⟩ - hstep
    have hcall : run' = (run.call call).2 := congrArg Prod.snd (Option.some.inj hstep).symm
    rw [hcall]
    refine ⟨htells.call call, ?_⟩
    cases call with
    | execute bearerValue action =>
        rw [LabRun.call, execute_eq]
        cases hcontext : run.state.authenticate bearerValue with
        | none => exact haccounted
        | some context =>
            dsimp only
            cases hperform : Lab.perform context action run.state with
            | ok result s =>
                refine fun d hd => (List.mem_append.mp hd).elim (haccounted d) fun hd => ?_
                rw [List.mem_singleton.mp hd]
                exact htells.accounted (htells.known hcontext) hperform
            | error e s => exact haccounted
    | observe => exact haccounted
    | reset => exact fun _ hd => absurd hd List.not_mem_nil
  exact hboth.2

theorem evaluateDisclosure_of_genuine (mode : LabMode) {o : DisclosureObservation}
    (h : o.requesterTenant = .a ∧ o.ownerTenant = .b ∧ o.documentId = .tenantBProtected ∧ o.responseStatus = 200 ∧
      o.bodyMarker = syntheticTenantBMarker ∧ o.provenance = .observed) :
    (evaluateDisclosure mode (some o)).violated = true ∧
      (evaluateDisclosure mode (some o)).evidenceIds = [o.evidenceId] := by
  obtain ⟨evidenceId, requester, owner, document, status, marker, provenance⟩ := o
  obtain ⟨rfl, rfl, rfl, rfl, rfl, rfl⟩ := h
  simp [evaluateDisclosure]

/-- In every run the oracle finds a violation exactly if somebody else got the protected document since the last reset,
which happens in a vulnerable lab only, and the evidence it names is that of the last time. -/
theorem oracleResult_iff (h : Runs mode run) :
    (run.state.oracleResult.violated = true ↔ ∃ d ∈ run.history, d.context.tenantId ≠ .b ∧
      d.result.body = some syntheticTenantBMarker) ∧
    (run.state.oracleResult.violated = true → mode = .vulnerable) ∧
    run.state.oracleResult.evidenceIds =
      ((run.history.filterMap Deed.disclosure).getLast?.map DisclosureObservation.evidenceId).toList := by
  have htells := h.tells
  have hdeeds := h.accounted
  rw [LabState.oracleResult, htells.disclosed]
  cases hlast : (run.history.filterMap Deed.disclosure).getLast? with
  | none =>
      have hnone : run.history.filterMap Deed.disclosure = [] := List.getLast?_eq_none_iff.mp hlast
      have hsilent : (evaluateDisclosure run.state.mode none).violated = false := rfl
      rw [hsilent]
      refine ⟨iff_of_false Bool.false_ne_true ?_, fun hfalse => absurd hfalse Bool.false_ne_true, rfl⟩
      rintro ⟨d, hd, hmarked⟩
      obtain ⟨o, ho⟩ := Option.ne_none_iff_exists'.mp ((hdeeds d hd).discloses.mpr hmarked)
      have hmem : o ∈ run.history.filterMap Deed.disclosure := List.mem_filterMap.mpr ⟨d, hd, ho⟩
      rw [hnone] at hmem
      exact List.not_mem_nil hmem
  | some o =>
      have hmem : o ∈ run.history.filterMap Deed.disclosure := List.mem_of_getLast? hlast
      obtain ⟨d, hd, ho⟩ := List.mem_filterMap.mp hmem
      have hne : d.disclosure ≠ none := ho ▸ Option.some_ne_none o
      obtain ⟨hviolated, hids⟩ := evaluateDisclosure_of_genuine run.state.mode (htells.genuine o hmem)
      refine ⟨iff_of_true hviolated ⟨d, hd, (hdeeds d hd).discloses.mp hne⟩, fun _ => (hdeeds d hd).vulnerable hne, ?_⟩
      rw [hids]
      rfl

theorem oracleResult_iff_chain : ∃ d ∈ (LabRun.calls .vulnerable disclosingCalls).history,
    d.context.tenantId ≠ .b ∧ d.result.body = some syntheticTenantBMarker := by
  have hviolated : (LabRun.calls .vulnerable disclosingCalls).state.oracleResult.violated = true := by decide +kernel
  exact (oracleResult_iff (runs_calls .vulnerable disclosingCalls)).1.mp hviolated

end StateWeaver.Lab
