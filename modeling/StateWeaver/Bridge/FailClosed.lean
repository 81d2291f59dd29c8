import StateWeaver.Bridge.ContentAddress
import StateWeaver.Bridge.ExclusiveStaging

/-!
# Staging is fail-closed

With exclusive access, `stage` returns a capture of the very bytes, rejects them with nothing touched, or
poisons the store: then all shards that were there are still there, and all that it created are gone
unless their deletion raised. The active pointer moves only in a compare-and-swap from the expected
generation to one with six equal valid shards, and a poisoned store touches no provider
(`fail_closed_spec`).
-/

namespace StateWeaver.Bridge

open Py (Text text)
open Requests.Action (lift raise onError attempt meets_pure meets_raise meets_bind meets_onError
  meets_lift meets_attempt meets_request)

namespace Exclusive

variable {s s' s'' : Exclusive} {generation : Text}

/-! ## The flag of the store -/

/-- Nothing has changed but the browser and the flag of the store. -/
structure Calm (s s' : Exclusive) : Prop where
  activeGeneration : s'.world.activeGeneration = s.world.activeGeneration
  shards : s'.world.shards = s.world.shards
  trace : s.trace <+: s'.trace
  faulty : s.faulty = true → s'.faulty = true

theorem Quiet.calm (h : Quiet s s') : Calm s s' := ⟨h.activeGeneration, h.shards, h.trace, h.faulty⟩

theorem Calm.trans (h : Calm s s') (h' : Calm s' s'') : Calm s s'' :=
  ⟨h'.activeGeneration.trans h.activeGeneration, h'.shards.trans h.shards, h.trace.trans h'.trace,
    fun hfaulty => h'.faulty (h.faulty hfaulty)⟩

theorem calm_poisoned (s : Exclusive) : Calm s { s with poisoned := true } :=
  ⟨rfl, rfl, List.prefix_rfl, id⟩

section Flag

open RealProviderLabStateStore

theorem meets_requireHealthy {Q : Unit → Exclusive → Prop} {R : Exc → Exclusive → Prop} :
    requireHealthy.Meets environment s Q R ↔
      (s.poisoned = false → Q () s) ∧ (s.poisoned = true → R storePoisoned s) := by
  have hask : ∀ {Q : Bool → Exclusive → Prop}, (ask .getPoisoned).Meets environment s Q R ↔
      Q s.poisoned s := by
    intro Q
    refine meets_request.trans ⟨fun h => h.2.1 _ _ ⟨.answered, rfl⟩, fun h => ⟨trivial, ?_, ?_⟩⟩
    · rintro a s' ⟨outcome, houtcome⟩
      obtain ⟨ha, rfl⟩ := Prod.mk.inj houtcome
      exact Except.ok.inj ha ▸ h
    · rintro e s' ⟨outcome, houtcome⟩
      cases (Prod.mk.inj houtcome).1
  rw [requireHealthy, meets_bind, hask, meets_require, Bool.not_eq_false]

theorem meets_poison {α : Type} {Q : α → Exclusive → Prop} {R : Exc → Exclusive → Prop} :
    (poison : Call α).Meets environment s Q R ↔ R storePoisoned { s with poisoned := true } := by
  rw [poison, meets_bind]
  refine meets_request.trans ⟨fun h => h.2.1 () _ ⟨.answered, rfl⟩, fun h => ⟨trivial, ?_, ?_⟩⟩
  · rintro a s' ⟨outcome, houtcome⟩
    obtain ⟨-, rfl⟩ := Prod.mk.inj houtcome
    exact h
  · rintro e s' ⟨outcome, houtcome⟩
    cases (Prod.mk.inj houtcome).1

theorem meets_poisonUnless {c : Prop} [Decidable c] {Q : Unit → Exclusive → Prop}
    {R : Exc → Exclusive → Prop} : (poisonUnless c).Meets environment s Q R ↔
      (c → Q () s) ∧ (¬ c → R storePoisoned { s with poisoned := true }) := by
  rw [poisonUnless, Requests.Action.meets_ite, meets_poison, meets_pure]

/-- A poisoned store makes no request. -/
theorem meets_refused {α : Type} {f : Unit → Call α} (hpoisoned : s.poisoned = true) :
    (requireHealthy >>= f).Meets environment s (fun _ _ => False)
      fun e s' => e = storePoisoned ∧ s' = s := by
  rw [meets_bind, meets_requireHealthy]
  exact ⟨fun hhealthy => absurd (hpoisoned.symm.trans hhealthy) (by decide), fun _ => ⟨rfl, rfl⟩⟩

end Flag

/-! ## Changes of the shards -/

/-- Some shards were created where none were, and nothing else has changed. -/
structure Staged (generation : Text) (created : List Provider) (s s' : Exclusive) : Prop
    extends Keeps s s' where
  shards (p : Provider) (generation' : Text) : generation' ≠ generation ∨ p ∉ created →
    s'.world.shards p generation' = s.world.shards p generation'
  absent : ∀ p ∈ created, s.world.shards p generation = none

variable {created : List Provider} {p : Provider}

theorem Staged.adds (h : Staged generation created s s')
    (hadds : Adds p generation s' s'') (hpresent : s'.world.shards p generation ≠ none) :
    Staged generation created s s'' := by
  refine ⟨h.toKeeps.trans hadds.toKeeps, fun p' generation' hne => ?_, h.absent⟩
  rw [← h.shards p' generation' hne]
  by_cases heq : (p', generation') = (p, generation)
  · obtain ⟨rfl, rfl⟩ := Prod.mk.inj heq
    exact hadds.kept hpresent
  · exact hadds.shards p' generation' heq

theorem Staged.creates (h : Staged generation created s s') (hp : p ∉ created)
    (hadds : Adds p generation s' s'') (habsent : s'.world.shards p generation = none) :
    Staged generation (created ++ [p]) s s'' := by
  refine ⟨h.toKeeps.trans hadds.toKeeps, fun p' generation' hne => ?_, fun p' hp' => ?_⟩
  · have hne' : (p', generation') ≠ (p, generation) := by
      rintro heq
      obtain ⟨rfl, rfl⟩ := Prod.mk.inj heq
      exact hne.elim (fun h => h rfl) fun h => h (List.mem_append_right _ List.mem_cons_self)
    rw [hadds.shards p' generation' hne']
    exact h.shards p' generation' (hne.imp_right fun h h' => h (List.mem_append_left _ h'))
  · rcases List.mem_append.mp hp' with hp' | hp'
    · exact h.absent p' hp'
    · rw [List.mem_singleton.mp hp', ← h.shards p generation (Or.inr hp)]
      exact habsent

theorem Staged.quiet (h : Staged generation created s s') (hquiet : Quiet s' s'') :
    Staged generation created s s'' :=
  ⟨h.toKeeps.trans hquiet.toKeeps, fun p' generation' hne => by
    rw [hquiet.shards, h.shards p' generation' hne], h.absent⟩

/-- Some shards were deleted, except where the deletion raised, and nothing else has changed. -/
structure RolledBack (generation : Text) (created : List Provider) (s s' : Exclusive) : Prop
    extends Keeps s s' where
  shards (p : Provider) (generation' : Text) : generation' ≠ generation ∨ p ∉ created →
    s'.world.shards p generation' = s.world.shards p generation'
  gone : ∀ p ∈ created, s'.world.shards p generation = none ∨
    s'.world.shards p generation = s.world.shards p generation ∧ DeletionFailed s'.trace p generation

theorem RolledBack.cons (hdeletes : Deletes p generation s s') (h : RolledBack generation created s' s'') :
    RolledBack generation (p :: created) s s'' := by
  refine ⟨hdeletes.toKeeps.trans h.toKeeps, fun p' generation' hne => ?_, fun p' hp' => ?_⟩
  · have hne' : (p', generation') ≠ (p, generation) := by
      rintro heq
      obtain ⟨rfl, rfl⟩ := Prod.mk.inj heq
      exact hne.elim (fun h => h rfl) fun h => h List.mem_cons_self
    rw [← hdeletes.shards p' generation' hne']
    exact h.shards p' generation' (hne.imp_right fun h h' => h (List.mem_cons_of_mem _ h'))
  · by_cases heq : p' = p
    · subst heq
      have hgone := hdeletes.gone.imp_right fun hfailed => And.intro hfailed.1 (hfailed.2.mono h.trace)
      by_cases hmem : p' ∈ created
      · rcases h.gone p' hmem with hnone | ⟨hsame, hfailed⟩
        · exact Or.inl hnone
        · rw [hsame]
          exact hgone
      · rw [h.shards p' generation (Or.inr hmem)]
        exact hgone
    · have hsame := hdeletes.shards p' generation fun h => heq (Prod.mk.inj h).1
      rw [← hsame]
      exact h.gone p' ((List.mem_cons.mp hp').resolve_left heq)

/-- What was created and then rolled back. -/
theorem Staged.rolledBack {s₁ s₂ s₃ : Exclusive} (h : Staged generation created s s₁) (hcalm : Calm s₁ s₂)
    (hrolled : RolledBack generation created.reverse s₂ s₃) (p : Provider) (generation' : Text) :
    s₃.world.shards p generation' = s.world.shards p generation' ∨
      s.world.shards p generation' = none ∧ DeletionFailed s₃.trace p generation' := by
  by_cases hcreated : generation' = generation ∧ p ∈ created
  · obtain ⟨rfl, hp⟩ := hcreated
    have habsent := h.absent p hp
    rw [habsent]
    rcases hrolled.gone p (List.mem_reverse.mpr hp) with hnone | ⟨-, hfailed⟩
    · exact Or.inl hnone
    · exact Or.inr ⟨rfl, hfailed⟩
  · have hne : generation' ≠ generation ∨ p ∉ created := by
      by_cases hgeneration : generation' = generation
      · exact Or.inr fun hp => hcreated ⟨hgeneration, hp⟩
      · exact Or.inl hgeneration
    refine Or.inl ?_
    rw [hrolled.shards p generation' (hne.imp_right fun hp h => hp (List.mem_reverse.mp h)), hcalm.shards,
      h.shards p generation' hne]

theorem meets_rollback (hgeneration : isGeneration generation = true) :
    (RealProviderLabStateStore.rollback generation created).Meets environment s
      (fun _ => RolledBack generation created s) fun _ _ => False := by
  induction created generalizing s with
  | nil => exact ⟨.refl s, fun _ _ _ => rfl, nofun⟩
  | cons p rest ih =>
      have hrest : ∀ s₁, Deletes p generation s s₁ →
          (RealProviderLabStateStore.rollback generation rest).Meets environment s₁
            (fun _ => RolledBack generation (p :: rest) s) fun _ _ => False := fun s₁ hdeletes =>
        ih.mono (fun _ _ h => h.cons hdeletes) fun _ _ h => h
      rw [RealProviderLabStateStore.rollback, meets_bind, meets_attempt, meets_bind]
      refine (isDeleter_checkpointDeleter p hgeneration s).mono ?_ fun _ s₁ h => hrest s₁ h
      intro _ s₁ hdeletes
      exact (isReader_checkpointReader p hgeneration s₁).mono (fun _ s₂ h => hrest s₂ (hdeletes.quiet h.1))
        fun _ s₂ h => hrest s₂ (hdeletes.quiet h.1)

/-! ## Captures -/

variable [Sha256]

/-- Six equal valid shards of a generation. -/
structure Complete (w : World) (generation : Text) (raw : ByteArray) (digest : Text) : Prop where
  valid : validateCheckpointBytes raw = .ok (raw, generation, digest)
  holds (p : Provider) : w.Holds p generation raw

theorem Complete.congr {w w' : World} {raw : ByteArray} {digest : Text}
    (h : Complete w generation raw digest) (hshards : w'.shards = w.shards) :
    Complete w' generation raw digest :=
  ⟨h.valid, fun p => (h.holds p).congr (by rw [hshards])⟩

/-- What a capture does that raises. -/
structure Stops (generation : Text) (s s' : Exclusive) : Prop extends Calm s s' where
  cause : s'.faulty = true ∨ ¬ ∃ raw digest, Complete s.world generation raw digest

open RealProviderLabStateStore

theorem meets_observe (p : Provider) (hgeneration : isGeneration generation = true) :
    (observe p generation).Meets environment s
      (fun out s' => Quiet s s' ∧ s.world.Holds p generation out.1 ∧
        validateCheckpointBytes out.1 = .ok out)
      fun _ => Stops generation s := by
  have hpoison : ∀ {e s₁}, Stops generation s s₁ → (if e.isPoisoned then raise e else poison :
      Call (ByteArray × Text × Text)).Meets environment s₁ (fun out s' => Quiet s s' ∧
        s.world.Holds p generation out.1 ∧ validateCheckpointBytes out.1 = .ok out)
      fun _ => Stops generation s := by
    intro e s₁ hstops
    rw [Requests.Action.meets_ite]
    exact ⟨fun _ => hstops, fun _ => meets_poison.mpr
      ⟨hstops.toCalm.trans (calm_poisoned s₁), hstops.cause⟩⟩
  rw [observe, meets_onError, meets_bind]
  refine (isReader_checkpointReader p hgeneration s).mono ?_ ?_
  · rintro observed s₁ ⟨hquiet, hfound⟩
    rcases hfound with ⟨rfl, hnone⟩ | ⟨raw, rfl, hholds⟩
    · refine meets_poison.mpr (hpoison ⟨hquiet.calm.trans (calm_poisoned s₁), Or.inr ?_⟩)
      rintro ⟨raw, digest, hcomplete⟩
      obtain ⟨content, hcontent, -⟩ := hcomplete.holds p
      rw [hnone] at hcontent
      cases hcontent
    · refine meets_lift.mpr ⟨fun out hout => ?_, fun e he => hpoison ⟨hquiet.calm, Or.inr ?_⟩⟩
      · obtain ⟨bytes, generation', digest⟩ := out
        obtain rfl := fst_of_validate hout
        exact ⟨hquiet, hholds, hout⟩
      · rintro ⟨raw', digest, hcomplete⟩
        obtain rfl := hholds.unique (hcomplete.holds p)
        rw [hcomplete.valid] at he
        cases he
  · rintro e s₁ ⟨hquiet, -, hcause⟩
    refine hpoison ⟨hquiet.calm, hcause.imp_right ?_⟩
    rintro ⟨content, hcontent, hread⟩ ⟨raw, digest, hcomplete⟩
    obtain ⟨content', hcontent', hread'⟩ := hcomplete.holds p
    obtain rfl := Option.some.inj (hcontent.symm.trans hcontent')
    rw [hread] at hread'
    cases hread'

/-- What a capture reports of one provider. -/
def observation (generation : Text) (raw : ByteArray) (digest : Text) (p : Provider) : Observation :=
  ⟨p, generation, digest, checkpointHash raw⟩

/-- A capture of six equal valid shards. -/
def completeCapture (generation : Text) (raw : ByteArray) (digest : Text) : Capture :=
  ⟨generation, digest, raw, checkpointProviders.map (observation generation raw digest)⟩

/-- The shards of some providers that have been observed are equal and valid. -/
structure Observed (w : World) (generation : Text) (providers : List Provider) (raw : ByteArray)
    (digest : Text) : Prop where
  valid : validateCheckpointBytes raw = .ok (raw, generation, digest)
  holds : ∀ p ∈ providers, w.Holds p generation raw

theorem Observed.congr {w w' : World} {providers : List Provider} {raw : ByteArray} {digest : Text}
    (h : Observed w generation providers raw digest) (hshards : w'.shards = w.shards) :
    Observed w' generation providers raw digest :=
  ⟨h.valid, fun p hp => (h.holds p hp).congr (by rw [hshards])⟩

/-- The loop of a capture, after some providers have been observed. -/
theorem meets_captureFrom (hgeneration : isGeneration generation = true) {rest providers : List Provider}
    {raw : ByteArray} {digest : Text} (hne : providers ≠ [])
    (h : Observed s.world generation providers raw digest) :
    (captureFrom generation rest (some (raw, digest))
      (providers.map (observation generation raw digest))).Meets environment s
      (fun captured s' => Quiet s s' ∧ Observed s.world generation (providers ++ rest) raw digest ∧
        captured = ⟨generation, digest, raw,
          (providers ++ rest).map (observation generation raw digest)⟩)
      fun _ => Stops generation s := by
  induction rest generalizing s providers with
  | nil =>
      rw [List.append_nil]
      exact ⟨.refl s, h, rfl⟩
  | cons p rest ih =>
      have hstop : ∀ {s₁}, Quiet s s₁ → (¬ ∃ raw digest, Complete s.world generation raw digest) →
          Stops generation s { s₁ with poisoned := true } := fun hquiet hincomplete =>
        ⟨hquiet.calm.trans (calm_poisoned _), Or.inr hincomplete⟩
      obtain ⟨first, hfirst⟩ := List.exists_mem_of_ne_nil _ hne
      rw [captureFrom, meets_bind]
      refine (meets_observe p hgeneration).mono ?_ fun _ _ h => h
      rintro ⟨raw', generation', digest'⟩ s₁ ⟨hquiet, hholds, hvalid⟩
      rw [meets_bind, meets_poisonUnless]
      refine ⟨?_, fun hother => hstop hquiet ?_⟩
      · rintro rfl
        rw [meets_bind, meets_poisonUnless]
        refine ⟨fun hequal => ?_, fun hdiffer => hstop hquiet ?_⟩
        · obtain ⟨rfl, rfl⟩ := Prod.mk.inj (hequal _ rfl)
          have hobserved : Observed s.world generation' (providers ++ [p]) raw' digest' := by
            refine ⟨h.valid, fun p' hp' => ?_⟩
            rcases List.mem_append.mp hp' with hp' | hp'
            · exact h.holds p' hp'
            · rw [List.mem_singleton.mp hp']
              exact hholds
          have hnext := ih (s := s₁) (List.append_ne_nil_of_left_ne_nil hne [p])
            (hobserved.congr hquiet.shards)
          rw [List.map_append, List.append_assoc] at hnext
          refine Requests.Action.Meets.mono hnext ?_ ?_
          · rintro captured s₂ ⟨hquiet₂, hall, hcaptured⟩
            exact ⟨hquiet.trans hquiet₂, hall.congr hquiet.shards.symm, hcaptured⟩
          · rintro e s₂ hstops
            refine ⟨hquiet.calm.trans hstops.toCalm, hstops.cause.imp_right fun hnot => ?_⟩
            rintro ⟨raw, digest, hcomplete⟩
            exact hnot ⟨raw, digest, hcomplete.congr hquiet.shards⟩
        · rintro ⟨raw'', digest'', hcomplete⟩
          obtain rfl := (h.holds first hfirst).unique (hcomplete.holds first)
          obtain rfl := hholds.unique (hcomplete.holds p)
          have hdigest := (Prod.mk.inj (Prod.mk.inj (Except.ok.inj (h.valid.symm.trans hvalid))).2).2
          refine hdiffer fun first hfirst => ?_
          rw [← Option.mem_some.mp hfirst, hdigest]
      · rintro ⟨raw'', digest'', hcomplete⟩
        obtain rfl := hholds.unique (hcomplete.holds p)
        exact hother (Prod.mk.inj (Prod.mk.inj (Except.ok.inj (hvalid.symm.trans hcomplete.valid))).2).1

theorem Stops.of_quiet (hquiet : Quiet s s') (h : Stops generation s' s'') : Stops generation s s'' := by
  refine ⟨hquiet.calm.trans h.toCalm, h.cause.imp_right fun hnot => ?_⟩
  rintro ⟨raw, digest, hcomplete⟩
  exact hnot ⟨raw, digest, hcomplete.congr hquiet.shards⟩

theorem meets_capture (hgeneration : isGeneration generation = true) (hhealthy : s.poisoned = false) :
    (capture generation).Meets environment s
      (fun captured s' => Quiet s s' ∧ ∃ raw digest, Complete s.world generation raw digest ∧
        captured = completeCapture generation raw digest)
      fun _ => Stops generation s := by
  rw [capture, meets_bind, meets_requireHealthy]
  refine ⟨fun _ => ?_, fun h => absurd (h.symm.trans hhealthy) (by decide)⟩
  rw [meets_bind, meets_require]
  refine ⟨fun _ => ?_, fun h => absurd hgeneration h⟩
  rw [checkpointProviders, captureFrom, meets_bind]
  refine (meets_observe .postgres hgeneration).mono ?_ fun _ _ h => h
  rintro ⟨raw, generation', digest⟩ s₁ ⟨hquiet, hholds, hvalid⟩
  rw [meets_bind, meets_poisonUnless]
  refine ⟨?_, fun hother => ⟨hquiet.calm.trans (calm_poisoned _), Or.inr ?_⟩⟩
  · rintro rfl
    rw [meets_bind, meets_poisonUnless]
    refine ⟨fun _ => ?_, fun h => absurd nofun h⟩
    have hfirst : Observed s₁.world generation' [.postgres] raw digest :=
      ⟨hvalid, List.forall_mem_singleton.mpr (hholds.congr (by rw [hquiet.shards]))⟩
    refine (meets_captureFrom hgeneration (List.cons_ne_nil _ _) hfirst).mono ?_
      fun _ _ h => h.of_quiet hquiet
    rintro captured s₂ ⟨hquiet₂, hall, hcaptured⟩
    exact ⟨hquiet.trans hquiet₂, raw, digest, ⟨hvalid, fun p =>
      (hall.holds p (mem_checkpointProviders p)).congr (by rw [hquiet.shards])⟩, hcaptured⟩
  · rintro ⟨raw', digest', hcomplete⟩
    obtain rfl := hholds.unique (hcomplete.holds .postgres)
    exact hother (Prod.mk.inj (Prod.mk.inj (Except.ok.inj (hvalid.symm.trans hcomplete.valid))).2).1

theorem meets_capture_calm (hhealthy : s.poisoned = false) :
    (capture generation).Meets environment s (fun _ => Calm s) fun _ => Calm s := by
  by_cases hgeneration : isGeneration generation = true
  · exact (meets_capture hgeneration hhealthy).mono (fun _ _ h => h.1.calm) fun _ _ h => h.toCalm
  · rw [capture, meets_bind, meets_requireHealthy]
    refine ⟨fun _ => ?_, fun h => absurd (h.symm.trans hhealthy) (by decide)⟩
    rw [meets_bind, meets_require]
    exact ⟨fun h => absurd h hgeneration, fun _ => (Quiet.refl s).calm⟩

/-! ## Staging -/

/-- What the loop of `stage` leaves. -/
structure Loop (generation : Text) (raw : ByteArray) (out : List Provider × Except Exc Unit)
    (s s' : Exclusive) : Prop where
  staged : Staged generation out.1 s s'
  holds : out.2 = .ok () → ∀ p, s'.world.Holds p generation raw
  cause (e : Exc) : out.2 = .error e → s'.faulty = true ∨ ∃ p, Foreign s.world p generation raw

variable {raw : ByteArray} {providers rest : List Provider}

theorem meets_stageFrom (hsize : raw.size ≤ maxCheckpointBytes)
    (hgeneration : isGeneration generation = true) (digest : Text) {s₁ : Exclusive}
    (hnodup : (providers ++ rest).Nodup) (hall : ∀ p, p ∈ providers ++ rest)
    (hcreated : ∀ p ∈ created, p ∈ providers) (hstaged : Staged generation created s s₁)
    (hholds : ∀ p ∈ providers, s₁.world.Holds p generation raw) :
    (stageFrom raw generation digest rest created).Meets environment s₁
      (fun out s' => Loop generation raw out s s') fun _ _ => False := by
  induction rest generalizing s₁ providers created with
  | nil =>
      rw [List.append_nil] at hall
      exact ⟨hstaged, fun _ p => hholds p (hall p), nofun⟩
  | cons p rest ih =>
      have hp : p ∉ created := fun h => (List.nodup_append.mp hnodup).2.2 p (hcreated p h) p
        List.mem_cons_self rfl
      have hshard := hstaged.shards p generation (Or.inr hp)
      rw [stageFrom, meets_bind, meets_attempt]
      refine (isReader_checkpointReader p hgeneration s₁).mono ?_ ?_
      · rintro existing s₂ ⟨hquiet, hfound⟩
        have hstaged₂ := hstaged.quiet hquiet
        rw [meets_bind, meets_attempt]
        refine (isStager_checkpointStager p hsize hgeneration digest s₂).mono ?_ ?_
        · rintro wasCreated s₃ ⟨hadds, hholds₃, hwas⟩
          have hholds' : ∀ p' ∈ providers ++ [p], s₃.world.Holds p' generation raw := by
            intro p' hp'
            by_cases heq : p' = p
            · rw [heq]
              exact hholds₃
            · have hmem : p' ∈ providers := by
                rcases List.mem_append.mp hp' with hp' | hp'
                · exact hp'
                · exact absurd (List.mem_singleton.mp hp') heq
              refine (hholds p' hmem).congr ?_
              rw [hadds.shards p' generation fun h => heq (Prod.mk.inj h).1, hquiet.shards]
          have hall' : ∀ p', p' ∈ (providers ++ [p]) ++ rest := fun p' => by
            rw [List.append_assoc]
            exact hall p'
          have hnodup' : ((providers ++ [p]) ++ rest).Nodup := by
            rw [List.append_assoc]
            exact hnodup
          refine ih hnodup' hall' ?_ ?_ hholds'
          · intro p' hp'
            split at hp'
            · rcases List.mem_append.mp hp' with hp' | hp'
              · exact List.mem_append_left _ (hcreated p' hp')
              · exact List.mem_append_right _ hp'
            · exact List.mem_append_left _ (hcreated p' hp')
          · split
            · next htrue => exact hstaged₂.creates hp hadds (Option.isNone_iff_eq_none.mp (hwas ▸ htrue))
            · next hfalse =>
                exact hstaged₂.adds hadds fun hnone => hfalse (by rw [hwas, hnone]; rfl)
        · rintro e s₃ ⟨hadds, howned, hcause⟩
          have hshard₂ : s₂.world.shards p generation = s.world.shards p generation := by
            rw [hquiet.shards, hshard]
          refine ⟨?_, nofun, fun e' _ => hcause.imp_right fun h => ⟨p, h.congr hshard₂.symm⟩⟩
          rcases hfound with ⟨rfl, hnone⟩ | ⟨raw', rfl, content, hcontent, -⟩
          · rw [howned]
            exact hstaged₂.creates hp hadds (by rw [hquiet.shards, hnone])
          · refine hstaged₂.adds hadds fun hnone => ?_
            rw [hquiet.shards, hcontent] at hnone
            cases hnone
      · rintro e s₂ ⟨hquiet, -, hcause⟩
        refine ⟨hstaged.quiet hquiet, nofun, fun e' _ => hcause.imp_right fun h => ⟨p, ?_⟩⟩
        exact h.foreign.congr hshard.symm

/-- A call of `stage` that has captured the bytes. -/
structure Stages (checkpoint : ByteArray) (captured : Capture) (s s' : Exclusive) : Prop extends
    Keeps s s' where
  captured : ∃ generation digest, Complete s'.world generation checkpoint digest ∧
    captured = completeCapture generation checkpoint digest
  kept (p : Provider) (generation : Text) : s.world.shards p generation ≠ none →
    s'.world.shards p generation = s.world.shards p generation

/-- A call of `stage` that has poisoned the store. -/
structure Poisons (checkpoint : ByteArray) (s s' : Exclusive) : Prop where
  poisoned : s'.poisoned = true
  activeGeneration : s'.world.activeGeneration = s.world.activeGeneration
  shards (p : Provider) (generation : Text) :
    s'.world.shards p generation = s.world.shards p generation ∨
      s.world.shards p generation = none ∧ DeletionFailed s'.trace p generation
  cause : s'.faulty = true ∨ ∃ p generation, Foreign s.world p generation checkpoint

theorem meets_stage (checkpoint : ByteArray) (hhealthy : s.poisoned = false) :
    (stage checkpoint).Meets environment s (fun captured s' => Stages checkpoint captured s s')
      fun e s' => validateCheckpointBytes checkpoint = .error e ∧ s' = s ∨
        e = storePoisoned ∧ Poisons checkpoint s s' := by
  rw [stage, meets_bind, meets_requireHealthy]
  refine ⟨fun _ => ?_, fun h => absurd (h.symm.trans hhealthy) (by decide)⟩
  rw [meets_bind, meets_lift]
  refine ⟨?_, fun e he => Or.inl ⟨he, rfl⟩⟩
  rintro ⟨raw, generation, digest⟩ hvalid
  obtain rfl := fst_of_validate hvalid
  have hgeneration := isGeneration_of_validate hvalid
  rw [meets_bind]
  have hempty : ∀ p ∈ ([] : List Provider), s.world.Holds p generation raw := fun _ hp =>
    absurd hp List.not_mem_nil
  refine (meets_stageFrom (size_of_validate hvalid) hgeneration digest (by decide) mem_checkpointProviders
    (fun _ hp => hp) ⟨.refl s, fun _ _ _ => rfl, fun _ hp => absurd hp List.not_mem_nil⟩ hempty).mono ?_ nofun
  rintro ⟨created, result⟩ s₁ ⟨hstaged, hholds, hcause⟩
  -- Whatever fails from here on is rolled back.
  have hrollback : ∀ {s₂}, Calm s₁ s₂ →
      (s₂.faulty = true ∨ ∃ p, Foreign s.world p generation raw) →
      (do RealProviderLabStateStore.rollback generation created.reverse; poison : Call Capture).Meets
        environment s₂ (fun captured s' => Stages raw captured s s')
        fun e s' => validateCheckpointBytes raw = .error e ∧ s' = s ∨
          e = storePoisoned ∧ Poisons raw s s' := by
    intro s₂ hcalm hcause₂
    rw [meets_bind]
    refine (meets_rollback hgeneration).mono ?_ nofun
    intro _ s₃ hrolled
    refine meets_poison.mpr (Or.inr ⟨rfl, rfl, ?_,
      fun p generation' => hstaged.rolledBack hcalm hrolled p generation', ?_⟩)
    · exact (hrolled.activeGeneration.trans hcalm.activeGeneration).trans hstaged.activeGeneration
    · exact hcause₂.imp hrolled.faulty fun ⟨p, hforeign⟩ => ⟨p, generation, hforeign⟩
  rw [meets_bind, meets_attempt, meets_bind, meets_lift]
  refine ⟨fun _ hresult => ?_, fun e hresult => hrollback ⟨rfl, rfl, List.prefix_rfl, id⟩ (hcause e hresult)⟩
  have hcomplete : Complete s₁.world generation raw digest := ⟨hvalid, hholds hresult⟩
  refine (meets_capture hgeneration (hstaged.poisoned.trans hhealthy)).mono ?_ ?_
  · rintro captured s₂ ⟨hquiet, raw', digest', hcomplete', rfl⟩
    obtain rfl := (hcomplete'.holds .postgres).unique (hcomplete.holds .postgres)
    refine ⟨hstaged.toKeeps.trans hquiet.toKeeps, ⟨generation, digest', ?_, rfl⟩, fun p generation' hne => ?_⟩
    · exact hcomplete'.congr hquiet.shards
    · rw [hquiet.shards]
      refine hstaged.shards p generation' ?_
      by_cases hgeneration' : generation' = generation
      · exact Or.inr fun hp => hne (hgeneration' ▸ hstaged.absent p hp)
      · exact Or.inl hgeneration'
  · rintro e s₂ hstops
    exact hrollback hstops.toCalm (Or.inl (hstops.cause.resolve_right fun h => h ⟨raw, digest, hcomplete⟩))

/-! ## The pointer -/

theorem meets_loadActive (hhealthy : s.poisoned = false) : loadActive.Meets environment s
    (fun captured s' => Quiet s s' ∧ s.world.activeGeneration = some captured.generation)
    fun _ s' => Calm s s' ∧ (s'.faulty = true ∨ ¬ ∃ generation raw digest, isGeneration generation = true ∧
      s.world.activeGeneration = some generation ∧ Complete s.world generation raw digest) := by
  rw [loadActive, meets_bind, meets_requireHealthy]
  refine ⟨fun _ => ?_, fun h => absurd (h.symm.trans hhealthy) (by decide)⟩
  rw [checkpointPgActive, meets_bind, meets_bind]
  refine (ask_quiet rfl rfl rfl fun _ => rfl).mono ?_ fun e s' h => ⟨h.1.calm, Or.inl h.2.faulty⟩
  rintro rows s₁ ⟨rfl, hquiet, -⟩
  rw [meets_bind, meets_require]
  refine ⟨fun hvalid => ?_, fun hinvalid => ⟨hquiet.calm, Or.inr ?_⟩⟩
  · cases hactive : s.world.activeGeneration with
    | none =>
        refine ⟨hquiet.calm, Or.inr ?_⟩
        rintro ⟨generation, raw, digest, -, hnone, -⟩
        cases hnone
    | some generation =>
        refine (meets_capture (hvalid generation hactive) (hquiet.poisoned.trans hhealthy)).mono ?_ ?_
        · rintro captured s₂ ⟨hquiet₂, raw, digest, hcomplete, rfl⟩
          exact ⟨hquiet.trans hquiet₂, rfl⟩
        · intro e s₂ hstops
          refine ⟨hquiet.calm.trans hstops.toCalm, hstops.cause.imp_right fun hnot => ?_⟩
          rintro ⟨generation', raw, digest, -, hsome, hcomplete⟩
          obtain rfl := Option.some.inj hsome
          exact hnot ⟨raw, digest, hcomplete.congr hquiet.shards⟩
  · rintro ⟨generation, raw, digest, hgeneration, hactive, -⟩
    refine hinvalid fun generation' hgeneration' => ?_
    obtain rfl := Option.some.inj (hactive.symm.trans hgeneration')
    exact hgeneration

/-- The pointer is as it was, or it has moved from the expected generation to a complete one. -/
structure Moves (expected : Option Text) (next : Text) (s s' : Exclusive) : Prop where
  shards : s'.world.shards = s.world.shards
  trace : s.trace <+: s'.trace
  faulty : s.faulty = true → s'.faulty = true
  activeGeneration : s'.world.activeGeneration = s.world.activeGeneration ∨
    s.world.activeGeneration = expected ∧ s'.world.activeGeneration = some next ∧
      ∃ raw digest, Complete s.world next raw digest

theorem Calm.moves {expected : Option Text} {next : Text} (h : Calm s s') : Moves expected next s s' :=
  ⟨h.shards, h.trace, h.faulty, Or.inl h.activeGeneration⟩

theorem Moves.calm {expected : Option Text} {next : Text} (h : Moves expected next s s') (h' : Calm s' s'') :
    Moves expected next s s'' := by
  refine ⟨h'.shards.trans h.shards, h.trace.trans h'.trace, fun hfaulty => h'.faulty (h.faulty hfaulty), ?_⟩
  rw [h'.activeGeneration]
  exact h.activeGeneration

theorem moves_after {expected : Option Text} {next : Text} {raw : ByteArray} {digest : Text}
    (hcomplete : Complete s.world next raw digest) (r : Request) (raised faulty : Bool) :
    Moves expected next s (s.after r (.activate expected next) raised faulty) := by
  have hfaulty : s.faulty = true →
      (s.after r (.activate expected next) raised faulty).faulty = true := fun h => by
    rw [after, h, Bool.true_or]
  have hworld : (s.after r (.activate expected next) raised faulty).world =
      if s.world.swaps expected next then { s.world with activeGeneration := some next } else s.world := rfl
  refine ⟨?_, List.prefix_append _ _, hfaulty, ?_⟩
  · rw [hworld]
    split
    · rfl
    · rfl
  · rw [hworld]
    split
    · next hswaps =>
        exact Or.inr ⟨of_decide_eq_true (Bool.and_eq_true_iff.mp hswaps).1, rfl, raw, digest, hcomplete⟩
    · exact Or.inl rfl

/-- Loading what has just been made active. -/
theorem meets_reload {expected : Option Text} {next digest : Text} {raw : ByteArray}
    (hmoves : Moves expected next s s') (hhealthy : s'.poisoned = false)
    (hactive : s'.world.activeGeneration = some next) (hcomplete : Complete s'.world next raw digest) :
    (do let active ← onError loadActive fun e => if e.isConflict then raise e else poison
        poisonUnless (active.generation = next)
        return active : Call Capture).Meets environment s'
      (fun _ s'' => Moves expected next s s'' ∧ s''.world.activeGeneration = some next)
      fun _ s'' => Moves expected next s s'' ∧ s''.faulty = true := by
  rw [meets_bind, meets_onError]
  refine (meets_loadActive hhealthy).mono ?_ ?_
  · rintro captured s₁ ⟨hquiet, hcaptured⟩
    have hmoves₁ := hmoves.calm hquiet.calm
    rw [meets_bind, meets_poisonUnless]
    refine ⟨fun _ => ⟨hmoves₁, hquiet.activeGeneration.trans hactive⟩, fun hne => absurd ?_ hne⟩
    exact Option.some.inj (hcaptured.symm.trans hactive)
  · rintro e s₁ ⟨hcalm, hcause⟩
    have hmoves₁ := hmoves.calm hcalm
    have hfaulty : s₁.faulty = true := hcause.resolve_right fun hnot => hnot
      ⟨next, raw, digest, isGeneration_of_validate hcomplete.valid, hactive, hcomplete⟩
    rw [Requests.Action.meets_ite]
    exact ⟨fun _ => ⟨hmoves₁, hfaulty⟩,
      fun _ => meets_poison.mpr ⟨hmoves₁.calm (calm_poisoned s₁), hfaulty⟩⟩

theorem meets_compareAndSwap {expected : Option Text} {next : Text} (hhealthy : s.poisoned = false) :
    (compareAndSwap expected next).Meets environment s
      (fun _ s' => Moves expected next s s' ∧ s'.world.activeGeneration = some next)
      fun _ s' => Moves expected next s s' ∧ (s'.faulty = true ∨ s.world.activeGeneration ≠ expected ∨
        ¬ ((∀ generation ∈ expected, isGeneration generation = true) ∧
          ∃ raw digest, Complete s.world next raw digest)) := by
  rw [compareAndSwap, meets_bind, meets_requireHealthy]
  refine ⟨fun _ => ?_, fun h => absurd (h.symm.trans hhealthy) (by decide)⟩
  rw [meets_bind, meets_require]
  refine ⟨fun _ => ?_, fun hinvalid => ⟨(Quiet.refl s).calm.moves, Or.inr (Or.inr fun h => hinvalid h.1)⟩⟩
  rw [meets_bind, meets_require]
  refine ⟨fun hnext => ?_, fun hinvalid => ⟨(Quiet.refl s).calm.moves, Or.inr (Or.inr ?_)⟩⟩
  rotate_left
  · rintro ⟨-, raw, digest, hcomplete⟩
    exact hinvalid (isGeneration_of_validate hcomplete.valid)
  rw [meets_bind]
  refine (meets_capture hnext hhealthy).mono ?_
    fun e s₁ hstops => ⟨hstops.moves, hstops.cause.imp_right fun hnot => Or.inr fun h => hnot h.2⟩
  rintro - s₁ ⟨hquiet, raw, digest, hcomplete, -⟩
  have hcomplete₁ := hcomplete.congr hquiet.shards
  -- The request takes effect from the state that the capture has left.
  have hmoves : ∀ {s₂}, Moves expected next s₁ s₂ → Moves expected next s s₂ := fun h => by
    refine ⟨h.shards.trans hquiet.shards, hquiet.trace.trans h.trace, fun hf => h.faulty (hquiet.faulty hf), ?_⟩
    rw [← hquiet.activeGeneration]
    exact h.activeGeneration.imp_right fun h => ⟨h.1, h.2.1, raw, digest, hcomplete⟩
  rw [meets_bind, checkpointPgCas, meets_bind]
  refine meets_ask rfl (fun rows hrows => ?_) (fun _ h => by cases h)
    (fun fault => ⟨hquiet.calm.moves.calm (quiet_after rfl _ _ _).calm, Or.inl (Bool.or_true _)⟩)
    fun written fault => ⟨hmoves (moves_after hcomplete₁ _ _ _), Or.inl (Bool.or_true _)⟩
  obtain rfl := Except.ok.inj hrows
  have hmoves₂ := hmoves (moves_after hcomplete₁ (.updateActive expected next) false false)
  rw [meets_require]
  by_cases hswaps : s₁.world.swaps expected next = true
  · rw [if_pos hswaps]
    refine ⟨fun _ => ?_, fun h => absurd rfl h⟩
    have hworld : s₁.world.apply (.activate expected next) =
        { s₁.world with activeGeneration := some next } := if_pos hswaps
    refine (meets_reload hmoves₂ (hquiet.poisoned.trans hhealthy) ?_ (hcomplete₁.congr ?_)).mono
      (fun _ _ h => h) fun _ _ h => ⟨h.1, Or.inl h.2⟩
    · rw [after, hworld]
    · rw [after, hworld]
  · rw [if_neg hswaps]
    refine ⟨(fun h => by cases h), fun _ => ⟨hmoves₂, Or.inr (Or.inl fun hactive => hswaps ?_)⟩⟩
    obtain ⟨content, hcontent, -⟩ := hcomplete₁.holds .postgres
    rw [World.swaps, hquiet.activeGeneration, hactive, hcontent]
    exact Bool.and_eq_true_iff.mpr ⟨decide_eq_true rfl, rfl⟩

end Exclusive

/-! ## The calls of one store -/

/-- A store that has the providers to itself. -/
structure Alone where
  poisoned : Bool
  world : World

/-- How a call ended: its result and the requests that it made, each with whether it raised. -/
structure Ending where
  result : Except Exc Capture
  trace : List (Request × Bool)

section

variable [Sha256]

namespace Alone

/-- Where a call starts. -/
def start (s : Alone) : Exclusive := ⟨s.poisoned, s.world, [], false⟩

/-- Run a call, whose requests end as given. -/
def perform (s : Alone) (call : StoreCall) (outcomes : ℕ → Outcome) : Ending × Alone :=
  let (result, e) := call.action.run Exclusive.handle s.start outcomes
  (⟨result, e.trace⟩, ⟨e.poisoned, e.world⟩)

def machine : Machine Alone (StoreCall × (ℕ → Outcome)) Ending :=
  ⟨fun s i => some (s.perform i.1 i.2)⟩

/-- What holds of the code of a call holds of every run. -/
theorem perform_spec {s s' : Alone} (call : StoreCall) {o : Ending} {Q : Capture → Exclusive → Prop}
    {R : Exc → Exclusive → Prop} (h : call.action.Meets Exclusive.environment s.start Q R)
    {outcomes : ℕ → Outcome} (hperform : s.perform call outcomes = (o, s')) :
    ∃ e : Exclusive, s' = ⟨e.poisoned, e.world⟩ ∧ o.trace = e.trace ∧
      ((∃ captured, o.result = .ok captured ∧ Q captured e) ∨
        ∃ error, o.result = .error error ∧ R error e) := by
  have hrun := Requests.Program.Meets.run h outcomes
  rw [perform] at hperform
  generalize call.action.run Exclusive.handle s.start outcomes = final at hrun hperform
  obtain ⟨rfl, rfl⟩ := Prod.mk.inj hperform
  obtain ⟨result, e⟩ := final
  cases result with
  | ok captured => exact ⟨e, rfl, rfl, Or.inl ⟨captured, rfl, hrun⟩⟩
  | error error => exact ⟨e, rfl, rfl, Or.inr ⟨error, rfl, hrun⟩⟩

variable {s s' : Alone} {checkpoint : ByteArray} {o : Ending}

/-- A call of `stage` has captured the bytes from all six providers. -/
structure Captured (checkpoint : ByteArray) (o : Ending) (s' : Alone) : Prop where
  captured : ∃ generation digest, Exclusive.Complete s'.world generation checkpoint digest ∧
    o.result = .ok (Exclusive.completeCapture generation checkpoint digest)

/-- A call of `stage` has rejected the bytes, and nothing was touched. -/
structure Rejected (checkpoint : ByteArray) (o : Ending) (s s' : Alone) : Prop where
  rejected : ∃ e, validateCheckpointBytes checkpoint = .error e ∧ o.result = .error e
  untouched : o.trace = [] ∧ s' = s

/-- A call of `stage` has poisoned the store. -/
structure Poisoned (o : Ending) (s s' : Alone) : Prop where
  refused : o.result = .error RealProviderLabStateStore.storePoisoned
  poisoned : s'.poisoned = true
  kept (p : Provider) (generation : Text) : s.world.shards p generation ≠ none →
    s'.world.shards p generation = s.world.shards p generation
  gone (p : Provider) (generation : Text) : s.world.shards p generation = none →
    s'.world.shards p generation = none ∨ Exclusive.DeletionFailed o.trace p generation
  activeGeneration : s'.world.activeGeneration = s.world.activeGeneration

/-- Whatever was called, a poisoned store refuses. -/
theorem perform_of_poisoned (hpoisoned : s.poisoned = true) {call : StoreCall} {outcomes : ℕ → Outcome}
    (h : s.perform call outcomes = (o, s')) :
    o = ⟨.error RealProviderLabStateStore.storePoisoned, []⟩ ∧ s' = s := by
  have hrefused : call.action.Meets Exclusive.environment s.start (fun _ _ => False)
      fun e s' => e = RealProviderLabStateStore.storePoisoned ∧ s' = s.start := by
    cases call with
    | stage checkpoint => exact Exclusive.meets_refused hpoisoned
    | capture generation => exact Exclusive.meets_refused hpoisoned
    | loadActive => exact Exclusive.meets_refused hpoisoned
    | compareAndSwap expected next => exact Exclusive.meets_refused hpoisoned
  obtain ⟨result, trace⟩ := o
  obtain ⟨e, rfl, htrace, ⟨captured, -, hfalse⟩ | ⟨error, hresult, rfl, rfl⟩⟩ := perform_spec call hrefused h
  · exact hfalse.elim
  · obtain rfl : trace = [] := htrace
    obtain rfl : result = _ := hresult
    exact ⟨rfl, rfl⟩

theorem perform_stage (hhealthy : s.poisoned = false) {outcomes : ℕ → Outcome}
    (h : s.perform (.stage checkpoint) outcomes = (o, s')) :
    Captured checkpoint o s' ∨ Rejected checkpoint o s s' ∨ Poisoned o s s' := by
  have hstage := Exclusive.meets_stage (s := s.start) checkpoint hhealthy
  obtain ⟨e, rfl, htrace, ⟨captured, hresult, hstages⟩ | ⟨error, hresult, hfailed⟩⟩ :=
    perform_spec (.stage checkpoint) hstage h
  · obtain ⟨generation, digest, hcomplete, rfl⟩ := hstages.captured
    exact Or.inl ⟨generation, digest, hcomplete, hresult⟩
  · rcases hfailed with ⟨hrejected, rfl⟩ | ⟨rfl, hpoisons⟩
    · exact Or.inr (Or.inl ⟨⟨error, hrejected, hresult⟩, htrace, rfl⟩)
    · refine Or.inr (Or.inr ⟨hresult, hpoisons.poisoned, fun p generation hne => ?_,
        fun p generation hnone => ?_, hpoisons.activeGeneration⟩)
      · exact (hpoisons.shards p generation).resolve_right fun h => hne h.1
      · rw [htrace]
        exact (hpoisons.shards p generation).imp (fun h => h.trans hnone) And.right

/-- The pointer moves only in a compare-and-swap, from the expected generation to a complete one. -/
theorem perform_activeGeneration {call : StoreCall} {outcomes : ℕ → Outcome}
    (h : s.perform call outcomes = (o, s'))
    (hmoved : s'.world.activeGeneration ≠ s.world.activeGeneration) :
    ∃ expected next raw digest, call = .compareAndSwap expected next ∧
      s.world.activeGeneration = expected ∧ s'.world.activeGeneration = some next ∧
      Exclusive.Complete s.world next raw digest := by
  have hhealthy : s.poisoned = false := by
    refine (Bool.not_eq_true _).mp fun hpoisoned => hmoved ?_
    rw [(perform_of_poisoned hpoisoned h).2]
  -- No other call moves it.
  have hsame : ∀ {Q : Capture → Exclusive → Prop} {R : Exc → Exclusive → Prop},
      call.action.Meets Exclusive.environment s.start Q R →
      (∀ captured e, Q captured e → e.world.activeGeneration = s.world.activeGeneration) →
      (∀ error e, R error e → e.world.activeGeneration = s.world.activeGeneration) → False := by
    intro Q R hmeets hQ hR
    obtain ⟨e, rfl, -, ⟨captured, -, hq⟩ | ⟨error, -, hr⟩⟩ := perform_spec call hmeets h
    · exact hmoved (hQ captured e hq)
    · exact hmoved (hR error e hr)
  cases call with
  | stage checkpoint =>
      refine (hsame (Exclusive.meets_stage checkpoint hhealthy) (fun _ _ h => h.activeGeneration) ?_).elim
      rintro error e (⟨-, rfl⟩ | ⟨-, h⟩)
      · rfl
      · exact h.activeGeneration
  | capture generation =>
      exact (hsame (Exclusive.meets_capture_calm hhealthy) (fun _ _ h => h.activeGeneration)
        fun _ _ h => h.activeGeneration).elim
  | loadActive =>
      exact (hsame (Exclusive.meets_loadActive hhealthy) (fun _ _ h => h.1.activeGeneration)
        fun _ _ h => h.1.activeGeneration).elim
  | compareAndSwap expected next =>
      have hmoves : ∀ {e}, Exclusive.Moves expected next s.start e →
          e.world.activeGeneration ≠ s.world.activeGeneration → ∃ expected' next' raw digest,
            StoreCall.compareAndSwap expected next = .compareAndSwap expected' next' ∧
            s.world.activeGeneration = expected' ∧ e.world.activeGeneration = some next' ∧
            Exclusive.Complete s.world next' raw digest := by
        intro e hmoves hmoved
        obtain ⟨hexpected, hnext, raw, digest, hcomplete⟩ := hmoves.activeGeneration.resolve_left hmoved
        exact ⟨expected, next, raw, digest, rfl, hexpected, hnext, hcomplete⟩
      obtain ⟨e, rfl, -, ⟨_, -, hq⟩ | ⟨_, -, hr⟩⟩ :=
        perform_spec (.compareAndSwap expected next) (Exclusive.meets_compareAndSwap hhealthy) h
      · exact hmoves hq.1 hmoved
      · exact hmoves hr.1 hmoved

end Alone

end

end StateWeaver.Bridge
