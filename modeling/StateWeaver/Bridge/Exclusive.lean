import StateWeaver.Bridge.CheckpointStore
import StateWeaver.Lib.Machine

/-!
# One store with exclusive access

A store that nobody else interferes with, while any request may raise. A reader changes nothing and
tells what is there, a stager touches only its own shard and never one that was there before, and a
deleter removes its shard unless the deletion itself raises. The lemmas also say that code that raises
has met a failure or a shard that is not as it should be.
-/

namespace StateWeaver.Bridge

open Py (Text text)
open Requests (Environment)
open Requests.Action (lift raise onError attempt)

/-- What a reader makes of a shard. -/
def readContent : (p : Provider) → Content p → Option ByteArray
  | .postgres, row => (checkpointDecoded (some row.checkpointBase64)).toOption
  | .redis, value => (checkpointDecoded (some value)).toOption
  | .rabbitmq, messages =>
      match messages with
      | [payload] => (checkpointDecoded (some (payload.take World.truncation))).toOption
      | _ => none
  | .directory _, raw => if raw.size ≤ maxCheckpointBytes then some raw else none

/-- Whether a provider holds some bytes as the shard of a generation. -/
def World.Holds (w : World) (p : Provider) (generation : Text) (raw : ByteArray) : Prop :=
  ∃ content, w.shards p generation = some content ∧ readContent p content = some raw

theorem World.Holds.congr {w w' : World} {p : Provider} {generation : Text} {raw : ByteArray}
    (h : w.Holds p generation raw)
    (hshards : w'.shards p generation = w.shards p generation) : w'.Holds p generation raw := by
  obtain ⟨content, hcontent, hread⟩ := h
  exact ⟨content, hshards.trans hcontent, hread⟩

theorem World.Holds.unique {w : World} {p : Provider} {generation : Text} {raw raw' : ByteArray}
    (h : w.Holds p generation raw) (h' : w.Holds p generation raw') : raw = raw' := by
  obtain ⟨content, hcontent, hread⟩ := h
  obtain ⟨content', hcontent', hread'⟩ := h'
  obtain rfl := Option.some.inj (hcontent.symm.trans hcontent')
  exact Option.some.inj (hread.symm.trans hread')

/-- The store, the providers, the requests that a call has made, each with whether it raised, and whether
one of them failed without being refused. -/
structure Exclusive where
  poisoned : Bool
  world : World
  trace : List (Request × Bool)
  faulty : Bool

namespace Exclusive

def isError {α : Type} : Except Exc α → Bool
  | .ok _ => false
  | .error _ => true

def Outcome.isFault : Outcome → Bool
  | .answered => false
  | _ => true

/-- Answer a request. The flag of the store is its own; all other requests go to a provider. -/
def handle (s : Exclusive) (r : Request) (outcome : Outcome) : Except Exc (Answer r) × Exclusive :=
  match r with
  | .getPoisoned => (.ok s.poisoned, s)
  | .setPoisoned => (.ok (), { s with poisoned := true })
  | r =>
      let (x, w) := s.world.perform r outcome
      (x, ⟨s.poisoned, w, s.trace ++ [(r, isError x)], s.faulty || Outcome.isFault outcome⟩)

def environment : Environment Request Answer Exc Exclusive := .ofHandler handle

/-- Whether a deletion of a shard has raised. -/
def DeletionFailed (trace : List (Request × Bool)) (p : Provider) (generation : Text) : Prop :=
  ∃ r, (r, true) ∈ trace ∧ r.effect = .erase p generation

/-- What every step of a call keeps. -/
structure Keeps (s s' : Exclusive) : Prop where
  poisoned : s'.poisoned = s.poisoned
  activeGeneration : s'.world.activeGeneration = s.world.activeGeneration
  trace : s.trace <+: s'.trace
  faulty : s.faulty = true → s'.faulty = true

/-- At most the shard of a generation at one provider has changed. -/
structure Touches (p : Provider) (generation : Text) (s s' : Exclusive) : Prop extends Keeps s s' where
  shards (p' : Provider) (generation' : Text) : (p', generation') ≠ (p, generation) →
    s'.world.shards p' generation' = s.world.shards p' generation'

/-- No shard has changed. -/
structure Quiet (s s' : Exclusive) : Prop extends Keeps s s' where
  shards : s'.world.shards = s.world.shards

variable {s s' s'' : Exclusive} {p : Provider} {generation : Text}

theorem Keeps.refl (s : Exclusive) : Keeps s s := ⟨rfl, rfl, List.prefix_rfl, id⟩

theorem Keeps.trans (h : Keeps s s') (h' : Keeps s' s'') : Keeps s s'' :=
  ⟨h'.poisoned.trans h.poisoned, h'.activeGeneration.trans h.activeGeneration, h.trace.trans h'.trace,
    fun hfaulty => h'.faulty (h.faulty hfaulty)⟩

theorem Quiet.refl (s : Exclusive) : Quiet s s := ⟨.refl s, rfl⟩

theorem Quiet.trans (h : Quiet s s') (h' : Quiet s' s'') : Quiet s s'' :=
  ⟨h.toKeeps.trans h'.toKeeps, h'.shards.trans h.shards⟩

theorem Quiet.touches (h : Quiet s s') : Touches p generation s s' :=
  ⟨h.toKeeps, fun _ _ _ => by rw [h.shards]⟩

theorem Touches.trans (h : Touches p generation s s') (h' : Touches p generation s' s'') :
    Touches p generation s s'' :=
  ⟨h.toKeeps.trans h'.toKeeps,
    fun p' generation' hne => (h'.shards p' generation' hne).trans (h.shards p' generation' hne)⟩

/-! ## Single requests -/

/-- The state after a request. -/
def after (s : Exclusive) (r : Request) (effect : Effect) (raised faulty : Bool) : Exclusive :=
  ⟨s.poisoned, s.world.apply effect, s.trace ++ [(r, raised)], s.faulty || faulty⟩

def Request.isProvider : Request → Bool
  | .getPoisoned | .setPoisoned => false
  | _ => true

theorem handle_provider {r : Request} (h : Request.isProvider r = true) (outcome : Outcome) :
    s.handle r outcome = ((s.world.perform r outcome).1, ⟨s.poisoned, (s.world.perform r outcome).2,
      s.trace ++ [(r, isError (s.world.perform r outcome).1)], s.faulty || Outcome.isFault outcome⟩) := by
  cases r with
  | getPoisoned => cases h
  | setPoisoned => cases h
  | _ => rfl

variable {r : Request} {Q : Answer r → Exclusive → Prop} {R : Exc → Exclusive → Prop}

/-- A request to a provider: it is answered or refused, or it fails before or after it takes effect. -/
theorem meets_ask (h : Request.isProvider r = true)
    (hok : ∀ a, s.world.answer r = .ok a → Q a (s.after r r.effect false false))
    (hrefused : ∀ e, s.world.answer r = .error e → R e (s.after r r.effect true false))
    (hbefore : ∀ fault : Fault, R fault.exc (s.after r .nothing true true))
    (hafter : ∀ written, ∀ fault : Fault, R fault.exc (s.after r (r.interrupted written) true true)) :
    (ask r).Meets environment s Q R := by
  refine Requests.Action.meets_request.mpr ⟨trivial, ?_, ?_⟩
  · rintro a s' ⟨outcome, houtcome⟩
    rw [handle_provider h] at houtcome
    obtain ⟨hx, rfl⟩ := Prod.mk.inj houtcome
    rw [hx]
    cases outcome with
    | answered => exact hok a hx
    | before fault => cases hx
    | after written fault => cases hx
  · rintro e s' ⟨outcome, houtcome⟩
    rw [handle_provider h] at houtcome
    obtain ⟨hx, rfl⟩ := Prod.mk.inj houtcome
    rw [hx]
    cases outcome with
    | answered => exact hrefused e hx
    | before fault =>
        obtain rfl := Except.error.inj hx
        exact hbefore fault
    | after written fault =>
        obtain rfl := Except.error.inj hx
        exact hafter written fault

def Effect.isQuiet : Effect → Bool
  | .nothing | .browse _ => true
  | _ => false

theorem quiet_after {effect : Effect} (h : Effect.isQuiet effect = true) (r : Request)
    (raised faulty : Bool) : Quiet s (s.after r effect raised faulty) := by
  have hfaulty : s.faulty = true → (s.after r effect raised faulty).faulty = true := fun h => by
    rw [after, h, Bool.true_or]
  cases effect with
  | nothing => exact ⟨⟨rfl, rfl, List.prefix_append _ _, hfaulty⟩, rfl⟩
  | browse change => exact ⟨⟨rfl, rfl, List.prefix_append _ _, hfaulty⟩, rfl⟩
  | _ => cases h

/-- An exception that stems from a request that failed. -/
structure Failed (e : Exc) (s : Exclusive) : Prop where
  faulty : s.faulty = true
  owned : e.isUnowned = false

theorem failed_after (fault : Fault) (r : Request) (effect : Effect) :
    Failed fault.exc (s.after r effect true true) := by
  refine ⟨Bool.or_true _, ?_⟩
  cases fault with
  | bridge message => rfl
  | other name => rfl

/-- A request that changes no shard and is not refused. -/
theorem ask_quiet {a : Answer r} (hanswer : s.world.answer r = .ok a) (h : Request.isProvider r = true)
    (hquiet : Effect.isQuiet r.effect = true)
    (hquiet' : ∀ written, Effect.isQuiet (r.interrupted written) = true) :
    (ask r).Meets environment s (fun a' s' => a' = a ∧ Quiet s s' ∧ s'.world = s.world.apply r.effect)
      fun e s' => Quiet s s' ∧ Failed e s' := by
  refine meets_ask h (fun a' ha => ⟨?_, quiet_after hquiet r _ _, rfl⟩) (fun e he => ?_)
    (fun fault => ⟨quiet_after rfl r _ _, failed_after fault _ _⟩)
    fun written fault => ⟨quiet_after (hquiet' written) r _ _, failed_after fault _ _⟩
  · exact Except.ok.inj (ha.symm.trans hanswer)
  · rw [hanswer] at he
    cases he

/-! ## Readers -/

/-- What a reader returns is what is there. -/
def Found (w : World) (p : Provider) (generation : Text) (observed : Option ByteArray) : Prop :=
  observed = none ∧ w.shards p generation = none ∨
    ∃ raw, observed = some raw ∧ w.Holds p generation raw

/-- A shard that no reader returns. -/
def Spoilt (w : World) (p : Provider) (generation : Text) : Prop :=
  ∃ content, w.shards p generation = some content ∧ readContent p content = none

/-- Code that reads the shard of a generation at a provider. -/
def IsReader (action : Call (Option ByteArray)) (p : Provider) (generation : Text) : Prop :=
  ∀ s, action.Meets environment s
    (fun observed s' => Quiet s s' ∧ Found s.world p generation observed)
    fun e s' => Quiet s s' ∧ e.isUnowned = false ∧ (s'.faulty = true ∨ Spoilt s.world p generation)

theorem Found.congr {w w' : World} {observed : Option ByteArray} (h : Found w p generation observed)
    (hshards : w'.shards p generation = w.shards p generation) : Found w' p generation observed := by
  rcases h with ⟨rfl, hnone⟩ | ⟨raw, rfl, content, hcontent, hread⟩
  · exact Or.inl ⟨rfl, hshards.trans hnone⟩
  · exact Or.inr ⟨raw, rfl, content, hshards.trans hcontent, hread⟩

theorem isUnowned_of_decoded {value : Option Text} {e : Exc} (h : checkpointDecoded value = .error e) :
    e.isUnowned = false := by
  unfold checkpointDecoded at h
  split at h
  · cases h
    rfl
  · split at h
    · cases h
      rfl
    · split at h
      · cases h
      · cases h
        rfl

/-- Decoding what a shard has, at the end of a reader. -/
theorem meets_decoded {value : Text} {content : Content p} (hquiet : Quiet s s')
    (hcontent : s.world.shards p generation = some content)
    (hread : readContent p content = (checkpointDecoded (some value)).toOption) :
    (do return some (← lift (checkpointDecoded (some value))) : Call (Option ByteArray)).Meets
      environment s' (fun observed s'' => Quiet s s'' ∧ Found s.world p generation observed)
        fun e s'' => Quiet s s'' ∧ e.isUnowned = false ∧
          (s''.faulty = true ∨ Spoilt s.world p generation) := by
  rw [Requests.Action.meets_bind, Requests.Action.meets_lift]
  refine ⟨fun raw hraw => ?_, fun e he => ⟨hquiet, isUnowned_of_decoded he,
    Or.inr ⟨content, hcontent, ?_⟩⟩⟩
  · exact ⟨hquiet, Or.inr ⟨raw, rfl, content, hcontent, by rw [hread, hraw]; rfl⟩⟩
  · rw [hread, he]
    rfl

theorem isReader_pg (generation : Text) : IsReader (checkpointPgRead generation) .postgres generation := by
  intro s
  refine Requests.Action.meets_bind.mpr ((ask_quiet rfl rfl rfl fun _ => rfl).mono ?_
    fun e s' h => ⟨h.1, h.2.owned, Or.inl h.2.faulty⟩)
  rintro rows s' ⟨rfl, hquiet, -⟩
  cases hrow : s.world.shards .postgres generation with
  | none => exact ⟨hquiet, Or.inl ⟨rfl, hrow⟩⟩
  | some row => exact meets_decoded hquiet hrow rfl

theorem isReader_redis (generation : Text) :
    IsReader (checkpointRedisRead generation) .redis generation := by
  intro s
  refine Requests.Action.meets_bind.mpr ((ask_quiet rfl rfl rfl fun _ => rfl).mono ?_
    fun e s' h => ⟨h.1, h.2.owned, Or.inl h.2.faulty⟩)
  rintro value s' ⟨rfl, hquiet, -⟩
  cases hvalue : s.world.shards .redis generation with
  | none => exact ⟨hquiet, Or.inl ⟨rfl, hvalue⟩⟩
  | some value => exact meets_decoded hquiet hvalue rfl

theorem isReader_rabbit (generation : Text) :
    IsReader (checkpointRabbitRead generation) .rabbitmq generation := by
  intro s
  refine Requests.Action.meets_bind.mpr ((ask_quiet rfl rfl rfl fun _ => rfl).mono ?_
    fun e s' h => ⟨h.1, h.2.owned, Or.inl h.2.faulty⟩)
  rintro found s' ⟨rfl, hquiet, -⟩
  cases hqueue : s.world.shards .rabbitmq generation with
  | none => exact ⟨hquiet, Or.inl ⟨rfl, hqueue⟩⟩
  | some messages =>
      have hanswer : s'.world.answer (.getMessages generation) =
          .ok ((messages.take 2).map fun payload => payload.take World.truncation) := by
        rw [World.answer, hquiet.shards, hqueue]
      refine Requests.Action.meets_bind.mpr ((ask_quiet hanswer rfl rfl fun _ => rfl).mono ?_
        fun e s'' h => ⟨hquiet.trans h.1, h.2.owned, Or.inl h.2.faulty⟩)
      rintro reply s'' ⟨rfl, hquiet', -⟩
      rcases messages with _ | ⟨payload, _ | ⟨payload', rest⟩⟩
      · exact ⟨hquiet.trans hquiet', rfl, Or.inr ⟨[], hqueue, rfl⟩⟩
      · exact meets_decoded (hquiet.trans hquiet') hqueue rfl
      · exact ⟨hquiet.trans hquiet', rfl, Or.inr ⟨_, hqueue, rfl⟩⟩

theorem meets_require {c : Prop} [Decidable c] {e : Exc} {Q : Unit → Exclusive → Prop}
    {R : Exc → Exclusive → Prop} :
    (require c e).Meets environment s Q R ↔ (c → Q () s) ∧ (¬ c → R e s) := by
  rw [require, Requests.Action.meets_lift]
  exact and_congr ⟨fun h hc => h () (Imp.require_eq_ok.mpr hc), fun h _ hc => h (Imp.require_eq_ok.mp hc)⟩
    ⟨fun h hc => h e (Imp.require_eq_error.mpr ⟨hc, rfl⟩),
      fun h e' he => (Imp.require_eq_error.mp he).2 ▸ h (Imp.require_eq_error.mp he).1⟩

theorem isReader_path (d : Directory) (hgeneration : isGeneration generation = true) :
    IsReader (checkpointPathRead d generation) (.directory d) generation := by
  intro s
  rw [checkpointPathRead, Requests.Action.meets_bind, meets_require]
  refine ⟨fun _ => ?_, fun h => absurd hgeneration h⟩
  rw [Requests.Action.meets_bind, Requests.Action.meets_onError]
  refine (ask_quiet rfl rfl rfl fun _ => rfl).mono ?_ ?_
  rotate_left
  · rintro e s' ⟨hquiet, hfailed⟩
    refine ⟨hquiet, ?_, Or.inl hfailed.faulty⟩
    split
    · rfl
    · exact hfailed.owned
  rintro found s' ⟨rfl, hquiet, -⟩
  cases hfile : s.world.shards (.directory d) generation with
  | none => exact ⟨hquiet, Or.inl ⟨rfl, hfile⟩⟩
  | some raw =>
      rw [Requests.Action.meets_bind, meets_require]
      exact ⟨fun hsize => ⟨hquiet, Or.inr ⟨raw, rfl, raw, hfile, if_pos hsize⟩⟩,
        fun hsize => ⟨hquiet, rfl, Or.inr ⟨raw, hfile, if_neg hsize⟩⟩⟩

/-! ## The browser session -/

/-- A browser session ends as its body does. -/
theorem meets_browserSession {α : Type} {body : ℕ → Call α} {P : α → Prop}
    (hbody : ∀ session s', (body session).Meets environment s'
      (fun a s'' => Quiet s' s'' ∧ P a) fun e s'' => Quiet s' s'' ∧ Failed e s'') :
    (browserSession body).Meets environment s (fun a s' => Quiet s s' ∧ P a)
      fun e s' => Quiet s s' ∧ Failed e s' := by
  rw [browserSession, Requests.Action.meets_bind]
  refine (ask_quiet rfl rfl rfl fun _ => rfl).mono ?_ fun e s' h => h
  rintro session s₁ ⟨-, hquiet, -⟩
  rw [Requests.Action.meets_bind, Requests.Action.meets_attempt, Requests.Action.meets_bind]
  -- Deleting the session may fail too, and then the exception is suppressed or takes over.
  have hclose : ∀ (result : Except Exc α) (s₂ : Exclusive), Quiet s s₂ →
      (∀ a, result = .ok a → P a) → (∀ e, result = .error e → Failed e s₂) →
      (do onError (ask (.deleteSession session)) fun e => if e.isBridgeError then pure () else raise e
          lift result : Call α).Meets environment s₂ (fun a s' => Quiet s s' ∧ P a)
        fun e s' => Quiet s s' ∧ Failed e s' := by
    intro result s₂ hquiet₂ hok herror
    rw [Requests.Action.meets_bind, Requests.Action.meets_onError]
    have hend : ∀ s₃, Quiet s₂ s₃ → (lift result : Call α).Meets environment s₃
        (fun a s' => Quiet s s' ∧ P a) fun e s' => Quiet s s' ∧ Failed e s' := fun s₃ hquiet₃ =>
      Requests.Action.meets_lift.mpr ⟨fun a ha => ⟨hquiet₂.trans hquiet₃, hok a ha⟩, fun e he =>
        ⟨hquiet₂.trans hquiet₃, hquiet₃.faulty (herror e he).faulty, (herror e he).owned⟩⟩
    refine (ask_quiet rfl rfl rfl fun _ => rfl).mono (fun a s₃ h => hend s₃ h.2.1) ?_
    rintro e s₃ ⟨hquiet₃, hfailed⟩
    rw [Requests.Action.meets_ite]
    exact ⟨fun _ => hend s₃ hquiet₃, fun _ => ⟨hquiet₂.trans hquiet₃, hfailed⟩⟩
  refine (ask_quiet rfl rfl rfl fun _ => rfl).mono ?_ ?_
  · rintro - s₂ ⟨-, hquiet₂, -⟩
    refine (hbody session s₂).mono ?_ ?_
    · rintro a s₃ ⟨hquiet₃, ha⟩
      exact hclose _ _ ((hquiet.trans hquiet₂).trans hquiet₃) (fun a' ha' => Except.ok.inj ha' ▸ ha) nofun
    · rintro e s₃ ⟨hquiet₃, hfailed⟩
      exact hclose _ _ ((hquiet.trans hquiet₂).trans hquiet₃) nofun
        fun e' he' => Except.error.inj he' ▸ hfailed
  · rintro e s₂ ⟨hquiet₂, hfailed⟩
    exact hclose _ _ (hquiet.trans hquiet₂) nofun fun e' he' => Except.error.inj he' ▸ hfailed

theorem decoded_encoded {raw : ByteArray} (hsize : raw.size ≤ maxCheckpointBytes) :
    checkpointDecoded (some (Py.b64encode raw)) = .ok raw := by
  have hlength := Py.length_b64encode raw
  have hfits : ¬ 174764 < (Py.b64encode raw).length := by
    rw [maxCheckpointBytes] at hsize
    omega
  rw [checkpointDecoded, if_neg hfits, Py.b64decode_b64encode]

theorem meets_roundtrip {raw : ByteArray} (hsize : raw.size ≤ maxCheckpointBytes) (generation : Text) :
    (checkpointSeleniumRoundtrip raw generation).Meets environment s
      (fun observed s' => Quiet s s' ∧ observed = raw) fun e s' => Quiet s s' ∧ Failed e s' := by
  rw [checkpointSeleniumRoundtrip, Requests.Action.meets_bind]
  refine (meets_browserSession (P := fun value => value = some (Py.b64encode raw)) ?_).mono ?_
    fun e s' h => h
  · intro session s₁
    rw [Requests.Action.meets_bind]
    refine (ask_quiet rfl rfl rfl fun _ => rfl).mono ?_ fun e s' h => h
    rintro accepted s₂ ⟨rfl, hquiet, hworld⟩
    rw [Requests.Action.meets_bind, meets_require]
    refine ⟨fun _ => ?_, fun h => absurd rfl h⟩
    have hitem : s₂.world.answer (.getItem session (checkpointSeleniumKey generation)) =
        .ok (some (Py.b64encode raw)) := by
      rw [World.answer, hworld]
      change Except.ok (Function.update s₁.world.browser.items session
        (Function.update (s₁.world.browser.items session) _ _) session _) = _
      rw [Function.update_self, Function.update_self]
    exact (ask_quiet hitem rfl rfl fun _ => rfl).mono (fun a s₃ h => ⟨hquiet.trans h.2.1, h.1⟩)
      fun e s₃ h => ⟨hquiet.trans h.1, h.2⟩
  · rintro value s₁ ⟨hquiet, rfl⟩
    rw [Requests.Action.meets_bind, decoded_encoded hsize, Requests.Action.meets_lift]
    refine ⟨fun observed hobserved => ?_, nofun⟩
    obtain rfl := Except.ok.inj hobserved
    rw [Requests.Action.meets_bind, meets_require]
    exact ⟨fun _ => ⟨hquiet, rfl⟩, fun h => absurd rfl h⟩

theorem isReader_selenium (hgeneration : isGeneration generation = true) :
    IsReader (checkpointSeleniumRead generation) (.directory .session) generation := by
  intro s
  rw [checkpointSeleniumRead, Requests.Action.meets_bind]
  refine (isReader_path .session hgeneration s).mono ?_ fun e s' h => h
  rintro observed s' ⟨hquiet, hfound⟩
  rcases hfound with ⟨rfl, hnone⟩ | ⟨raw, rfl, hholds⟩
  · exact ⟨hquiet, Or.inl ⟨rfl, hnone⟩⟩
  · have hsize : raw.size ≤ maxCheckpointBytes := by
      obtain ⟨content, -, hread⟩ := hholds
      rw [readContent] at hread
      split at hread
      · next hsize => exact Option.some.inj hread ▸ hsize
      · cases hread
    rw [Requests.Action.meets_bind]
    refine (meets_roundtrip hsize generation).mono ?_ ?_
    · rintro observed s'' ⟨hquiet', rfl⟩
      exact ⟨hquiet.trans hquiet', Or.inr ⟨observed, rfl, hholds⟩⟩
    · rintro e s'' ⟨hquiet', hfailed⟩
      exact ⟨hquiet.trans hquiet', hfailed.owned, Or.inl hfailed.faulty⟩

theorem isReader_checkpointReader (p : Provider) (hgeneration : isGeneration generation = true) :
    IsReader (checkpointReader p generation) p generation := by
  rcases p with _ | _ | _ | _ | _ | _
  · exact isReader_pg generation
  · exact isReader_redis generation
  · exact isReader_rabbit generation
  · exact isReader_selenium hgeneration
  · exact isReader_path .files hgeneration
  · exact isReader_path .clock hgeneration

end Exclusive

end StateWeaver.Bridge
