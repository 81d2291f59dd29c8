import StateWeaver.Bridge.CheckpointStore
import StateWeaver.Bridge.ContentAddress

/-!
# What a call requests

Whatever the providers answer: a call deletes each shard at most once, publishes to a queue only right
after it was told that it declared the queue, and moves the pointer only to a generation of which it has
read six equal valid shards.
-/

namespace StateWeaver.Bridge

open Py (Text text)
open Requests (Environment)
open Requests.Action (lift raise onError attempt meets_pure meets_raise meets_bind meets_onError
  meets_lift meets_attempt meets_request meets_ite)

/-- A request with what came back. -/
structure Exchange where
  request : Request
  answer : Except Exc (Answer request)

/-- What a call has requested so far. -/
abbrev Trace := List Exchange

namespace Exchange

/-- The shard that a request deletes. -/
def erased (x : Exchange) : Option (Provider × Text) :=
  match x.request.effect with
  | .erase p generation => some (p, generation)
  | _ => none

/-- A request with an answer that shows the bytes of a shard. -/
inductive Shows (generation : Text) (raw : ByteArray) : Exchange → Provider → Prop where
  | postgres {value : Text} (h : checkpointDecoded (some value) = .ok raw) :
      Shows generation raw ⟨.selectCheckpoint generation, .ok [[some value]]⟩ .postgres
  | redis {value : Text} (h : checkpointDecoded (some value) = .ok raw) :
      Shows generation raw ⟨.redisGet generation, .ok (some value)⟩ .redis
  | rabbitmq {payload : Text} (h : checkpointDecoded (some payload) = .ok raw) :
      Shows generation raw ⟨.getMessages generation, .ok [payload]⟩ .rabbitmq
  | directory (d : Directory) (h : raw.size ≤ maxCheckpointBytes) :
      Shows generation raw ⟨.readFile d generation, .ok (some raw)⟩ (.directory d)

end Exchange

/-- The answer that says that a request has created its shard. -/
def tellsCreated : (r : Request) → Answer r → Bool
  | .insertCheckpoint _ _, rows => !rows.isEmpty
  | .redisSet _ _, reply => reply.isSome
  | .putQueue _, created => created
  | .createFile _ _ _, created => created
  | _, _ => false

namespace Trace

/-- The shards whose deletion was requested. -/
def erased (t : Trace) : List (Provider × Text) := t.filterMap Exchange.erased

/-- Whether some answer said that a shard was created. -/
def ToldCreated (t : Trace) (p : Provider) (generation : Text) : Prop :=
  ∃ x ∈ t, (∃ content, x.request.effect = .create p generation content) ∧
    ∃ a, x.answer = .ok a ∧ tellsCreated x.request a = true

/-- Whether some answer showed the bytes of a shard. -/
def Saw (t : Trace) (p : Provider) (generation : Text) (raw : ByteArray) : Prop :=
  ∃ x ∈ t, x.Shows generation raw p

/-- The requests that a call may make after others. -/
def Allows [Sha256] (t : Trace) (r : Request) : Prop :=
  match r.effect with
  | .erase p generation => (p, generation) ∉ t.erased
  | .enqueue generation _ => t.getLast? = some ⟨.putQueue generation, .ok true⟩
  | .activate _ next => ∃ raw digest, validateCheckpointBytes raw = .ok (raw, next, digest) ∧
      ∀ p, t.Saw p next raw
  | _ => True

/-- Whatever comes back. -/
def environment [Sha256] : Environment Request Answer Exc Trace where
  allowed := Allows
  answers t r x t' := t' = t ++ [⟨r, x⟩]

/-- Some requests were made, none of them a deletion. -/
structure Extends (t t' : Trace) : Prop where
  grown : t <+: t'
  erased : t'.erased = t.erased

variable {t t' t'' : Trace} {p : Provider} {generation : Text} {raw : ByteArray}

theorem Extends.refl (t : Trace) : Extends t t := ⟨List.prefix_rfl, rfl⟩

theorem Extends.trans (h : Extends t t') (h' : Extends t' t'') : Extends t t'' :=
  ⟨h.grown.trans h'.grown, h'.erased.trans h.erased⟩

theorem Saw.extend (h : t.Saw p generation raw) (hgrown : t <+: t') : t'.Saw p generation raw :=
  h.imp fun _ hx => ⟨hgrown.subset hx.1, hx.2⟩

/-- A request that is neither a deletion nor a message nor a move of the pointer. -/
def isPlain (r : Request) : Bool :=
  match r.effect with
  | .erase _ _ | .enqueue _ _ | .activate _ _ => false
  | _ => true

theorem erased_of_isPlain {r : Request} (h : isPlain r = true) (x : Except Exc (Answer r)) :
    (Exchange.mk r x).erased = none := by
  rw [isPlain] at h
  rw [Exchange.erased]
  split at h
  · cases h
  · cases h
  · cases h
  · next herase _ _ =>
      split
      · next heffect => exact (herase _ _ heffect).elim
      · rfl

theorem extends_append {x : Exchange} (h : x.erased = none) : Extends t (t ++ [x]) := by
  refine ⟨List.prefix_append _ _, ?_⟩
  rw [Trace.erased, List.filterMap_append, List.filterMap_cons_none h, List.filterMap_nil, List.append_nil]
  rfl

/-- Some requests were made, and at most one shard was deleted. -/
structure Erases (p : Provider) (generation : Text) (t t' : Trace) : Prop where
  grown : t <+: t'
  erased : ∀ shard ∈ t'.erased, shard ∈ t.erased ∨ shard = (p, generation)

theorem Extends.erases (h : Extends t t') : Erases p generation t t' :=
  ⟨h.grown, fun _ hmem => Or.inl (h.erased ▸ hmem)⟩

theorem Erases.extends (h : Erases p generation t t') (h' : Extends t' t'') : Erases p generation t t'' :=
  ⟨h.grown.trans h'.grown, fun shard hmem => h.erased shard (h'.erased ▸ hmem)⟩

section

variable [Sha256]

theorem allows_of_isPlain {r : Request} (h : isPlain r = true) : t.Allows r := by
  rw [isPlain] at h
  rw [Allows]
  split at h
  · cases h
  · cases h
  · cases h
  · trivial

/-- Code that deletes nothing and keeps to the rules. -/
def IsPlain {α : Type} (action : Call α) : Prop :=
  ∀ t, action.Meets environment t (fun _ => Extends t) fun _ => Extends t

theorem meets_ask {r : Request} {Q : Answer r → Trace → Prop} {R : Exc → Trace → Prop}
    (hallowed : t.Allows r) (hok : ∀ a, Q a (t ++ [⟨r, .ok a⟩])) (herror : ∀ e, R e (t ++ [⟨r, .error e⟩])) :
    (ask r).Meets environment t Q R := by
  refine meets_request.mpr ⟨hallowed, ?_, ?_⟩
  · rintro a t' rfl
    exact hok a
  · rintro e t' rfl
    exact herror e

theorem isPlain_ask {r : Request} (h : isPlain r = true) : IsPlain (ask r) := fun _ =>
  meets_ask (allows_of_isPlain h) (fun _ => extends_append (erased_of_isPlain h _))
    fun _ => extends_append (erased_of_isPlain h _)

variable {α β : Type}

theorem isPlain_pure (a : α) : IsPlain (pure a) := fun t => Extends.refl t

theorem isPlain_raise (e : Exc) : IsPlain (raise e : Call α) := fun t => Extends.refl t

theorem isPlain_lift (x : Except Exc α) : IsPlain (lift x) := fun t =>
  meets_lift.mpr ⟨fun _ _ => .refl t, fun _ _ => .refl t⟩

theorem isPlain_require (c : Prop) [Decidable c] (e : Exc) : IsPlain (require c e) := isPlain_lift _

theorem isPlain_bind {x : Call α} {f : α → Call β} (hx : IsPlain x) (hf : ∀ a, IsPlain (f a)) :
    IsPlain (x >>= f) := fun t =>
  meets_bind.mpr ((hx t).mono (fun a t' h => (hf a t').mono (fun _ _ => h.trans) fun _ _ => h.trans)
    fun _ _ h => h)

theorem isPlain_onError {x : Call α} {handler : Exc → Call α} (hx : IsPlain x)
    (hhandler : ∀ e, IsPlain (handler e)) : IsPlain (onError x handler) := fun t =>
  meets_onError.mpr ((hx t).mono (fun _ _ h => h)
    fun e t' h => (hhandler e t').mono (fun _ _ => h.trans) fun _ _ => h.trans)

theorem isPlain_attempt {x : Call α} (hx : IsPlain x) : IsPlain (attempt x) := fun t =>
  meets_attempt.mpr (hx t)

theorem isPlain_ite {c : Prop} [Decidable c] {x y : Call α} (hx : IsPlain x) (hy : IsPlain y) :
    IsPlain (if c then x else y) := by
  split
  · exact hx
  · exact hy

/-! ## Readers -/

/-- Code that returns the bytes of a shard only if an answer showed them. -/
def Sees (action : Call (Option ByteArray)) (p : Provider) (generation : Text) : Prop :=
  ∀ t, action.Meets environment t
    (fun observed t' => Extends t t' ∧ ∀ raw, observed = some raw → t'.Saw p generation raw)
    fun _ => Extends t

theorem Sees.isPlain {action : Call (Option ByteArray)} (h : Sees action p generation) : IsPlain action :=
  fun t => (h t).mono (fun _ _ h => h.1) fun _ _ h => h

/-- Decoding an answer that was just read. -/
theorem meets_shown {value : Text} {x : Exchange} (hextends : Extends t t') (hx : x ∈ t')
    (hshows : ∀ raw, checkpointDecoded (some value) = .ok raw → x.Shows generation raw p) :
    (do return some (← lift (checkpointDecoded (some value))) : Call (Option ByteArray)).Meets environment t'
      (fun observed t'' => Extends t t'' ∧ ∀ raw, observed = some raw → t''.Saw p generation raw)
      fun _ => Extends t := by
  rw [meets_bind, meets_lift]
  refine ⟨fun raw hraw => ⟨hextends, fun raw' hraw' => ⟨x, hx, hshows raw' ?_⟩⟩, fun _ _ => hextends⟩
  rw [hraw, Option.some.inj hraw']

theorem sees_pg (generation : Text) : Sees (checkpointPgRead generation) .postgres generation := by
  intro t
  have hplain : ∀ x, Extends t (t ++ [⟨.selectCheckpoint generation, x⟩]) := fun _ => extends_append rfl
  rw [checkpointPgRead, meets_bind]
  refine meets_ask trivial (fun rows => ?_) fun e => hplain _
  split
  · exact ⟨hplain _, nofun⟩
  · exact meets_shown (hplain _) (List.mem_append_right _ List.mem_cons_self) fun raw h => .postgres h
  · exact hplain _

theorem sees_redis (generation : Text) : Sees (checkpointRedisRead generation) .redis generation := by
  intro t
  have hplain : ∀ x, Extends t (t ++ [⟨.redisGet generation, x⟩]) := fun _ => extends_append rfl
  rw [checkpointRedisRead, meets_bind]
  refine meets_ask trivial (fun value => ?_) fun e => hplain _
  cases value with
  | none => exact ⟨hplain _, nofun⟩
  | some value =>
      exact meets_shown (hplain _) (List.mem_append_right _ List.mem_cons_self) fun raw h => .redis h

theorem sees_rabbit (generation : Text) : Sees (checkpointRabbitRead generation) .rabbitmq generation := by
  intro t
  have hqueue : ∀ x, Extends t (t ++ [⟨.getQueue generation, x⟩]) := fun _ => extends_append rfl
  rw [checkpointRabbitRead, meets_bind]
  refine meets_ask trivial (fun found => ?_) fun e => hqueue _
  rw [meets_ite]
  refine ⟨fun _ => ?_, fun _ => ⟨hqueue _, nofun⟩⟩
  have hmessages : ∀ x, Extends t ((t ++ [⟨.getQueue generation, .ok found⟩]) ++
      [⟨.getMessages generation, x⟩]) := fun _ => (hqueue _).trans (extends_append rfl)
  rw [meets_bind]
  refine meets_ask trivial (fun messages => ?_) fun e => hmessages _
  rcases messages with _ | ⟨payload, _ | ⟨payload', rest⟩⟩
  · exact hmessages _
  · exact meets_shown (hmessages _) (List.mem_append_right _ List.mem_cons_self) fun raw h => .rabbitmq h
  · exact hmessages _

theorem sees_path (d : Directory) (generation : Text) :
    Sees (checkpointPathRead d generation) (.directory d) generation := by
  intro t
  have hplain : ∀ x, Extends t (t ++ [⟨.readFile d generation, x⟩]) := fun _ => extends_append rfl
  rw [checkpointPathRead, meets_bind]
  refine meets_lift.mpr ⟨fun _ _ => ?_, fun _ _ => .refl t⟩
  rw [meets_bind, meets_onError]
  refine meets_ask trivial (fun found => ?_) fun e => hplain _
  cases found with
  | none => exact ⟨hplain _, nofun⟩
  | some raw =>
      rw [meets_bind]
      refine meets_lift.mpr ⟨fun _ hsize => ⟨hplain _, ?_⟩, fun _ _ => hplain _⟩
      rintro raw' heq
      obtain rfl := Option.some.inj heq
      exact ⟨_, List.mem_append_right _ List.mem_cons_self, .directory d (Imp.require_eq_ok.mp hsize)⟩

/-! ## The browser session -/

theorem isPlain_browserSession {body : ℕ → Call α} (h : ∀ session, IsPlain (body session)) :
    IsPlain (browserSession body) := by
  refine isPlain_bind (isPlain_ask rfl) fun session => isPlain_bind (isPlain_attempt
    (isPlain_bind (isPlain_ask rfl) fun _ => h session)) fun result => isPlain_bind ?_ fun _ => isPlain_lift _
  refine isPlain_onError (isPlain_ask rfl) fun e => ?_
  exact isPlain_ite (isPlain_pure _) (isPlain_raise _)

/-- The round trip returns the bytes that it was given. -/
theorem meets_roundtrip (raw : ByteArray) (generation : Text) (t : Trace) :
    (checkpointSeleniumRoundtrip raw generation).Meets environment t
      (fun observed t' => Extends t t' ∧ observed = raw) fun _ => Extends t := by
  have hsession : IsPlain (browserSession fun session => do
      let accepted ← ask (.setItem session (checkpointSeleniumKey generation) (Py.b64encode raw))
      require (accepted = true) (.checkpoint "checkpoint-selenium-invalid")
      ask (.getItem session (checkpointSeleniumKey generation))) :=
    isPlain_browserSession fun session => isPlain_bind (isPlain_ask rfl) fun accepted =>
      isPlain_bind (isPlain_require _ _) fun _ => isPlain_ask rfl
  rw [checkpointSeleniumRoundtrip, meets_bind]
  refine (hsession t).mono (fun value t₁ hextends => ?_) fun _ _ h => h
  rw [meets_bind, meets_lift]
  refine ⟨fun observed _ => ?_, fun _ _ => hextends⟩
  rw [meets_bind]
  exact meets_lift.mpr ⟨fun _ hsame => ⟨hextends, Imp.require_eq_ok.mp hsame⟩, fun _ _ => hextends⟩

theorem sees_selenium (generation : Text) :
    Sees (checkpointSeleniumRead generation) (.directory .session) generation := by
  intro t
  rw [checkpointSeleniumRead, meets_bind]
  refine (sees_path .session generation t).mono ?_ fun _ _ h => h
  rintro observed t₁ ⟨hextends, hsaw⟩
  cases observed with
  | none => exact ⟨hextends, nofun⟩
  | some raw =>
      rw [meets_bind]
      refine (meets_roundtrip raw generation t₁).mono ?_ fun _ _ => hextends.trans
      rintro observed t₂ ⟨hextends₂, rfl⟩
      refine ⟨hextends.trans hextends₂, fun raw hraw => ?_⟩
      exact (hsaw raw hraw).extend hextends₂.grown

theorem sees_checkpointReader (p : Provider) (generation : Text) :
    Sees (checkpointReader p generation) p generation := by
  rcases p with _ | _ | _ | _ | _ | _
  · exact sees_pg generation
  · exact sees_redis generation
  · exact sees_rabbit generation
  · exact sees_selenium generation
  · exact sees_path .files generation
  · exact sees_path .clock generation

/-! ## Stagers -/

theorem isPlain_readback {action : Call (Option ByteArray)} (h : IsPlain action) (raw : ByteArray)
    (e : Exc) (created : Bool) :
    IsPlain (do let observed ← action
                require (observed = some raw) e
                return created) :=
  isPlain_bind h fun _ => isPlain_bind (isPlain_require _ _) fun _ => isPlain_pure _

theorem isPlain_pg (raw : ByteArray) (generation digest : Text) :
    IsPlain (checkpointPgStage raw generation digest) :=
  isPlain_bind (isPlain_ask rfl) fun _ => isPlain_bind (isPlain_require _ _) fun _ =>
    isPlain_readback (sees_pg generation).isPlain _ _ _

theorem isPlain_redis (raw : ByteArray) (generation : Text) : IsPlain (checkpointRedisStage raw generation) :=
  isPlain_bind (isPlain_ask rfl) fun _ => isPlain_bind (isPlain_require _ _) fun _ =>
    isPlain_readback (sees_redis generation).isPlain _ _ _

theorem isPlain_path (d : Directory) (raw : ByteArray) (generation : Text) :
    IsPlain (checkpointPathStage d raw generation) :=
  isPlain_bind (isPlain_require _ _) fun _ => isPlain_bind (isPlain_ask rfl) fun _ =>
    isPlain_bind (isPlain_onError (isPlain_ask rfl) fun _ => isPlain_raise _) fun _ =>
      isPlain_readback (sees_path d generation).isPlain _ _ _

theorem isPlain_selenium (raw : ByteArray) (generation : Text) :
    IsPlain (checkpointSeleniumStage raw generation) := by
  have hread := (sees_selenium generation).isPlain
  have hroundtrip : IsPlain (checkpointSeleniumRoundtrip raw generation) := fun t =>
    (meets_roundtrip raw generation t).mono (fun _ _ h => h.1) fun _ _ h => h
  refine isPlain_bind hread fun existing => isPlain_ite ?_ (isPlain_readback hread _ _ _)
  exact isPlain_bind hroundtrip fun _ => isPlain_bind (isPlain_path _ _ _) fun _ =>
    isPlain_readback hread _ _ _

/-- The message is published right after the queue was declared. -/
theorem isPlain_rabbit (raw : ByteArray) (generation : Text) :
    IsPlain (checkpointRabbitStage raw generation) := by
  have hread := (sees_rabbit generation).isPlain
  refine isPlain_bind hread fun existing => ?_
  cases existing with
  | some existing => exact isPlain_bind (isPlain_require _ _) fun _ => isPlain_pure _
  | none =>
      intro t
      have hqueue : ∀ x, Extends t (t ++ [⟨.putQueue generation, x⟩]) := fun _ => extends_append rfl
      have hrest : ∀ {t'} (created : Bool), Extends t t' →
          (do let observed ← onError (checkpointRabbitRead generation) fun e =>
                raise (if e.isBridgeError && !created then .unowned "checkpoint-rabbitmq-unowned" else e)
              require (observed = some raw)
                (if created then .checkpoint "checkpoint-rabbitmq-readback-failed"
                  else .unowned "checkpoint-rabbitmq-unowned")
              return created : Call Bool).Meets environment t' (fun _ => Extends t) fun _ => Extends t := by
        intro t' created h
        have hback := isPlain_readback (isPlain_onError hread fun e => isPlain_raise
          (if e.isBridgeError && !created then .unowned "checkpoint-rabbitmq-unowned" else e)) raw
          (if created then .checkpoint "checkpoint-rabbitmq-readback-failed"
            else .unowned "checkpoint-rabbitmq-unowned") created t'
        exact hback.mono (fun _ _ => h.trans) fun _ _ => h.trans
      rw [meets_bind]
      refine meets_ask trivial (fun created => ?_) fun e => hqueue _
      cases created with
      | false => exact hrest false (hqueue _)
      | true =>
          have hpublish : ∀ x, Extends t ((t ++ [⟨.putQueue generation, .ok true⟩]) ++
              [⟨.publish generation (Py.b64encode raw), x⟩]) := fun _ => (hqueue _).trans (extends_append rfl)
          refine meets_ite.mpr ⟨fun _ => meets_bind.mpr ?_, fun h => absurd rfl h⟩
          refine meets_ask List.getLast?_concat (fun routed => meets_bind.mpr ?_) fun e => hpublish _
          exact meets_lift.mpr ⟨fun _ _ => hrest true (hpublish _), fun _ _ => hpublish _⟩

theorem isPlain_checkpointStager (p : Provider) (raw : ByteArray) (generation digest : Text) :
    IsPlain (checkpointStager p raw generation digest) := by
  rcases p with _ | _ | _ | _ | _ | _
  · exact isPlain_pg raw generation digest
  · exact isPlain_redis raw generation
  · exact isPlain_rabbit raw generation
  · exact isPlain_selenium raw generation
  · exact isPlain_path .files raw generation
  · exact isPlain_path .clock raw generation

/-! ## Deleters -/

/-- Code that deletes one shard, once. -/
def IsDeleter {α : Type} (action : Call α) (p : Provider) (generation : Text) : Prop :=
  ∀ t, (p, generation) ∉ t.erased →
    action.Meets environment t (fun _ => Erases p generation t) fun _ => Erases p generation t

theorem isDeleter_ask {r : Request} (h : r.effect = .erase p generation) : IsDeleter (ask r) p generation := by
  intro t hnew
  have herases : ∀ x, Erases p generation t (t ++ [⟨r, x⟩]) := fun x => by
    refine ⟨List.prefix_append _ _, fun shard hmem => ?_⟩
    have hx : (Exchange.mk r x).erased = some (p, generation) := by rw [Exchange.erased, h]
    rw [Trace.erased, List.filterMap_append, List.filterMap_cons_some hx, List.filterMap_nil] at hmem
    exact (List.mem_append.mp hmem).imp_right List.mem_singleton.mp
  refine meets_ask ?_ (fun a => herases _) fun e => herases _
  rw [Allows, h]
  exact hnew

theorem isDeleter_bind {x : Call α} {f : α → Call β} (hx : IsDeleter x p generation)
    (hf : ∀ a, IsPlain (f a)) : IsDeleter (x >>= f) p generation := fun t hnew =>
  meets_bind.mpr ((hx t hnew).mono
    (fun a t' h => (hf a t').mono (fun _ _ => h.extends) fun _ _ => h.extends) fun _ _ h => h)

theorem isDeleter_path (d : Directory) (generation : Text) :
    IsDeleter (checkpointPathDelete d generation) (.directory d) generation := by
  intro t hnew
  rw [checkpointPathDelete, meets_bind]
  refine meets_lift.mpr ⟨fun _ _ => ?_, fun _ _ => (Extends.refl t).erases⟩
  exact isDeleter_bind (p := .directory d) (isDeleter_ask rfl) (fun _ => isPlain_pure _) t hnew

theorem isDeleter_checkpointDeleter (p : Provider) (generation : Text) :
    IsDeleter (checkpointDeleter p generation) p generation := by
  rcases p with _ | _ | _ | _ | _ | _
  · exact isDeleter_bind (p := .postgres) (isDeleter_ask rfl) fun _ => isPlain_pure _
  · exact isDeleter_bind (p := .redis) (isDeleter_ask rfl) fun _ => isPlain_require _ _
  · refine isDeleter_bind (p := .rabbitmq) (fun t hnew => ?_) fun _ => isPlain_pure _
    exact meets_onError.mpr (isDeleter_ask (p := .rabbitmq) rfl t hnew)
  · exact isDeleter_bind (isDeleter_path .session generation) fun _ =>
      isPlain_browserSession fun session => isPlain_ask rfl
  · exact isDeleter_path .files generation
  · exact isDeleter_path .clock generation

end

end Trace

open Trace RealProviderLabStateStore

variable [Sha256] {t t' : Trace} {p : Provider} {generation : Text} {raw : ByteArray}

/-! ## The calls of the store -/

theorem isPlain_requireHealthy : IsPlain requireHealthy :=
  isPlain_bind (isPlain_ask rfl) fun _ => isPlain_require _ _

theorem meets_poison {α : Type} {Q : α → Trace → Prop} :
    (poison : Call α).Meets environment t Q fun _ => Extends t := by
  rw [poison, meets_bind]
  exact meets_ask trivial (fun _ => extends_append rfl) fun _ => extends_append rfl

theorem meets_poisonUnless {c : Prop} [Decidable c] :
    (poisonUnless c).Meets environment t (fun _ t' => Extends t t' ∧ c) fun _ => Extends t :=
  meets_ite.mpr ⟨fun h => ⟨.refl t, h⟩, fun _ => meets_poison⟩

/-- What is observed is valid, and an answer showed it. -/
theorem meets_observe (p : Provider) (generation : Text) (t : Trace) :
    (observe p generation).Meets environment t
      (fun out t' => Extends t t' ∧ validateCheckpointBytes out.1 = .ok out ∧ t'.Saw p generation out.1)
      fun _ => Extends t := by
  have hpoison : ∀ {e t₁}, Extends t t₁ → (if e.isPoisoned then raise e else poison :
      Call (ByteArray × Text × Text)).Meets environment t₁ (fun out t' => Extends t t' ∧
        validateCheckpointBytes out.1 = .ok out ∧ t'.Saw p generation out.1) fun _ => Extends t :=
    fun hextends => meets_ite.mpr ⟨fun _ => hextends,
      fun _ => meets_poison.mono (fun _ _ h => h) fun _ _ => hextends.trans⟩
  rw [observe, meets_onError, meets_bind]
  refine (sees_checkpointReader p generation t).mono ?_ fun _ _ => hpoison
  rintro observed t₁ ⟨hextends, hsaw⟩
  cases observed with
  | none => exact meets_poison.mono (fun _ _ h => h) fun _ _ h => hpoison (hextends.trans h)
  | some raw =>
      refine meets_lift.mpr ⟨fun out hout => ⟨hextends, ?_⟩, fun _ _ => hpoison hextends⟩
      obtain rfl := fst_of_validate hout
      exact ⟨hout, hsaw _ rfl⟩

/-- Equal valid shards of a generation were read from some providers. -/
def ReadFrom (t : Trace) (generation : Text) (providers : List Provider) (first : ByteArray × Text) : Prop :=
  validateCheckpointBytes first.1 = .ok (first.1, generation, first.2) ∧
    ∀ p ∈ providers, t.Saw p generation first.1

theorem meets_captureFrom {rest providers : List Provider} {expected : Option (ByteArray × Text)}
    {observations : List Observation} (hnone : expected = none → providers = [])
    (hsome : ∀ first ∈ expected, ReadFrom t generation providers first) :
    (captureFrom generation rest expected observations).Meets environment t
      (fun _ t' => Extends t t' ∧ ∃ first, ReadFrom t' generation (providers ++ rest) first)
      fun _ => Extends t := by
  induction rest generalizing t providers expected observations with
  | nil =>
      cases expected with
      | none => exact .refl t
      | some first =>
          rw [List.append_nil]
          exact ⟨.refl t, first, hsome first rfl⟩
  | cons p rest ih =>
      rw [captureFrom, meets_bind]
      refine (meets_observe p generation t).mono ?_ fun _ _ h => h
      rintro ⟨raw, generation', digest⟩ t₁ ⟨hextends, hvalid, hsaw⟩
      rw [meets_bind]
      refine meets_poisonUnless.mono ?_ fun _ _ => hextends.trans
      rintro - t₂ ⟨hextends₂, rfl⟩
      rw [meets_bind]
      refine meets_poisonUnless.mono ?_ fun _ _ h => hextends.trans (hextends₂.trans h)
      rintro - t₃ ⟨hextends₃, hequal⟩
      have hsince := hextends₂.trans hextends₃
      have hread : ReadFrom t₃ generation' (providers ++ [p]) (raw, digest) := by
        refine ⟨hvalid, fun p' hp' => ?_⟩
        rcases List.mem_append.mp hp' with hp' | hp'
        · cases expected with
          | none =>
              rw [hnone rfl] at hp'
              cases hp'
          | some first =>
              obtain rfl := hequal first rfl
              exact ((hsome _ rfl).2 p' hp').extend (hextends.trans hsince).grown
        · rw [List.mem_singleton.mp hp']
          exact hsaw.extend hsince.grown
      have hfirst : ∀ first ∈ some (raw, digest), ReadFrom t₃ generation' (providers ++ [p]) first := by
        intro first hmem
        rw [← Option.mem_some.mp hmem]
        exact hread
      have hnone : some (raw, digest) = none → providers ++ [p] = [] := nofun
      refine (ih hnone hfirst).mono ?_ fun _ _ h => (hextends.trans hsince).trans h
      rintro captured t₄ ⟨hextends₄, first, hfirst⟩
      rw [List.append_assoc] at hfirst
      exact ⟨(hextends.trans hsince).trans hextends₄, first, hfirst⟩

theorem meets_capture (generation : Text) (t : Trace) : (capture generation).Meets environment t
    (fun _ t' => Extends t t' ∧ ∃ raw digest, validateCheckpointBytes raw = .ok (raw, generation, digest) ∧
      ∀ p, t'.Saw p generation raw) fun _ => Extends t := by
  rw [capture, meets_bind]
  refine (isPlain_requireHealthy t).mono (fun _ t₁ hextends => ?_) fun _ _ h => h
  rw [meets_bind]
  refine meets_lift.mpr ⟨fun _ _ => ?_, fun _ _ => hextends⟩
  refine (meets_captureFrom (fun _ => rfl) fun _ h => absurd h (Option.not_mem_none _)).mono ?_
    fun _ _ => hextends.trans
  rintro captured t₂ ⟨hextends₂, ⟨raw, digest⟩, hvalid, hsaw⟩
  exact ⟨hextends.trans hextends₂, raw, digest, hvalid, fun p => hsaw p (mem_checkpointProviders p)⟩

theorem isPlain_capture (generation : Text) : IsPlain (capture generation) := fun t =>
  (meets_capture generation t).mono (fun _ _ h => h.1) fun _ _ h => h

theorem isPlain_loadActive : IsPlain loadActive := by
  refine isPlain_bind isPlain_requireHealthy fun _ => isPlain_bind ?_ fun active => ?_
  · refine isPlain_bind (isPlain_ask rfl) fun rows => ?_
    split
    · exact isPlain_bind (isPlain_require _ _) fun _ => isPlain_pure _
    · exact isPlain_raise _
  · cases active with
    | none => exact isPlain_raise _
    | some generation => exact isPlain_capture generation

theorem meets_compareAndSwap (expected : Option Text) (next : Text) :
    (compareAndSwap expected next).Meets environment t (fun _ _ => True) fun _ _ => True := by
  have hplain : ∀ {x : Call Capture} {t'}, IsPlain x →
      x.Meets environment t' (fun _ _ => True) fun _ _ => True := fun h =>
    (h _).mono (fun _ _ _ => trivial) fun _ _ _ => trivial
  rw [compareAndSwap, meets_bind]
  refine (isPlain_requireHealthy t).mono (fun _ t₁ _ => ?_) fun _ _ _ => trivial
  rw [meets_bind]
  refine meets_lift.mpr ⟨fun _ _ => ?_, fun _ _ => trivial⟩
  rw [meets_bind]
  refine meets_lift.mpr ⟨fun _ _ => ?_, fun _ _ => trivial⟩
  rw [meets_bind]
  refine (meets_capture next t₁).mono ?_ fun _ _ _ => trivial
  rintro - t₂ ⟨-, hread⟩
  rw [meets_bind, checkpointPgCas, meets_bind]
  refine meets_ask hread (fun rows => ?_) fun _ => trivial
  refine meets_lift.mpr ⟨fun _ _ => ?_, fun _ _ => trivial⟩
  refine hplain (isPlain_bind (isPlain_onError isPlain_loadActive fun e => ?_) fun active =>
    isPlain_bind (fun t' => ?_) fun _ => isPlain_pure _)
  · exact isPlain_ite (isPlain_raise _) fun t' => meets_poison
  · exact meets_poisonUnless.mono (fun _ _ h => h.1) fun _ _ h => h

/-- The loop of `stage` deletes nothing, and what it has created is listed once. -/
theorem meets_stageFrom {digest : Text} {rest created : List Provider} (h : (created ++ rest).Nodup) :
    (stageFrom raw generation digest rest created).Meets environment t
      (fun out t' => Extends t t' ∧ out.1.Nodup) fun _ => Extends t := by
  induction rest generalizing t created with
  | nil => exact ⟨.refl t, (List.append_nil created ▸ h)⟩
  | cons p rest ih =>
      have hcreated : created.Nodup := (List.nodup_append.mp h).1
      have hp : (created ++ [p]).Nodup := by
        rw [← List.singleton_append, ← List.append_assoc] at h
        exact (List.nodup_append.mp h).1
      rw [stageFrom, meets_bind, meets_attempt]
      refine ((sees_checkpointReader p generation).isPlain t).mono ?_ fun _ _ hextends => ⟨hextends, hcreated⟩
      intro existing t₁ hextends
      rw [meets_bind, meets_attempt]
      refine (isPlain_checkpointStager p raw generation digest t₁).mono ?_ ?_
      · intro wasCreated t₂ hextends₂
        have hnext : ((if wasCreated then created ++ [p] else created) ++ rest).Nodup := by
          split
          · rw [List.append_assoc]
            exact h
          · exact h.sublist (List.Sublist.append_left (List.sublist_cons_self p rest) created)
        exact (ih hnext).mono (fun _ _ h => ⟨(hextends.trans hextends₂).trans h.1, h.2⟩)
          fun _ _ => (hextends.trans hextends₂).trans
      · intro e t₂ hextends₂
        refine ⟨hextends.trans hextends₂, ?_⟩
        split
        · exact hp
        · exact hcreated

theorem meets_rollback {created : List Provider} (hnodup : created.Nodup)
    (hnew : ∀ p ∈ created, (p, generation) ∉ t.erased) :
    (rollback generation created).Meets environment t (fun _ _ => True) fun _ _ => True := by
  induction created generalizing t with
  | nil => exact trivial
  | cons p rest ih =>
      obtain ⟨hp, hrest⟩ := List.nodup_cons.mp hnodup
      have hnext : ∀ {t'}, Erases p generation t t' →
          (rollback generation rest).Meets environment t' (fun _ _ => True) fun _ _ => True := by
        refine fun herases => ih hrest fun p' hp' hmem => ?_
        rcases herases.erased _ hmem with hmem | heq
        · exact hnew p' (List.mem_cons_of_mem _ hp') hmem
        · exact hp ((Prod.mk.inj heq).1 ▸ hp')
      rw [rollback, meets_bind, meets_attempt]
      have hdelete : IsDeleter (do checkpointDeleter p generation; checkpointReader p generation) p
          generation := isDeleter_bind (isDeleter_checkpointDeleter p generation) fun _ =>
        (sees_checkpointReader p generation).isPlain
      exact (hdelete t (hnew p List.mem_cons_self)).mono (fun _ _ => hnext) fun _ _ => hnext

theorem meets_stage (checkpoint : ByteArray) (h : t.erased = []) :
    (stage checkpoint).Meets environment t (fun _ _ => True) fun _ _ => True := by
  rw [stage, meets_bind]
  refine (isPlain_requireHealthy t).mono (fun _ t₁ hextends => ?_) fun _ _ _ => trivial
  rw [meets_bind]
  refine meets_lift.mpr ⟨?_, fun _ _ => trivial⟩
  rintro ⟨raw, generation, digest⟩ -
  rw [meets_bind]
  refine (meets_stageFrom (by decide)).mono ?_ fun _ _ _ => trivial
  rintro ⟨created, result⟩ t₂ ⟨hextends₂, hnodup⟩
  have hplain : IsPlain (attempt do lift result; capture generation) :=
    isPlain_attempt (isPlain_bind (isPlain_lift result) fun _ => isPlain_capture generation)
  rw [meets_bind]
  refine (hplain t₂).mono (fun outcome t₃ hextends₃ => ?_) fun _ _ _ => trivial
  cases outcome with
  | ok captured => exact trivial
  | error e =>
      rw [meets_bind]
      refine (meets_rollback (List.nodup_reverse.mpr hnodup) fun p _ hmem => ?_).mono
        (fun _ t₄ _ => meets_poison.mono (fun _ _ h => h) fun _ _ _ => trivial) fun _ _ _ => trivial
      rw [((hextends.trans hextends₂).trans hextends₃).erased, h] at hmem
      cases hmem

/-- Every call keeps to the rules. -/
theorem meets_action (call : StoreCall) :
    call.action.Meets environment [] (fun _ _ => True) fun _ _ => True := by
  have hplain : ∀ {x : Call Capture}, IsPlain x →
      x.Meets environment [] (fun _ _ => True) fun _ _ => True := fun h =>
    (h []).mono (fun _ _ _ => trivial) fun _ _ _ => trivial
  cases call with
  | stage checkpoint => exact meets_stage checkpoint rfl
  | capture generation => exact hplain (isPlain_capture generation)
  | loadActive => exact hplain isPlain_loadActive
  | compareAndSwap expected next => exact meets_compareAndSwap expected next

end StateWeaver.Bridge
