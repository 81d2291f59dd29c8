import StateWeaver.Bridge.CallDiscipline
import StateWeaver.Bridge.Exclusive

/-!
# Concurrent stores

Any number of stores over the same providers, interleaved at single requests, any of which may raise. The
lemmas say what a request does to a shard and to what is known of it, what a step can do, and that a store
can make a call while the others wait.
-/

namespace StateWeaver.Bridge

open Py (Text text)
open Requests (Program)
open Requests.Action (lift)

/-- A call that a store is in: what is left of it, and what it has requested. -/
structure Running where
  rest : Program Request Answer Exc (Except Exc Capture)
  trace : Trace

/-- Stores over the same providers. -/
structure System (Store : Type) where
  world : World
  poisoned : Store → Bool
  /-- The call that a store is in. -/
  running : Store → Option Running
  /-- The store whose request has created a shard. -/
  creator : Provider → Text → Option Store
  /-- The generations that a compare-and-swap has made active. -/
  promoted : List Text

/-- A step of a store. -/
inductive Event where
  | start (call : StoreCall)
  /-- The next request of the call ends. -/
  | request (outcome : Outcome)
  | finish

/-- What a request that ends so has changed. -/
def Outcome.effect (r : Request) : Outcome → Effect
  | .answered => r.effect
  | .before _ => .nothing
  | .after written _ => r.interrupted written

theorem Outcome.effect_of_erase {r : Request} {outcome : Outcome} {p : Provider} {generation : Text}
    (h : outcome.effect r = .erase p generation) : r.effect = .erase p generation := by
  cases outcome with
  | answered => exact h
  | before fault => cases h
  | after written fault =>
      cases r with
      | createFile d generation' raw => cases h
      | _ => exact h

theorem Outcome.effect_of_enqueue {r : Request} {outcome : Outcome} {generation payload : Text}
    (h : outcome.effect r = .enqueue generation payload) : r.effect = .enqueue generation payload := by
  cases outcome with
  | answered => exact h
  | before fault => cases h
  | after written fault =>
      cases r with
      | createFile d generation' raw => cases h
      | _ => exact h

theorem Outcome.effect_of_activate {r : Request} {outcome : Outcome} {expected : Option Text} {next : Text}
    (h : outcome.effect r = .activate expected next) : r.effect = .activate expected next := by
  cases outcome with
  | answered => exact h
  | before fault => cases h
  | after written fault =>
      cases r with
      | createFile d generation' raw => cases h
      | _ => exact h

namespace World

/-- The generation that an effect makes active. -/
def promotes (w : World) : Effect → List Text
  | .activate expected next => if w.swaps expected next then [next] else []
  | _ => []

/-- A shard that is there and can be deleted. -/
def Removable (w : World) (p : Provider) (generation : Text) : Prop :=
  w.shards p generation ≠ none ∧ w.protects p generation = false

end World

namespace System

variable {Store : Type} [DecidableEq Store]

def start (w : World) : System Store := ⟨w, fun _ => false, fun _ => none, fun _ _ => none, []⟩

/-- A request of a store. -/
def exchange (s : System Store) (store : Store) (r : Request) (outcome : Outcome) :
    Except Exc (Answer r) × System Store :=
  match r with
  | .getPoisoned => (.ok (s.poisoned store), s)
  | .setPoisoned => (.ok (), { s with poisoned := Function.update s.poisoned store true })
  | r =>
      let (x, w) := s.world.perform r outcome
      (x, { s with
        world := w
        creator := fun p generation =>
          if (s.world.shards p generation).isNone && (w.shards p generation).isSome then some store
          else s.creator p generation
        promoted := s.world.promotes (outcome.effect r) ++ s.promoted })

/-- Let a store be in a call, or in none. -/
def setRunning (s : System Store) (store : Store) (running : Option Running) : System Store :=
  { s with running := Function.update s.running store running }

def step [Sha256] (s : System Store) :
    Store × Event → Option (Option (Except Exc Capture) × System Store)
  | (store, .start call) =>
      match s.running store with
      | none => some (none, s.setRunning store (some ⟨call.action, []⟩))
      | some _ => none
  | (store, .request outcome) =>
      match s.running store with
      | some ⟨.call r next, trace⟩ =>
          let (x, s') := s.exchange store r outcome
          some (none, s'.setRunning store (some ⟨next x, trace ++ [⟨r, x⟩]⟩))
      | _ => none
  | (store, .finish) =>
      match s.running store with
      | some ⟨.done result, _⟩ => some (some result, s.setRunning store none)
      | _ => none

def machine [Sha256] : Machine (System Store) (Store × Event) (Option (Except Exc Capture)) := ⟨step⟩

end System

/-! ## Effects on the shards -/

namespace World

variable {w : World} {p : Provider} {generation : Text} {effect : Effect}

/-- What an effect does to one shard. -/
theorem apply_cases (w : World) (effect : Effect) (p : Provider) (generation : Text) :
    (w.apply effect).shards p generation = w.shards p generation ∨
      (∃ content, effect = .create p generation content ∧ w.shards p generation = none ∧
        (w.apply effect).shards p generation = some content) ∨
      (effect = .erase p generation ∧ w.protects p generation = false) ∨
      ∃ payload, effect = .enqueue generation payload ∧ p = .rabbitmq ∧
        (w.shards p generation ≠ none → (w.apply effect).shards p generation ≠ none) := by
  cases effect with
  | nothing => exact Or.inl rfl
  | create p' generation' content =>
      by_cases hsome : (w.shards p' generation').isSome = true
      · exact Or.inl (by rw [apply, if_pos hsome])
      · rw [apply, if_neg hsome]
        by_cases heq : (p, generation) = (p', generation')
        · obtain ⟨rfl, rfl⟩ := Prod.mk.inj heq
          rw [Bool.not_eq_true, Option.isSome_eq_false_iff, Option.isNone_iff_eq_none] at hsome
          exact Or.inr (Or.inl ⟨content, rfl, hsome, setShard_self⟩)
        · exact Or.inl (setShard_of_ne heq)
  | erase p' generation' =>
      by_cases hprotects : w.protects p' generation' = true
      · exact Or.inl (by rw [apply, if_pos hprotects])
      · rw [apply, if_neg hprotects]
        by_cases heq : (p, generation) = (p', generation')
        · obtain ⟨rfl, rfl⟩ := Prod.mk.inj heq
          exact Or.inr (Or.inr (Or.inl ⟨rfl, (Bool.not_eq_true _).mp hprotects⟩))
        · exact Or.inl (setShard_of_ne heq)
  | enqueue generation' payload =>
      rw [apply]
      split
      · exact Or.inl rfl
      · next messages hmessages =>
          by_cases heq : (p, generation) = (.rabbitmq, generation')
          · obtain ⟨rfl, rfl⟩ := Prod.mk.inj heq
            refine Or.inr (Or.inr (Or.inr ⟨payload, rfl, rfl, fun _ => ?_⟩))
            rw [setShard_self]
            exact Option.some_ne_none _
          · exact Or.inl (setShard_of_ne heq)
  | activate expected next =>
      rw [apply]
      split
      · exact Or.inl rfl
      · exact Or.inl rfl
  | browse change => exact Or.inl rfl

/-- A shard that is there keeps its content unless the effect deletes it or adds a message. -/
theorem shards_apply (h : w.shards p generation ≠ none)
    (herase : effect = .erase p generation → w.protects p generation = true)
    (henqueue : ∀ payload, effect = .enqueue generation payload → p ≠ .rabbitmq) :
    (w.apply effect).shards p generation = w.shards p generation := by
  rcases w.apply_cases effect p generation with
    hsame | ⟨content, -, hnone, -⟩ | ⟨heffect, hprotects⟩ | ⟨payload, heffect, hrabbit, -⟩
  · exact hsame
  · exact absurd hnone h
  · rw [herase heffect] at hprotects
    cases hprotects
  · exact absurd hrabbit (henqueue payload heffect)

/-- The pointer moves only to what is made active. -/
theorem activeGeneration_apply (h : (w.apply effect).activeGeneration = some generation) :
    generation ∈ w.promotes effect ∨ w.activeGeneration = some generation := by
  cases effect with
  | activate expected next =>
      rw [apply] at h
      rw [promotes]
      split at h
      · next hswaps =>
          rw [if_pos hswaps]
          exact Or.inl (List.mem_singleton.mpr (Option.some.inj h).symm)
      · exact Or.inr h
  | nothing => exact Or.inr h
  | browse change => exact Or.inr h
  | create p' generation' content =>
      rw [apply] at h
      split at h <;> exact Or.inr h
  | erase p' generation' =>
      rw [apply] at h
      split at h <;> exact Or.inr h
  | enqueue generation' payload =>
      rw [apply] at h
      split at h <;> exact Or.inr h

/-- A request that says that it created its shard has found none. -/
theorem eq_none_of_tells {r : Request} {content : Content p} {a : Answer r}
    (heffect : r.effect = .create p generation content) (hanswer : w.answer r = .ok a)
    (htells : tellsCreated r a = true) : w.shards p generation = none := by
  have hnone : ∀ {α : Type} {x : Option α}, ¬ x.isSome = true → x = none := fun h =>
    Option.not_isSome_iff_eq_none.mp h
  cases r with
  | insertCheckpoint generation' row =>
      cases heffect
      obtain rfl := Except.ok.inj hanswer
      refine hnone fun hsome => ?_
      rw [tellsCreated, if_pos hsome] at htells
      cases htells
  | redisSet generation' value =>
      cases heffect
      obtain rfl := Except.ok.inj hanswer
      refine hnone fun hsome => ?_
      rw [tellsCreated, if_pos hsome] at htells
      cases htells
  | putQueue generation' =>
      cases heffect
      obtain rfl := Except.ok.inj hanswer
      exact hnone fun hsome => by rw [tellsCreated, hsome] at htells; cases htells
  | createFile d generation' raw =>
      cases heffect
      obtain rfl := Except.ok.inj hanswer
      exact hnone fun hsome => by rw [tellsCreated, hsome] at htells; cases htells
  | _ => cases htells

/-- What an answer has shown is there if the request would be answered alike. -/
theorem holds_of_shows {x : Exchange} {raw : ByteArray} (h : x.Shows generation raw p)
    (hanswer : w.answer x.request = x.answer) : w.Holds p generation raw := by
  cases h with
  | postgres h =>
      have hrows := Except.ok.inj hanswer
      cases hrow : w.shards .postgres generation with
      | none =>
          rw [hrow] at hrows
          cases hrows
      | some row =>
          rw [hrow] at hrows
          obtain rfl := Option.some.inj (List.cons.inj (List.cons.inj hrows).1).1
          refine ⟨row, hrow, ?_⟩
          rw [readContent, h]
          rfl
  | redis h =>
      refine ⟨_, Except.ok.inj hanswer, ?_⟩
      rw [readContent, h]
      rfl
  | rabbitmq h =>
      rw [answer] at hanswer
      cases hqueue : w.shards .rabbitmq generation with
      | none =>
          rw [hqueue] at hanswer
          cases hanswer
      | some messages =>
          rw [hqueue] at hanswer
          rcases messages with _ | ⟨payload, _ | ⟨payload', rest⟩⟩
          · cases hanswer
          · obtain rfl := (List.cons.inj (Except.ok.inj hanswer)).1
            refine ⟨_, hqueue, ?_⟩
            change (checkpointDecoded (some (payload.take truncation))).toOption = some raw
            rw [h]
            rfl
          · cases (List.cons.inj (Except.ok.inj hanswer)).2
  | directory d h => exact ⟨_, Except.ok.inj hanswer, if_pos h⟩

end World

/-! ## Single requests -/

namespace System

variable {Store : Type} {s s' : System Store} {store other : Store} {r : Request} {outcome : Outcome}
  {p : Provider} {generation : Text}

variable [DecidableEq Store]

theorem setRunning_self {running : Option Running} : (s.setRunning store running).running store = running :=
  Function.update_self ..

theorem setRunning_of_ne {running : Option Running} (h : other ≠ store) :
    (s.setRunning store running).running other = s.running other :=
  Function.update_of_ne h ..

theorem exchange_world (s : System Store) (store : Store) (r : Request) (outcome : Outcome) :
    (s.exchange store r outcome).2.world = s.world.apply (outcome.effect r) := by
  cases r <;> cases outcome <;> rfl

theorem exchange_promoted (s : System Store) (store : Store) (r : Request) (outcome : Outcome) :
    (s.exchange store r outcome).2.promoted = s.world.promotes (outcome.effect r) ++ s.promoted := by
  cases r <;> cases outcome <;> rfl

theorem exchange_running (s : System Store) (store : Store) (r : Request) (outcome : Outcome) :
    (s.exchange store r outcome).2.running = s.running := by
  cases r <;> rfl

theorem exchange_creator (s : System Store) (store : Store) (r : Request) (outcome : Outcome)
    (p : Provider) (generation : Text) : (s.exchange store r outcome).2.creator p generation =
      if (s.world.shards p generation).isNone &&
          ((s.world.apply (outcome.effect r)).shards p generation).isSome then some store
      else s.creator p generation := by
  cases r with
  | getPoisoned =>
      cases outcome <;> change s.creator p generation = if (s.world.shards p generation).isNone &&
        (s.world.shards p generation).isSome then _ else _ <;>
          cases s.world.shards p generation <;> rfl
  | setPoisoned =>
      cases outcome <;> change s.creator p generation = if (s.world.shards p generation).isNone &&
        (s.world.shards p generation).isSome then _ else _ <;>
          cases s.world.shards p generation <;> rfl
  | _ => cases outcome <;> rfl

/-- Who has created a shard that was there does not change. -/
theorem exchange_creator_of_ne_none (h : s.world.shards p generation ≠ none) :
    (s.exchange store r outcome).2.creator p generation = s.creator p generation := by
  rw [exchange_creator, Option.isNone_eq_false_iff.mpr (Option.isSome_iff_ne_none.mpr h), Bool.false_and,
    if_neg Bool.false_ne_true]

/-- A request that says that it has created its shard has done so. -/
theorem created_of_tells {content : Content p} {a : Answer r}
    (hanswer : (s.exchange store r outcome).1 = .ok a) (htells : tellsCreated r a = true)
    (heffect : r.effect = .create p generation content) :
    (s.exchange store r outcome).2.world.shards p generation = some content ∧
      (s.exchange store r outcome).2.creator p generation = some store := by
  have hanswered : outcome.effect r = r.effect ∧ s.world.answer r = .ok a := by
    cases r with
    | getPoisoned => cases htells
    | setPoisoned => cases htells
    | _ =>
      cases outcome with
      | answered => exact ⟨rfl, hanswer⟩
      | before fault => cases hanswer
      | after written fault => cases hanswer
  have hnone := World.eq_none_of_tells heffect hanswered.2 htells
  have hafter : (s.world.apply (outcome.effect r)).shards p generation = some content := by
    rw [hanswered.1, heffect, World.apply, hnone, Option.isSome_none, if_neg Bool.false_ne_true]
    exact World.setShard_self
  refine ⟨by rw [exchange_world, hafter], ?_⟩
  rw [exchange_creator, hafter, hnone]
  rfl

/-- A shard that is there stays there unless the request deletes it. -/
theorem ne_none_of_exchange (h : s.world.shards p generation ≠ none)
    (hkept : outcome.effect r = .erase p generation → s.world.protects p generation = true) :
    (s.exchange store r outcome).2.world.shards p generation ≠ none := by
  rw [exchange_world]
  rcases s.world.apply_cases (outcome.effect r) p generation with
    hsame | ⟨content, -, hnone, -⟩ | ⟨herase, hprotects⟩ | ⟨payload, -, -, hkeeps⟩
  · rw [hsame]
    exact h
  · exact absurd hnone h
  · rw [hkept herase] at hprotects
    cases hprotects
  · exact hkeeps h

/-! ## Requests in turn -/

/-- Some requests of a store in turn: what came back, and what they lead to. -/
def exchanges (s : System Store) (store : Store) : List (Request × Outcome) → Trace × System Store
  | [] => ([], s)
  | (r, outcome) :: rest =>
      (⟨r, (s.exchange store r outcome).1⟩ :: ((s.exchange store r outcome).2.exchanges store rest).1,
        ((s.exchange store r outcome).2.exchanges store rest).2)

/-- Code that makes some requests comes to what is left of it. -/
def Leads {ρ : Type} : Program Request Answer Exc ρ → Trace → Program Request Answer Exc ρ → Prop
  | p, [], q => p = q
  | p, x :: t, q => ∃ next, p = .call x.request next ∧ Leads (next x.answer) t q

theorem Leads.bind {ρ ρ' : Type} {p q : Program Request Answer Exc ρ} {t : Trace} (h : Leads p t q)
    (f : ρ → Program Request Answer Exc ρ') : Leads (p.bind f) t (q.bind f) := by
  induction t generalizing p with
  | nil =>
      obtain rfl : p = q := h
      exact rfl
  | cons x t ih =>
      obtain ⟨next, rfl, h⟩ := h
      exact ⟨_, rfl, ih h⟩

theorem Leads.trans {ρ : Type} {p p' q : Program Request Answer Exc ρ} {t t' : Trace} (h : Leads p t p')
    (h' : Leads p' t' q) : Leads p (t ++ t') q := by
  induction t generalizing p with
  | nil =>
      obtain rfl : p = p' := h
      exact h'
  | cons x t ih =>
      obtain ⟨next, rfl, h⟩ := h
      exact ⟨next, rfl, ih h⟩

theorem exchange_setRunning {running : Option Running} :
    (s.setRunning store running).exchange store r outcome =
      ((s.exchange store r outcome).1, (s.exchange store r outcome).2.setRunning store running) := by
  cases r <;> rfl

theorem setRunning_setRunning {running running' : Option Running} :
    (s.setRunning store running).setRunning store running' = s.setRunning store running' := by
  rw [setRunning, setRunning, setRunning, Function.update_idem]

theorem exchanges_setRunning {running : Option Running} {requests : List (Request × Outcome)} :
    (s.setRunning store running).exchanges store requests = ((s.exchanges store requests).1,
      (s.exchanges store requests).2.setRunning store running) := by
  induction requests generalizing s with
  | nil => rfl
  | cons head rest ih =>
      obtain ⟨r, outcome⟩ := head
      rw [exchanges, exchange_setRunning, ih]
      rfl

/-- A store whose requests are all answered makes the requests that it makes with exclusive access. -/
theorem exists_exchanges (p : Program Request Answer Exc (Except Exc Capture)) (s : System Store)
    (store : Store) (requested : List (Request × Bool)) :
    ∃ requests result requested', Leads p (s.exchanges store requests).1 (.done result) ∧
      (s.exchanges store requests).2.running = s.running ∧
      p.run Exclusive.handle ⟨s.poisoned store, s.world, requested, false⟩ (fun _ => .answered) =
        (result, ⟨(s.exchanges store requests).2.poisoned store, (s.exchanges store requests).2.world,
          requested', false⟩) := by
  induction p generalizing s requested with
  | done result => exact ⟨[], result, requested, rfl, rfl, rfl⟩
  | call r next ih =>
      have hhandle : ∃ requested', Exclusive.handle ⟨s.poisoned store, s.world, requested, false⟩ r .answered =
          ((s.exchange store r .answered).1, ⟨(s.exchange store r .answered).2.poisoned store,
            (s.exchange store r .answered).2.world, requested', false⟩) := by
        cases r with
        | setPoisoned =>
            refine ⟨requested, ?_⟩
            simp only [System.exchange, Function.update_self]
            rfl
        | _ => exact ⟨_, rfl⟩
      obtain ⟨requested', hhandle⟩ := hhandle
      obtain ⟨requests, result, requested'', hleads, hrunning, hrun⟩ :=
        ih (s.exchange store r .answered).1 (s.exchange store r .answered).2 requested'
      refine ⟨(r, .answered) :: requests, result, requested'', ⟨next, rfl, hleads⟩,
        hrunning.trans (exchange_running s store r .answered), ?_⟩
      rw [Program.run, hhandle]
      exact hrun

/-! ## Steps -/

variable [Sha256]

/-- What a step can do. -/
theorem step_cases {event : Event} {o : Option (Except Exc Capture)}
    (h : s.step (store, event) = some (o, s')) :
    (∃ call, s' = s.setRunning store (some ⟨StoreCall.action call, []⟩)) ∨
    (∃ outcome r next trace, event = .request outcome ∧ s.running store = some ⟨.call r next, trace⟩ ∧
      s' = (s.exchange store r outcome).2.setRunning store
        (some ⟨next (s.exchange store r outcome).1, trace ++ [⟨r, (s.exchange store r outcome).1⟩]⟩)) ∨
    s' = s.setRunning store none := by
  cases event with
  | start call =>
      rw [step] at h
      split at h
      · cases h
        exact Or.inl ⟨call, rfl⟩
      · cases h
  | request outcome =>
      rw [step] at h
      split at h
      · next r next trace hrunning =>
          cases h
          exact Or.inr (Or.inl ⟨outcome, r, next, trace, rfl, hrunning, rfl⟩)
      · cases h
  | finish =>
      rw [step] at h
      split at h
      · cases h
        exact Or.inr (Or.inr rfl)
      · cases h

/-- A store can go on alone. -/
theorem reaches_exchanges {requests : List (Request × Outcome)} {trace : Trace}
    {p q : Program Request Answer Exc (Except Exc Capture)} (hrunning : s.running store = some ⟨p, trace⟩)
    (hleads : Leads p (s.exchanges store requests).1 q) :
    machine.Reaches Machine.anyStep s ((s.exchanges store requests).2.setRunning store
      (some ⟨q, trace ++ (s.exchanges store requests).1⟩)) := by
  induction requests generalizing s p trace with
  | nil =>
      obtain rfl : p = q := hleads
      rw [exchanges, List.append_nil, ← hrunning, setRunning, Function.update_eq_self]
      exact .refl s
  | cons head rest ih =>
      obtain ⟨r, outcome⟩ := head
      obtain ⟨next, rfl, hleads⟩ := hleads
      have hstep : machine.step s (store, .request outcome) = some (none,
          (s.exchange store r outcome).2.setRunning store
            (some ⟨next (s.exchange store r outcome).1, trace ++ [⟨r, (s.exchange store r outcome).1⟩]⟩)) := by
        change s.step (store, .request outcome) = _
        rw [System.step, hrunning]
      have hrunning' : ((s.exchange store r outcome).2.setRunning store
          (some ⟨next (s.exchange store r outcome).1,
            trace ++ [⟨r, (s.exchange store r outcome).1⟩]⟩)).running store = _ := setRunning_self
      have hrest := ih hrunning' (by rw [exchanges_setRunning]; exact hleads)
      rw [exchanges_setRunning, setRunning_setRunning, List.append_assoc] at hrest
      exact (Machine.Reaches.step (.refl s) trivial hstep).trans hrest

theorem reaches_exchanges_setRunning {requests : List (Request × Outcome)} (trace : Trace)
    {p q : Program Request Answer Exc (Except Exc Capture)}
    (hleads : Leads p (s.exchanges store requests).1 q) :
    machine.Reaches Machine.anyStep (s.setRunning store (some ⟨p, trace⟩))
      ((s.exchanges store requests).2.setRunning store
        (some ⟨q, trace ++ (s.exchanges store requests).1⟩)) := by
  have hexchanges : ((s.setRunning store (some ⟨p, trace⟩)).exchanges store requests) =
      ((s.exchanges store requests).1,
        (s.exchanges store requests).2.setRunning store (some ⟨p, trace⟩)) := exchanges_setRunning
  rw [← congrArg Prod.fst hexchanges] at hleads
  have hreach := reaches_exchanges setRunning_self hleads
  rw [hexchanges, setRunning_setRunning] at hreach
  exact hreach

/-- A store makes a call alone, and every request is answered. -/
theorem reaches_call {call : StoreCall} {Q : Capture → Exclusive → Prop} {R : Exc → Exclusive → Prop}
    (hrunning : s.running store = none)
    (hmeets : call.action.Meets Exclusive.environment ⟨s.poisoned store, s.world, [], false⟩ Q R) :
    ∃ s' e, machine.Reaches Machine.anyStep s s' ∧ s'.running = s.running ∧
      e.poisoned = s'.poisoned store ∧ e.world = s'.world ∧ e.faulty = false ∧
        ((∃ captured, Q captured e) ∨ ∃ error, R error e) := by
  obtain ⟨requests, result, requested, hleads, hsame, hrun⟩ := exists_exchanges call.action s store []
  have hresult := Program.Meets.run hmeets fun _ => .answered
  rw [hrun] at hresult
  have hstart : machine.step s (store, .start call) =
      some (none, s.setRunning store (some ⟨call.action, []⟩)) := by
    change s.step (store, .start call) = _
    rw [System.step, hrunning]
  have hrest := reaches_exchanges_setRunning [] hleads
  have hfinish : machine.step ((s.exchanges store requests).2.setRunning store
      (some ⟨.done result, [] ++ (s.exchanges store requests).1⟩)) (store, .finish) =
        some (some result, (s.exchanges store requests).2.setRunning store none) := by
    change System.step _ (store, .finish) = _
    rw [System.step, setRunning_self]
    rw [setRunning_setRunning]
  refine ⟨_, ⟨_, _, requested, false⟩, ((Machine.Reaches.step (.refl s) trivial hstart).trans hrest).step
    trivial hfinish, ?_, rfl, rfl, rfl, ?_⟩
  · rw [setRunning, hsame, ← hrunning, Function.update_eq_self]
  · cases result with
    | ok captured => exact Or.inl ⟨captured, hresult⟩
    | error error => exact Or.inr ⟨error, hresult⟩

end System

end StateWeaver.Bridge
