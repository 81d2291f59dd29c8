import Mathlib
import StateWeaver.Lib.Machine
import StateWeaver.Lib.Requests

/-!
# Calls that interleave

Calls of a component over shared state, each a program that makes requests, interleaved at single
requests. A discipline says which requests a call may make after what it has requested so far, what can
come back, and how a call may end. A component that obeys a discipline keeps it in every run
(`Obeys.reaches`), and an invariant of the shared state and the traces then needs one lemma for each kind
of step.
-/

namespace Requests

/-- A request with what came back. -/
structure Exchange (Request : Type) (Answer : Request → Type) (ε : Type) where
  request : Request
  answer : Except ε (Answer request)

/-- What a call has requested so far. -/
abbrev Trace (Request : Type) (Answer : Request → Type) (ε : Type) := List (Exchange Request Answer ε)

variable {Request : Type} {Answer : Request → Type} {ε ρ ρ' S C O Id : Type}

/-- Which requests a call may make, what can come back, and how a call may end. -/
structure Discipline (C Request : Type) (Answer : Request → Type) (ε ρ : Type) where
  allowed : C → Trace Request Answer ε → Request → Prop
  answers : (r : Request) → Except ε (Answer r) → Prop
  ends : C → ρ → Trace Request Answer ε → Prop

/-- The environment of one call. -/
def Discipline.environment (D : Discipline C Request Answer ε ρ) (call : C) :
    Environment Request Answer ε (Trace Request Answer ε) where
  allowed := D.allowed call
  answers t r x t' := t' = t ++ [⟨r, x⟩] ∧ D.answers r x

/-- A component: the code of its calls, what a request does to the shared state, unless it has to wait,
and what a call leaves when it ends. -/
structure Component (Id S C Request : Type) (Answer : Request → Type) (ε ρ O : Type) where
  action : C → Program Request Answer ε ρ
  handle : S → Id → (r : Request) → O → Option (Except ε (Answer r) × S)
  settle : S → C → ρ → S

/-- Whatever a call requests comes after what it has requested. -/
theorem Discipline.meets_extends {D : Discipline C Request Answer ε ρ} {call : C}
    {p : Program Request Answer ε ρ'} {t : Trace Request Answer ε} {Q : ρ' → Trace Request Answer ε → Prop}
    (h : p.Meets (D.environment call) t Q) :
    p.Meets (D.environment call) t fun result t' => Q result t' ∧ t <+: t' := by
  induction p generalizing t with
  | done result => exact ⟨h, List.prefix_rfl⟩
  | call r next ih =>
      refine ⟨h.1, fun x t' hx => (ih x (h.2 x t' hx)).mono fun _ t'' hmeets => ⟨hmeets.1, ?_⟩⟩
      obtain ⟨rfl, -⟩ := hx
      exact (List.prefix_append t _).trans hmeets.2

theorem Action.Meets.extends {α : Type} {D : Discipline C Request Answer ε ρ} {call : C}
    {x : Action Request Answer ε α} {t : Trace Request Answer ε} {Q : α → Trace Request Answer ε → Prop}
    {R : ε → Trace Request Answer ε → Prop} (h : x.Meets (D.environment call) t Q R) :
    x.Meets (D.environment call) t (fun a t' => Q a t' ∧ t <+: t') fun e t' => R e t' ∧ t <+: t' := by
  refine (Discipline.meets_extends h).mono fun result t' hboth => ?_
  cases result with
  | ok a => exact hboth
  | error e => exact hboth

/-! ## Habits -/

namespace Trace

variable {may may' : Request → Prop} {t t' t'' : Trace Request Answer ε}

/-- Some requests were made, all of a kind. -/
def Grows (may : Request → Prop) (t t' : Trace Request Answer ε) : Prop :=
  ∃ made, t' = t ++ made ∧ ∀ x ∈ made, may x.request

theorem Grows.refl (t : Trace Request Answer ε) : Grows may t t :=
  ⟨[], (List.append_nil t).symm, List.forall_mem_nil _⟩

theorem Grows.trans (h : Grows may t t') (h' : Grows may t' t'') : Grows may t t'' := by
  obtain ⟨made, rfl, hmade⟩ := h
  obtain ⟨made', rfl, hmade'⟩ := h'
  exact ⟨made ++ made', List.append_assoc .., List.forall_mem_append.mpr ⟨hmade, hmade'⟩⟩

theorem grows_append {x : Exchange Request Answer ε} (h : may x.request) : Grows may t (t ++ [x]) :=
  ⟨[x], rfl, List.forall_mem_singleton.mpr h⟩

theorem Grows.mono (h : Grows may t t') (hmay : ∀ r, may r → may' r) : Grows may' t t' := by
  obtain ⟨made, rfl, hmade⟩ := h
  exact ⟨made, rfl, fun x hx => hmay _ (hmade x hx)⟩

theorem Grows.subset (h : Grows may t t') {x : Exchange Request Answer ε} (hx : x ∈ t) : x ∈ t' := by
  obtain ⟨made, rfl, -⟩ := h
  exact List.mem_append_left _ hx

/-- What was not of the kind was requested before. -/
theorem Grows.mem_of_not (h : Grows may t t') {x : Exchange Request Answer ε} (hx : x ∈ t')
    (hnot : ¬ may x.request) : x ∈ t := by
  obtain ⟨made, rfl, hmade⟩ := h
  exact (List.mem_append.mp hx).resolve_right fun hx => hnot (hmade x hx)

end Trace

/-- What code requests that keeps to a kind of requests, from where it is ready for them on. -/
structure Habit (Request : Type) (Answer : Request → Type) (ε : Type) where
  ready : Trace Request Answer ε → Prop
  may : Request → Prop
  kept {t t' : Trace Request Answer ε} : ready t → Trace.Grows may t t' → ready t'

namespace Habit

variable {α β : Type} {D : Discipline C Request Answer ε ρ} {call : C} {H : Habit Request Answer ε}

/-- Code that keeps to a habit. -/
def Within (H : Habit Request Answer ε) (D : Discipline C Request Answer ε ρ) (call : C)
    (x : Action Request Answer ε α) : Prop :=
  ∀ t, H.ready t → x.Meets (D.environment call) t (fun _ => Trace.Grows H.may t) fun _ => Trace.Grows H.may t

theorem within_pure (a : α) : H.Within D call (Pure.pure a) := fun t _ => .refl t

theorem within_raise (e : ε) : H.Within D call (Action.raise e : Action Request Answer ε α) := fun t _ => .refl t

theorem within_lift (x : Except ε α) : H.Within D call (Action.lift x) := fun t _ =>
  Action.meets_lift.mpr ⟨fun _ _ => .refl t, fun _ _ => .refl t⟩

theorem within_bind {x : Action Request Answer ε β} {f : β → Action Request Answer ε α}
    (hx : H.Within D call x) (hf : ∀ b, H.Within D call (f b)) : H.Within D call (x >>= f) := fun t ht =>
  Action.meets_bind.mpr ((hx t ht).mono (fun b t' h => (hf b t' (H.kept ht h)).mono (fun _ _ => h.trans)
    fun _ _ => h.trans) fun _ _ h => h)

theorem within_onError {x : Action Request Answer ε α} {handler : ε → Action Request Answer ε α}
    (hx : H.Within D call x) (hhandler : ∀ e, H.Within D call (handler e)) :
    H.Within D call (x.onError handler) := fun t ht =>
  Action.meets_onError.mpr ((hx t ht).mono (fun _ _ h => h) fun e t' h =>
    (hhandler e t' (H.kept ht h)).mono (fun _ _ => h.trans) fun _ _ => h.trans)

theorem within_attempt {x : Action Request Answer ε α} (hx : H.Within D call x) :
    H.Within D call x.attempt := fun t ht =>
  Action.meets_attempt.mpr (hx t ht)

theorem within_request {r : Request} (hallowed : ∀ t, H.ready t → D.allowed call t r) (hmay : H.may r) :
    H.Within D call (Action.request r) := fun t ht =>
  Action.meets_request.mpr ⟨hallowed t ht, fun _ _ h => h.1 ▸ Trace.grows_append hmay,
    fun _ _ h => h.1 ▸ Trace.grows_append hmay⟩

end Habit

namespace Component

/-- A call in progress: what is left of it, and what it has requested. -/
structure Running (C Request : Type) (Answer : Request → Type) (ε ρ : Type) where
  call : C
  rest : Program Request Answer ε ρ
  trace : Trace Request Answer ε

/-- The shared state and the calls in progress. -/
structure State (Id S C Request : Type) (Answer : Request → Type) (ε ρ : Type) where
  shared : S
  running : Id → Option (Running C Request Answer ε ρ)

/-- What one call does. -/
inductive Event (C O : Type) where
  | start (call : C)
  /-- Its next request ends. -/
  | request (outcome : O)
  | finish

variable {M : Component Id S C Request Answer ε ρ O} {s s' : State Id S C Request Answer ε ρ} {i j : Id}

section

variable [DecidableEq Id]

/-- Let a call be in progress, or none. -/
def State.setRunning (s : State Id S C Request Answer ε ρ) (i : Id)
    (running : Option (Running C Request Answer ε ρ)) : State Id S C Request Answer ε ρ :=
  { s with running := Function.update s.running i running }

@[simp]
theorem State.setRunning_self {running : Option (Running C Request Answer ε ρ)} :
    (s.setRunning i running).running i = running :=
  Function.update_self ..

theorem State.setRunning_of_ne {running : Option (Running C Request Answer ε ρ)} (h : j ≠ i) :
    (s.setRunning i running).running j = s.running j :=
  Function.update_of_ne h ..

/-- What runs after a call has moved is that call, or it ran before. -/
theorem State.running_setRunning {running : Option (Running C Request Answer ε ρ)}
    {run : Running C Request Answer ε ρ} (h : (s.setRunning i running).running j = some run) :
    j = i ∧ running = some run ∨ j ≠ i ∧ s.running j = some run := by
  by_cases hj : j = i
  · subst hj
    rw [setRunning_self] at h
    exact Or.inl ⟨rfl, h⟩
  · rw [setRunning_of_ne hj] at h
    exact Or.inr ⟨hj, h⟩

def step (M : Component Id S C Request Answer ε ρ O) (s : State Id S C Request Answer ε ρ) :
    Id × Event C O → Option (Option ρ × State Id S C Request Answer ε ρ)
  | (i, .start call) =>
      match s.running i with
      | none => some (none, s.setRunning i (some ⟨call, M.action call, []⟩))
      | some _ => none
  | (i, .request outcome) =>
      match s.running i with
      | some ⟨call, .call r next, trace⟩ =>
          match M.handle s.shared i r outcome with
          | some (x, shared) =>
              some (none, State.setRunning { s with shared := shared } i
                (some ⟨call, next x, trace ++ [⟨r, x⟩]⟩))
          | none => none
      | _ => none
  | (i, .finish) =>
      match s.running i with
      | some ⟨call, .done result, _⟩ =>
          some (some result, State.setRunning { s with shared := M.settle s.shared call result } i none)
      | _ => none

def machine (M : Component Id S C Request Answer ε ρ O) :
    Machine (State Id S C Request Answer ε ρ) (Id × Event C O) (Option ρ) := ⟨M.step⟩

/-- What a step can do. -/
inductive Stepped (M : Component Id S C Request Answer ε ρ O) (s : State Id S C Request Answer ε ρ) (i : Id) :
    Event C O → Option ρ → State Id S C Request Answer ε ρ → Prop where
  | start {call : C} (hidle : s.running i = none) :
      Stepped M s i (.start call) none (s.setRunning i (some ⟨call, M.action call, []⟩))
  | request {call : C} {r : Request} {next : Except ε (Answer r) → Program Request Answer ε ρ}
      {trace : Trace Request Answer ε} {outcome : O} {x : Except ε (Answer r)} {shared : S}
      (hrunning : s.running i = some ⟨call, .call r next, trace⟩)
      (hhandle : M.handle s.shared i r outcome = some (x, shared)) :
      Stepped M s i (.request outcome) none
        (State.setRunning { s with shared := shared } i (some ⟨call, next x, trace ++ [⟨r, x⟩]⟩))
  | finish {call : C} {result : ρ} {trace : Trace Request Answer ε}
      (hrunning : s.running i = some ⟨call, .done result, trace⟩) :
      Stepped M s i .finish (some result)
        (State.setRunning { s with shared := M.settle s.shared call result } i none)

theorem stepped_of_step {event : Event C O} {o : Option ρ} (h : M.machine.step s (i, event) = some (o, s')) :
    Stepped M s i event o s' := by
  change M.step s (i, event) = _ at h
  cases event with
  | start call =>
      rw [step] at h
      split at h
      · next hidle =>
          cases h
          exact .start hidle
      · cases h
  | request outcome =>
      rw [step] at h
      split at h
      · next call r next trace hrunning =>
          split at h
          · next x shared hhandle =>
              cases h
              exact .request hrunning hhandle
          · cases h
      · cases h
  | finish =>
      rw [step] at h
      split at h
      · next call result trace hrunning =>
          cases h
          exact .finish hrunning
      · cases h

end

/-! ## Disciplines -/

variable {D : Discipline C Request Answer ε ρ}

/-- The code of every call keeps a discipline, and only what it expects comes back. -/
structure Obeys (M : Component Id S C Request Answer ε ρ O) (D : Discipline C Request Answer ε ρ) : Prop where
  meets (call : C) : (M.action call).Meets (D.environment call) [] (D.ends call)
  answers {shared shared' : S} {i : Id} {r : Request} {outcome : O} {x : Except ε (Answer r)} :
    M.handle shared i r outcome = some (x, shared') → D.answers r x

/-- Every call in progress keeps a discipline to its end. -/
def Disciplined (D : Discipline C Request Answer ε ρ) (s : State Id S C Request Answer ε ρ) : Prop :=
  ∀ i run, s.running i = some run → run.rest.Meets (D.environment run.call) run.trace (D.ends run.call)

/-- What a disciplined call requests is allowed. -/
theorem Disciplined.allowed (hs : Disciplined D s) {call : C} {r : Request}
    {next : Except ε (Answer r) → Program Request Answer ε ρ} {trace : Trace Request Answer ε}
    (hrunning : s.running i = some ⟨call, .call r next, trace⟩) : D.allowed call trace r :=
  (hs i _ hrunning).1

/-- A disciplined call ends as promised. -/
theorem Disciplined.ends (hs : Disciplined D s) {call : C} {result : ρ} {trace : Trace Request Answer ε}
    (hrunning : s.running i = some ⟨call, .done result, trace⟩) : D.ends call result trace :=
  hs i _ hrunning

variable [DecidableEq Id]

theorem Disciplined.stepped (hM : Obeys M D) (hs : Disciplined D s) {event : Event C O} {o : Option ρ}
    (h : Stepped M s i event o s') : Disciplined D s' := by
  intro j run hj
  cases h with
  | start hidle =>
      rcases State.running_setRunning hj with ⟨rfl, heq⟩ | ⟨-, hj⟩
      · obtain rfl := Option.some.inj heq
        exact hM.meets _
      · exact hs j run hj
  | request hrunning hhandle =>
      rcases State.running_setRunning hj with ⟨rfl, heq⟩ | ⟨-, hj⟩
      · obtain rfl := Option.some.inj heq
        exact (hs j _ hrunning).2 _ _ ⟨rfl, hM.answers hhandle⟩
      · exact hs j run hj
  | finish hrunning =>
      rcases State.running_setRunning hj with ⟨rfl, heq⟩ | ⟨-, hj⟩
      · cases heq
      · exact hs j run hj

/-- What every step of a disciplined state preserves holds in every run. -/
theorem Obeys.reaches (hM : Obeys M D) {allowed : State Id S C Request Answer ε ρ → Id × Event C O → Prop}
    {P : State Id S C Request Answer ε ρ → Prop} (hidle : ∀ i, s.running i = none) (hstart : P s)
    (hstep : ∀ s i event o s', P s → Disciplined D s → allowed s (i, event) → Stepped M s i event o s' → P s')
    (h : M.machine.Reaches allowed s s') : P s' ∧ Disciplined D s' := by
  refine h.invariant (P := fun t => P t ∧ Disciplined D t) ⟨hstart, fun i run hi => ?_⟩ ?_
  · rw [hidle i] at hi
    cases hi
  · rintro t ⟨i, event⟩ o t' ⟨hP, hD⟩ hok hrun
    have hstepped := stepped_of_step hrun
    exact ⟨hstep t i event o t' hP hD hok hstepped, hD.stepped hM hstepped⟩

end Component

end Requests
