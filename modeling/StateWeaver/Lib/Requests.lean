import Mathlib

/-!
# Programs that make requests

A program either ends or makes a request and goes on with the answer, or with the exception that came in
its place. It is code that does not know what it runs against. `Program.Meets` says what holds of a
program in every environment of a kind: each of its requests is allowed where it is made, and it ends
only as promised. The rules go by the structure of the code, one for each construct.
-/

namespace Requests

/-- A program with a result. -/
inductive Program (Request : Type) (Answer : Request → Type) (ε ρ : Type) where
  | done (result : ρ)
  | call (request : Request) (next : Except ε (Answer request) → Program Request Answer ε ρ)

variable {Request : Type} {Answer : Request → Type} {ε ρ ρ' α β S O : Type}

namespace Program

/-- One program after another. -/
def bind : Program Request Answer ε ρ → (ρ → Program Request Answer ε ρ') →
    Program Request Answer ε ρ'
  | done result, f => f result
  | call request next, f => call request fun x => (next x).bind f

end Program

/-- Code that returns or raises. -/
abbrev Action (Request : Type) (Answer : Request → Type) (ε α : Type) :=
  Program Request Answer ε (Except ε α)

namespace Action

def pure (a : α) : Action Request Answer ε α := .done (.ok a)

def raise (e : ε) : Action Request Answer ε α := .done (.error e)

def bind (x : Action Request Answer ε α) (f : α → Action Request Answer ε β) :
    Action Request Answer ε β :=
  Program.bind x fun
    | .ok a => f a
    | .error e => raise e

instance : Monad (Action Request Answer ε) where
  pure := Action.pure
  bind := Action.bind

/-- Make a request. -/
def request (r : Request) : Action Request Answer ε (Answer r) := .call r .done

/-- Return or raise what was computed. -/
def lift (x : Except ε α) : Action Request Answer ε α := .done x

/-- `try`, with what `except` does with an exception. -/
def onError (x : Action Request Answer ε α) (handler : ε → Action Request Answer ε α) :
    Action Request Answer ε α :=
  Program.bind x fun
    | .ok a => Action.pure a
    | .error e => handler e

/-- Run code to its end, whether it returns or raises. -/
def attempt (x : Action Request Answer ε α) : Action Request Answer ε (Except ε α) :=
  Program.bind x fun result => Action.pure result

end Action

/-! ## Environments -/

/-- A kind of environment: which requests may be made in a state, and with what and in which state a
request may be answered. -/
structure Environment (Request : Type) (Answer : Request → Type) (ε S : Type) where
  allowed : S → Request → Prop
  answers : S → (r : Request) → Except ε (Answer r) → S → Prop

variable {E : Environment Request Answer ε S}

namespace Program

/-- Every request is allowed, and the end is as promised. -/
def Meets (E : Environment Request Answer ε S) :
    Program Request Answer ε ρ → S → (ρ → S → Prop) → Prop
  | done result, s, Q => Q result s
  | call r next, s, Q => E.allowed s r ∧ ∀ x s', E.answers s r x s' → (next x).Meets E s' Q

theorem Meets.mono {p : Program Request Answer ε ρ} {s : S} {Q Q' : ρ → S → Prop} (h : p.Meets E s Q)
    (hQ : ∀ result s', Q result s' → Q' result s') : p.Meets E s Q' := by
  induction p generalizing s with
  | done result => exact hQ result s h
  | call r next ih => exact ⟨h.1, fun x s' hx => ih x (h.2 x s' hx)⟩

theorem Meets.and {p : Program Request Answer ε ρ} {s : S} {Q Q' : ρ → S → Prop} (h : p.Meets E s Q)
    (h' : p.Meets E s Q') : p.Meets E s fun result s' => Q result s' ∧ Q' result s' := by
  induction p generalizing s with
  | done result => exact ⟨h, h'⟩
  | call r next ih => exact ⟨h.1, fun x s' hx => ih x (h.2 x s' hx) (h'.2 x s' hx)⟩

theorem meets_bind {p : Program Request Answer ε ρ} {f : ρ → Program Request Answer ε ρ'} {s : S}
    {Q : ρ' → S → Prop} :
    (p.bind f).Meets E s Q ↔ p.Meets E s fun result s' => (f result).Meets E s' Q := by
  induction p generalizing s with
  | done result => exact Iff.rfl
  | call r next ih =>
      exact and_congr_right fun _ => forall_congr' fun x => forall_congr' fun s' =>
        imp_congr_right fun _ => ih x

end Program

namespace Action

/-- What holds of code: `Q` where it returns, `R` where it raises. -/
def Meets (E : Environment Request Answer ε S) (x : Action Request Answer ε α) (s : S)
    (Q : α → S → Prop) (R : ε → S → Prop) : Prop :=
  Program.Meets E x s fun
    | .ok a => Q a
    | .error e => R e

variable {s : S} {Q Q' : α → S → Prop} {R R' : ε → S → Prop}

theorem Meets.mono {x : Action Request Answer ε α} (h : x.Meets E s Q R)
    (hQ : ∀ a s', Q a s' → Q' a s') (hR : ∀ e s', R e s' → R' e s') : x.Meets E s Q' R' := by
  refine Program.Meets.mono h fun result s' h => ?_
  cases result with
  | ok a => exact hQ a s' h
  | error e => exact hR e s' h

theorem Meets.and {x : Action Request Answer ε α} (h : x.Meets E s Q R) (h' : x.Meets E s Q' R') :
    x.Meets E s (fun a s' => Q a s' ∧ Q' a s') fun e s' => R e s' ∧ R' e s' := by
  refine (Program.Meets.and h h').mono fun result s' hboth => ?_
  cases result with
  | ok a => exact hboth
  | error e => exact hboth

/-- What runs after code has ended in either way. -/
theorem meets_bind_program {x : Action Request Answer ε α} {f : Except ε α → Program Request Answer ε ρ}
    {Q : ρ → S → Prop} : (Program.bind x f).Meets E s Q ↔
      x.Meets E s (fun a s' => (f (.ok a)).Meets E s' Q) fun e s' => (f (.error e)).Meets E s' Q := by
  refine Program.meets_bind.trans ⟨fun h => Program.Meets.mono h ?_, fun h => Program.Meets.mono h ?_⟩
  · rintro (e | a) s' h
    · exact h
    · exact h
  · rintro (e | a) s' h
    · exact h
    · exact h

@[simp]
theorem meets_pure {a : α} : (Pure.pure a : Action Request Answer ε α).Meets E s Q R ↔ Q a s := Iff.rfl

@[simp]
theorem meets_raise {e : ε} : (raise e : Action Request Answer ε α).Meets E s Q R ↔ R e s := Iff.rfl

@[simp]
theorem meets_bind {x : Action Request Answer ε β} {f : β → Action Request Answer ε α} :
    (x >>= f).Meets E s Q R ↔ x.Meets E s (fun a s' => (f a).Meets E s' Q R) R := meets_bind_program

@[simp]
theorem meets_request {r : Request} {Q : Answer r → S → Prop} :
    (request r : Action Request Answer ε (Answer r)).Meets E s Q R ↔
      E.allowed s r ∧ (∀ a s', E.answers s r (.ok a) s' → Q a s') ∧
        ∀ e s', E.answers s r (.error e) s' → R e s' := by
  refine and_congr_right fun _ => ⟨fun h => ⟨fun a => h (.ok a), fun e => h (.error e)⟩, fun h => ?_⟩
  rintro (e | a) s' hx
  · exact h.2 e s' hx
  · exact h.1 a s' hx

@[simp]
theorem meets_lift {x : Except ε α} : (lift x : Action Request Answer ε α).Meets E s Q R ↔
    (∀ a, x = .ok a → Q a s) ∧ ∀ e, x = .error e → R e s := by
  cases x with
  | ok a => exact ⟨fun h => ⟨fun b hb => Except.ok.inj hb ▸ h, nofun⟩, fun h => h.1 a rfl⟩
  | error e => exact ⟨fun h => ⟨nofun, fun b hb => Except.error.inj hb ▸ h⟩, fun h => h.2 e rfl⟩

@[simp]
theorem meets_onError {x : Action Request Answer ε α} {handler : ε → Action Request Answer ε α} :
    (x.onError handler).Meets E s Q R ↔
      x.Meets E s Q fun e s' => (handler e).Meets E s' Q R := meets_bind_program

@[simp]
theorem meets_attempt {x : Action Request Answer ε α} {Q : Except ε α → S → Prop} :
    x.attempt.Meets E s Q R ↔ x.Meets E s (fun a => Q (.ok a)) fun e => Q (.error e) := meets_bind_program

theorem meets_ite {c : Prop} [Decidable c] {x y : Action Request Answer ε α} :
    (if c then x else y).Meets E s Q R ↔ (c → x.Meets E s Q R) ∧ (¬ c → y.Meets E s Q R) := by
  split
  · next h => exact ⟨fun hx => ⟨fun _ => hx, fun hc => absurd h hc⟩, fun hx => hx.1 h⟩
  · next h => exact ⟨fun hy => ⟨fun hc => absurd hc h, fun _ => hy⟩, fun hy => hy.2 h⟩

end Action

/-! ## Runs -/

/-- An environment that answers every request by itself, given an outcome. -/
def Environment.ofHandler (handle : S → (r : Request) → O → Except ε (Answer r) × S) :
    Environment Request Answer ε S where
  allowed _ _ := True
  answers s r x s' := ∃ outcome, handle s r outcome = (x, s')

namespace Program

/-- Run a program against given outcomes. -/
def run (handle : S → (r : Request) → O → Except ε (Answer r) × S) :
    Program Request Answer ε ρ → S → (ℕ → O) → ρ × S
  | done result, s, _ => (result, s)
  | call r next, s, outcomes =>
      (next (handle s r (outcomes 0)).1).run handle (handle s r (outcomes 0)).2 fun n => outcomes (n + 1)

/-- What holds of a program holds of its runs. -/
theorem Meets.run {handle : S → (r : Request) → O → Except ε (Answer r) × S}
    {p : Program Request Answer ε ρ} {s : S} {Q : ρ → S → Prop}
    (h : p.Meets (.ofHandler handle) s Q) (outcomes : ℕ → O) :
    Q (p.run handle s outcomes).1 (p.run handle s outcomes).2 := by
  induction p generalizing s outcomes with
  | done result => exact h
  | call r next ih => exact ih _ (h.2 _ _ ⟨outcomes 0, rfl⟩) _

end Program

end Requests
