import Mathlib

/-!
# Computations with a state and exceptions

`Imp σ ε α` is a computation over a mutable state `σ` that returns an `α` or raises an `ε`; what it
has written before raising stays written, as in an imperative language. A run ends in `.ok a s` or
`.error e s`. Each way of building a computation has one lemma for each ending, so that a run of a
composed computation is taken apart into the runs of its parts without unfolding the monad.
-/

/-- A computation over the state `σ` that returns an `α` or raises an `ε`. -/
abbrev Imp (σ ε α : Type) := EStateM ε σ α

namespace Imp

variable {σ ε α β : Type} {s s' : σ} {e : ε} {a b : α}

/-- Raise `e` unless the condition holds. -/
def require (c : Prop) [Decidable c] (e : ε) : Except ε Unit :=
  if c then .ok () else .error e

/-- Check every element in turn; the first failing check raises. -/
def forEach (l : List α) (check : α → Except ε Unit) : Except ε Unit :=
  match l with
  | [] => .ok ()
  | a :: rest => check a >>= fun _ => forEach rest check

/-- Run a computation that does not touch the state. -/
def lift (x : Except ε α) : Imp σ ε α := fun s =>
  match x with
  | .ok a => .ok a s
  | .error e => .error e s

/-- `try body except e: handler e`. The handler starts in the state the body left. -/
def onError (body : Imp σ ε α) (handler : ε → Imp σ ε α) : Imp σ ε α := fun s =>
  match body s with
  | .ok a s' => .ok a s'
  | .error e s' => handler e s'

/-! ## Exceptions without a state -/

theorem except_bind_eq_ok {x : Except ε α} {f : α → Except ε β} {b : β} :
    x >>= f = .ok b ↔ ∃ a, x = .ok a ∧ f a = .ok b := by
  cases x <;> simp [bind, Except.bind]

theorem except_bind_eq_error {x : Except ε α} {f : α → Except ε β} :
    x >>= f = .error e ↔ x = .error e ∨ ∃ a, x = .ok a ∧ f a = .error e := by
  cases x <;> simp [bind, Except.bind]

theorem toOption_eq_some {x : Except ε α} {a : α} : x.toOption = some a ↔ x = .ok a := by
  cases x with
  | ok b => exact ⟨fun h => congrArg _ (Option.some.inj h), fun h => congrArg _ (Except.ok.inj h)⟩
  | error e => exact iff_of_false nofun nofun

@[simp]
theorem require_eq_ok {c : Prop} [Decidable c] {u : Unit} : require c e = .ok u ↔ c := by
  unfold require
  split <;> simp [*]

@[simp]
theorem require_eq_error {c : Prop} [Decidable c] {e' : ε} :
    require c e = .error e' ↔ ¬ c ∧ e' = e := by
  unfold require
  split <;> simp [*, eq_comm]

/-- A check that succeeds lets the rest of the function run. -/
theorem check_bind_eq_ok {x : Except ε Unit} {f : Unit → Except ε α} {a : α} :
    (x >>= f) = .ok a ↔ x = .ok () ∧ f () = .ok a := by
  rw [except_bind_eq_ok]
  constructor
  · rintro ⟨_, hx, h⟩
    exact ⟨hx, h⟩
  · rintro ⟨hx, h⟩
    exact ⟨(), hx, h⟩

theorem forEach_eq_ok {l : List α} {check : α → Except ε Unit} :
    forEach l check = .ok () ↔ ∀ a ∈ l, check a = .ok () := by
  induction l with
  | nil => simp [forEach]
  | cons a rest ih =>
      rw [forEach, check_bind_eq_ok, List.forall_mem_cons, ih]

/-- A loop of checks raises what one of its checks raises. -/
theorem forEach_eq_error {l : List α} {check : α → Except ε Unit}
    (h : forEach l check = .error e) : ∃ a ∈ l, check a = .error e := by
  induction l with
  | nil => simp [forEach] at h
  | cons a rest ih =>
      rw [forEach, except_bind_eq_error] at h
      rcases h with h | ⟨_, _, h⟩
      · exact ⟨a, List.mem_cons_self, h⟩
      · obtain ⟨b, hb, hcheck⟩ := ih h
        exact ⟨b, List.mem_cons_of_mem a hb, hcheck⟩

/-- What every step of a loop preserves, as a fact about the elements it has seen, holds after the
loop. -/
theorem foldlM_invariant {f : σ → α → Except ε σ} {I : List α → σ → Prop} {l d : List α}
    (hstep : ∀ done s a s', I done s → f s a = .ok s' → I (done ++ [a]) s') (hstart : I d s)
    (h : l.foldlM f s = .ok s') : I (d ++ l) s' := by
  induction l generalizing d s with
  | nil =>
      cases h
      rw [List.append_nil]
      exact hstart
  | cons a l ih =>
      rw [List.foldlM_cons] at h
      obtain ⟨s₁, ha, hrest⟩ := except_bind_eq_ok.mp h
      rw [← List.singleton_append, ← List.append_assoc]
      exact ih (hstep d s a s₁ hstart ha) hrest

theorem foldlM_append_eq_ok {f : σ → α → Except ε σ} {l l' : List α} :
    (l ++ l').foldlM f s = .ok s' ↔ ∃ s₁, l.foldlM f s = .ok s₁ ∧ l'.foldlM f s₁ = .ok s' := by
  rw [List.foldlM_append, except_bind_eq_ok]

/-- A loop whose steps all succeed succeeds. -/
theorem foldlM_succeeds {f : σ → α → Except ε σ} {I : List α → σ → Prop} {l d : List α}
    (hstep : ∀ before s a after, before ++ a :: after = d ++ l → I before s →
      ∃ s', f s a = .ok s' ∧ I (before ++ [a]) s')
    (hstart : I d s) : ∃ s', l.foldlM f s = .ok s' ∧ I (d ++ l) s' := by
  induction l generalizing d s with
  | nil => exact ⟨s, rfl, by rwa [List.append_nil]⟩
  | cons a l ih =>
      obtain ⟨s₁, ha, hnext⟩ := hstep d s a l rfl hstart
      rw [← List.singleton_append, ← List.append_assoc] at hstep ⊢
      obtain ⟨s', hrest, hend⟩ := ih hstep hnext
      refine ⟨s', ?_, hend⟩
      rw [List.singleton_append, List.foldlM_cons, ha]
      exact hrest

/-- A loop that collects one result for each element, in their order. -/
theorem forall₂_of_mapM {f : α → Except ε β} {l : List α} {l' : List β} (h : l.mapM f = .ok l') :
    List.Forall₂ (fun a b => f a = .ok b) l l' := by
  induction l generalizing l' with
  | nil =>
      cases h
      exact .nil
  | cons a l ih =>
      rw [List.mapM_cons] at h
      obtain ⟨b, hb, h⟩ := except_bind_eq_ok.mp h
      obtain ⟨bs, hrest, hret⟩ := except_bind_eq_ok.mp h
      cases hret
      exact .cons hb (ih hrest)

theorem length_mapM {f : α → Except ε β} {l : List α} {l' : List β} (h : l.mapM f = .ok l') :
    l'.length = l.length := (forall₂_of_mapM h).length_eq.symm

theorem exists_of_mem_mapM {f : α → Except ε β} {l : List α} {l' : List β} {b : β} (h : l.mapM f = .ok l')
    (hb : b ∈ l') : ∃ a ∈ l, f a = .ok b := by
  have hforall := forall₂_of_mapM h
  clear h
  induction hforall with
  | nil => cases hb
  | cons ha _ ih =>
      rcases List.mem_cons.mp hb with rfl | hb
      · exact ⟨_, List.mem_cons_self, ha⟩
      · obtain ⟨a, hmem, ha⟩ := ih hb
        exact ⟨a, List.mem_cons_of_mem _ hmem, ha⟩

/-! ## Taking a run apart -/

theorem bind_eq_ok {x : Imp σ ε α} {f : α → Imp σ ε β} {b : β} :
    (x >>= f) s = .ok b s' ↔ ∃ a s₁, x s = .ok a s₁ ∧ f a s₁ = .ok b s' := by
  simp only [bind, EStateM.bind]
  cases hx : x s with
  | ok a s₁ =>
      constructor
      · exact fun h => ⟨a, s₁, rfl, h⟩
      · rintro ⟨a', s₁', heq, h⟩
        cases heq
        exact h
  | error e s₁ => simp

theorem bind_eq_error {x : Imp σ ε α} {f : α → Imp σ ε β} :
    (x >>= f) s = .error e s' ↔
      x s = .error e s' ∨ ∃ a s₁, x s = .ok a s₁ ∧ f a s₁ = .error e s' := by
  simp only [bind, EStateM.bind]
  cases hx : x s with
  | ok a s₁ =>
      constructor
      · exact fun h => Or.inr ⟨a, s₁, rfl, h⟩
      · rintro (h | ⟨a', s₁', heq, h⟩)
        · cases h
        · cases heq
          exact h
  | error e s₁ => simp

@[simp]
theorem pure_eq_ok : (pure a : Imp σ ε α) s = .ok b s' ↔ b = a ∧ s' = s := by
  simp [pure, EStateM.pure, eq_comm]

@[simp]
theorem pure_ne_error : (pure a : Imp σ ε α) s ≠ .error e s' := by
  simp [pure, EStateM.pure]

@[simp]
theorem throw_ne_ok : (throw e : Imp σ ε α) s ≠ .ok a s' := by
  simp [throw, throwThe, MonadExceptOf.throw, EStateM.throw]

@[simp]
theorem throw_eq_error {e' : ε} :
    (throw e : Imp σ ε α) s = .error e' s' ↔ e' = e ∧ s' = s := by
  simp [throw, throwThe, MonadExceptOf.throw, EStateM.throw, eq_comm]

@[simp]
theorem get_eq_ok {s₁ : σ} : (get : Imp σ ε σ) s = .ok s₁ s' ↔ s₁ = s ∧ s' = s := by
  simp [get, getThe, MonadStateOf.get, EStateM.get, eq_comm]

@[simp]
theorem get_ne_error : (get : Imp σ ε σ) s ≠ .error e s' := by
  simp [get, getThe, MonadStateOf.get, EStateM.get]

@[simp]
theorem modify_eq_ok {f : σ → σ} {u : PUnit} :
    (modify f : Imp σ ε PUnit) s = .ok u s' ↔ s' = f s := by
  simp [modify, modifyGet, MonadStateOf.modifyGet, EStateM.modifyGet, eq_comm]

@[simp]
theorem modify_ne_error {f : σ → σ} : (modify f : Imp σ ε PUnit) s ≠ .error e s' := by
  simp [modify, modifyGet, MonadStateOf.modifyGet, EStateM.modifyGet]

@[simp]
theorem lift_eq_ok {x : Except ε α} : (lift x : Imp σ ε α) s = .ok a s' ↔ x = .ok a ∧ s' = s := by
  cases x <;> simp [lift, eq_comm]

@[simp]
theorem lift_eq_error {x : Except ε α} :
    (lift x : Imp σ ε α) s = .error e s' ↔ x = .error e ∧ s' = s := by
  cases x <;> simp [lift, eq_comm]

/-! ## Steps of a straight-line function -/

@[simp]
theorem get_bind {f : σ → Imp σ ε β} : (get >>= f) s = f s s := rfl

@[simp]
theorem modify_bind {f : σ → σ} {g : PUnit → Imp σ ε β} : (modify f >>= g) s = g ⟨⟩ (f s) := rfl

theorem lift_bind_eq_ok {x : Except ε α} {f : α → Imp σ ε β} {b : β} :
    (lift x >>= f) s = .ok b s' ↔ ∃ a, x = .ok a ∧ f a s = .ok b s' := by
  cases x <;> simp [lift, bind, EStateM.bind]

theorem lift_bind_eq_error {x : Except ε α} {f : α → Imp σ ε β} :
    (lift x >>= f) s = .error e s' ↔
      x = .error e ∧ s' = s ∨ ∃ a, x = .ok a ∧ f a s = .error e s' := by
  cases x <;> simp [lift, bind, EStateM.bind, eq_comm]

/-- A check that succeeds lets the rest of the function run in the same state. -/
theorem lift_check_bind_eq_ok {x : Except ε Unit} {f : Unit → Imp σ ε β} {b : β} :
    (lift x >>= f) s = .ok b s' ↔ x = .ok () ∧ f () s = .ok b s' := by
  rw [lift_bind_eq_ok]
  constructor
  · rintro ⟨_, hx, h⟩
    exact ⟨hx, h⟩
  · rintro ⟨hx, h⟩
    exact ⟨(), hx, h⟩

/-- From `s`, the computation writes nothing unless it returns. -/
def Atomic (x : Imp σ ε α) (s : σ) : Prop := ∀ e s', x s = .error e s' → s' = s

theorem atomic_get_bind {f : σ → Imp σ ε β} (h : Atomic (f s) s) : Atomic (get >>= f) s :=
  fun e s' herr => h e s' herr

theorem atomic_lift {x : Except ε α} : Atomic (lift x : Imp σ ε α) s :=
  fun _ _ herr => (lift_eq_error.mp herr).2

/-- Checks before the first write keep a function atomic. -/
theorem atomic_lift_bind {x : Except ε α} {f : α → Imp σ ε β}
    (h : ∀ a, x = .ok a → Atomic (f a) s) : Atomic (lift x >>= f) s := by
  intro e s' herr
  rcases lift_bind_eq_error.mp herr with ⟨_, hs⟩ | ⟨a, ha, herr⟩
  · exact hs
  · exact h a ha e s' herr

/-- A tail that cannot raise keeps a function atomic. -/
theorem atomic_bind_of_ok {x : Imp σ ε α} {f : α → Imp σ ε β} (h : Atomic x s)
    (hf : ∀ a s₁ {e s'}, f a s₁ ≠ .error e s') : Atomic (x >>= f) s := by
  intro e s' herr
  rcases bind_eq_error.mp herr with hx | ⟨a, s₁, -, htail⟩
  · exact h e s' hx
  · exact absurd htail (hf a s₁)

theorem atomic_modify {f : σ → σ} : Atomic (modify f : Imp σ ε PUnit) s :=
  fun _ _ herr => absurd herr modify_ne_error

/-- A computation that returns is atomic. -/
theorem atomic_of_eq_ok {x : Imp σ ε α} (h : x s = .ok a s') : Atomic x s := by
  intro e s₁ herr
  rw [h] at herr
  cases herr

/-! ## Handlers -/

theorem onError_eq_ok {body : Imp σ ε α} {handler : ε → Imp σ ε α} :
    onError body handler s = .ok a s' ↔
      body s = .ok a s' ∨ ∃ e s₁, body s = .error e s₁ ∧ handler e s₁ = .ok a s' := by
  unfold onError
  cases hbody : body s with
  | ok a' s₁ => simp
  | error e s₁ =>
      constructor
      · exact fun h => Or.inr ⟨e, s₁, rfl, h⟩
      · rintro (h | ⟨e', s₁', heq, h⟩)
        · cases h
        · cases heq
          exact h

theorem onError_eq_error {body : Imp σ ε α} {handler : ε → Imp σ ε α} :
    onError body handler s = .error e s' ↔
      ∃ e₁ s₁, body s = .error e₁ s₁ ∧ handler e₁ s₁ = .error e s' := by
  unfold onError
  cases hbody : body s with
  | ok a' s₁ => simp
  | error e' s₁ =>
      constructor
      · exact fun h => ⟨e', s₁, rfl, h⟩
      · rintro ⟨e₁, s₁', heq, h⟩
        cases heq
        exact h

/-! ## Which exceptions can be raised -/

/-- Every exception that the check can raise satisfies `P`. -/
def RaisesOnly (P : ε → Prop) (x : Except ε α) : Prop := ∀ e, x = .error e → P e

/-- Every exception that the computation can raise from `s` satisfies `P`. -/
def RaisesOnlyFrom (P : ε → Prop) (x : Imp σ ε α) (s : σ) : Prop := ∀ e s', x s = .error e s' → P e

variable {P : ε → Prop}

theorem raisesOnly_ok : RaisesOnly P (.ok a : Except ε α) := nofun

theorem raisesOnly_error (h : P e) : RaisesOnly P (.error e : Except ε α) := by
  intro e' he
  cases he
  exact h

theorem raisesOnly_require {c : Prop} [Decidable c] (h : P e) : RaisesOnly P (require c e) := by
  intro e' he
  rw [(require_eq_error.mp he).2]
  exact h

theorem raisesOnly_bind {x : Except ε α} {f : α → Except ε β} (hx : RaisesOnly P x)
    (hf : ∀ a, x = .ok a → RaisesOnly P (f a)) : RaisesOnly P (x >>= f) := by
  intro e he
  rcases except_bind_eq_error.mp he with he | ⟨a, ha, he⟩
  · exact hx e he
  · exact hf a ha e he

theorem raisesOnly_forEach {l : List α} {check : α → Except ε Unit}
    (h : ∀ a, RaisesOnly P (check a)) : RaisesOnly P (forEach l check) := by
  intro e he
  obtain ⟨a, -, ha⟩ := forEach_eq_error he
  exact h a e ha

theorem raisesOnly_bind_of_ok {x : Except ε α} {f : α → Except ε β} (hx : x = .ok a)
    (hf : RaisesOnly P (f a)) : RaisesOnly P (x >>= f) := by
  rw [hx]
  exact hf

/-- A loop whose steps keep an invariant raises what its steps raise where the invariant holds. -/
theorem raisesOnly_foldlM_of_invariant {f : σ → α → Except ε σ} {I : σ → Prop} {l : List α} (hstart : I s)
    (hstep : ∀ a ∈ l, ∀ s s', I s → f s a = .ok s' → I s') (h : ∀ a ∈ l, ∀ s, I s → RaisesOnly P (f s a)) :
    RaisesOnly P (l.foldlM f s) := by
  induction l generalizing s with
  | nil => exact raisesOnly_ok
  | cons a l ih =>
      obtain ⟨ha, hl⟩ := List.forall_mem_cons.mp h
      obtain ⟨hsa, hsl⟩ := List.forall_mem_cons.mp hstep
      rw [List.foldlM_cons]
      exact raisesOnly_bind (ha s hstart) fun s' hs' => ih (hsa s s' hstart hs') hsl hl

theorem raisesOnly_foldlM {f : σ → α → Except ε σ} {l : List α} (h : ∀ s a, RaisesOnly P (f s a)) :
    RaisesOnly P (l.foldlM f s) :=
  raisesOnly_foldlM_of_invariant (I := fun _ => True) trivial (fun _ _ _ _ _ _ => trivial) fun a _ s _ => h s a

theorem raisesOnly_mapM {f : α → Except ε β} {l : List α} (h : ∀ a ∈ l, RaisesOnly P (f a)) :
    RaisesOnly P (l.mapM f) := by
  induction l with
  | nil => exact raisesOnly_ok
  | cons a l ih =>
      obtain ⟨ha, hl⟩ := List.forall_mem_cons.mp h
      rw [List.mapM_cons]
      exact raisesOnly_bind ha fun _ _ => raisesOnly_bind (ih hl) fun _ _ => raisesOnly_ok

theorem raisesOnlyFrom_lift {x : Except ε α} (h : RaisesOnly P x) :
    RaisesOnlyFrom P (lift x : Imp σ ε α) s :=
  fun e _ he => h e (lift_eq_error.mp he).1

theorem raisesOnlyFrom_lift_bind {x : Except ε α} {f : α → Imp σ ε β} (hx : RaisesOnly P x)
    (hf : ∀ a, x = .ok a → RaisesOnlyFrom P (f a) s) : RaisesOnlyFrom P (lift x >>= f) s := by
  intro e s' he
  rcases lift_bind_eq_error.mp he with ⟨he, -⟩ | ⟨a, ha, he⟩
  · exact hx e he
  · exact hf a ha e s' he

theorem raisesOnlyFrom_bind {x : Imp σ ε α} {f : α → Imp σ ε β} (hx : RaisesOnlyFrom P x s)
    (hf : ∀ a s', x s = .ok a s' → RaisesOnlyFrom P (f a) s') : RaisesOnlyFrom P (x >>= f) s := by
  intro e s' he
  rcases bind_eq_error.mp he with he | ⟨a, s₁, ha, he⟩
  · exact hx e s' he
  · exact hf a s₁ ha e s' he

/-- A computation that returns raises nothing. -/
theorem raisesOnlyFrom_of_eq_ok {x : Imp σ ε α} (h : x s = .ok a s') : RaisesOnlyFrom P x s := by
  intro e s₁ he
  rw [h] at he
  cases he

theorem raisesOnlyFrom_throw (h : P e) : RaisesOnlyFrom P (throw e : Imp σ ε α) s := by
  intro e' s' he
  rw [(throw_eq_error.mp he).1]
  exact h

/-! ## How a computation ends -/

/-- What the computation returns satisfies `Q`, and what it raises satisfies `P`. -/
structure Ends (Q : α → Prop) (P : ε → Prop) (x : Except ε α) : Prop where
  returns : ∀ a, x = .ok a → Q a
  raises : RaisesOnly P x

variable {Q : α → Prop} {R : β → Prop} {x : Except ε α}

theorem ends_ok (h : Q a) : Ends Q P (.ok a : Except ε α) :=
  ⟨fun _ heq => Except.ok.inj heq ▸ h, raisesOnly_ok⟩

theorem ends_error (h : P e) : Ends Q P (.error e : Except ε α) := ⟨nofun, raisesOnly_error h⟩

theorem ends_of_eq_ok (hx : x = .ok a) (h : Q a) : Ends Q P x := hx ▸ ends_ok h

theorem ends_bind_of_ok {f : α → Except ε β} (hx : x = .ok a) (hf : Ends R P (f a)) :
    Ends R P (x >>= f) := by
  rw [hx]
  exact hf

theorem Ends.bind {f : α → Except ε β} (hx : Ends Q P x) (hf : ∀ a, Q a → Ends R P (f a)) :
    Ends R P (x >>= f) := by
  cases x with
  | ok a => exact hf a (hx.returns a rfl)
  | error e => exact ends_error (hx.raises e rfl)

theorem Ends.mono {Q' : α → Prop} {P' : ε → Prop} (h : Ends Q P x) (hQ : ∀ a, Q a → Q' a)
    (hP : ∀ e, P e → P' e) : Ends Q' P' x :=
  ⟨fun a ha => hQ a (h.returns a ha), fun e he => hP e (h.raises e he)⟩

end Imp
