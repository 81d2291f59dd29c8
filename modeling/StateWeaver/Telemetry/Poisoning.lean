import StateWeaver.Telemetry.Controller

/-!
# What poisons the controller

The handlers of `observe` poison the controller also for a call that still waits for the lock. If no
deadline and no cancellation reaches such a call of a healthy controller, the controller is poisoned only
if some call has started an execution without recording its result (`poisoning_spec`).
-/

namespace StateWeaver.Telemetry

namespace Stage

variable {Request : Type}

def IsWaiting : Stage Request → Prop
  | .waiting _ => True
  | _ => False

/-- Whether the call has started an execution. -/
def Started : Stage Request → Prop
  | .absent | .waiting _ => False
  | .executing _ | .claiming _ => True
  | .ended _ executed _ => executed = true

/-- Whether the call has started an execution and has not recorded its result. -/
def Unrecorded : Stage Request → Prop
  | .absent | .waiting _ => False
  | .executing _ | .claiming _ => True
  | .ended _ executed recorded => executed = true ∧ recorded = false

/-- Whether the call awaits the environment. -/
def Active : Stage Request → Prop
  | .executing _ | .claiming _ => True
  | _ => False

/-- Whether the call has lost its execution for good. -/
def Lost : Stage Request → Prop
  | .ended _ executed recorded => executed = true ∧ recorded = false
  | _ => False

theorem Lost.unrecorded {stage : Stage Request} (h : stage.Lost) : stage.Unrecorded := by
  cases stage with
  | ended request executed recorded => exact h
  | _ => exact h.elim

end Stage

/-- The call that a step is about. -/
def Event.call {Call Request Result : Type} : Event Call Request Result → Call
  | .observe call _ | .acquired call _ | .executed call _ | .finalized call _ | .interrupted call _ => call

namespace Controller

variable {Call Request Result : Type} {P : RequestFields Request}
  {s s' : Controller Call Request Result} {i : Event Call Request Result} {o : Reply Result}

/-- A step of a call that has not started an execution and does not start one changes nothing else. -/
def Harmless (s : Controller Call Request Result) (i : Event Call Request Result)
    (s' : Controller Call Request Result) : Prop :=
  ¬ (s.calls i.call).Started → ¬ (s'.calls i.call).Started →
    s'.poisoned = s.poisoned ∧ s'.idempotencyLedger = s.idempotencyLedger ∧ s'.holder = s.holder ∧
      ∀ call ≠ i.call, s'.calls call = s.calls call

/-- A deadline or a cancellation reaches a call that waits for the lock only if the controller is
poisoned. -/
def Careful (s : Controller Call Request Result) (i : Event Call Request Result) : Prop :=
  ∀ call interruption, i = .interrupted call interruption → (s.calls call).IsWaiting → s.poisoned = true

/-- What holds of the controller between steps. -/
structure Healthy (s : Controller Call Request Result) : Prop where
  /-- A call that holds the lock awaits the environment. -/
  held {call} : s.holder = some call → (s.calls call).Active
  lost : s.poisoned = true → ∃ call, (s.calls call).Lost

theorem Healthy.not_holder (hs : Healthy s) {call : Call} (h : ¬ (s.calls call).Active) :
    s.holder ≠ some call := fun hholder => h (hs.held hholder)

/-! ## Steps -/

variable [DecidableEq Call]

@[simp]
theorem move_calls_self (call : Call) (stage : Stage Request) : (s.move call stage).calls call = stage :=
  Function.update_self ..

theorem move_calls_of_ne {call other : Call} (h : other ≠ call) (stage : Stage Request) :
    (s.move call stage).calls other = s.calls other := Function.update_of_ne h ..

/-- What a step of a call does. -/
inductive Effect (P : RequestFields Request) (s : Controller Call Request Result) :
    Event Call Request Result → Controller Call Request Result → Prop where
  /-- The call arrives or is rejected at once. -/
  | arrived {call request stage} (hfrom : s.calls call = .absent)
      (hto : stage = .waiting request ∨ stage = .ended request false false) :
      Effect P s (.observe call request) (s.move call stage)
  /-- The call ends as soon as it has the lock. -/
  | ended {call binding request} (hfrom : s.calls call = .waiting request) :
      Effect P s (.acquired call binding) (s.move call (.ended request false false))
  | started {call binding request} (hfrom : s.calls call = .waiting request)
      (hpoisoned : s.poisoned = false) (hfree : s.holder = none)
      (hnew : s.idempotencyLedger.get? (P.idempotencyKey request) = none) :
      Effect P s (.acquired call binding)
        { s.move call (.executing request) with holder := some call }
  | claiming {call execution request} (hfrom : s.calls call = .executing request) :
      Effect P s (.executed call execution) (s.move call (.claiming request))
  | lost {i request} (hfrom : s.calls i.call = .executing request ∨ s.calls i.call = .claiming request)
      (hevent : ∀ call binding, i ≠ .acquired call binding) {holder : Option Call}
      (hholder : ∀ call, holder = some call → s.holder = some call ∧ call ≠ i.call) :
      Effect P s i { s.move i.call (.ended request true false) with poisoned := true, holder := holder }
  | recorded {call result request} (hfrom : s.calls call = .claiming request) :
      Effect P s (.finalized call (some result)) { s.move call (.ended request true true) with
        idempotencyLedger := s.idempotencyLedger.insert (P.idempotencyKey request)
          (P.digest request, result)
        holder := none }
  | interrupted {call interruption request} (hfrom : s.calls call = .waiting request) :
      Effect P s (.interrupted call interruption)
        { (s.move call (.ended request false false)).release call with poisoned := true }

theorem effect_of_enter {call : Call} {request : Request} {binding : Binding}
    (hfrom : s.calls call = .waiting request) (hfree : s.holder = none) :
    Effect P s (.acquired call binding) (s.enter P call request binding).2 := by
  unfold enter
  dsimp only
  split
  · exact .ended hfrom
  · next hpoisoned =>
      split
      · split
        · exact .ended hfrom
        · exact .ended hfrom
      · next hnew =>
          split
          · exact .ended hfrom
          · cases binding with
            | matching => exact .started hfrom ((Bool.not_eq_true _).mp hpoisoned) hfree hnew
            | mismatched => exact .ended hfrom
            | invalid => exact .ended hfrom

theorem effect_of_interrupt {call : Call} {request : Request} (interruption : Interruption)
    (hfrom : s.calls call = .executing request ∨ s.calls call = .claiming request) :
    Effect P s (.interrupted call interruption) (s.interrupt call request true interruption).2 := by
  have hholder : ∀ other, (if s.holder = some call then none else s.holder) = some other →
      s.holder = some other ∧ other ≠ call := by
    intro other h
    split at h
    · cases h
    · next hne =>
        refine ⟨h, ?_⟩
        rintro rfl
        exact hne h
  have hlost := Effect.lost (P := P) (i := .interrupted call interruption) hfrom nofun hholder
  cases interruption with
  | deadline => exact hlost
  | cancellation => exact hlost

/-- Every step has one of these effects. -/
theorem effect_of_step (h : s.step P i = some (o, s')) : Effect P s i s' := by
  cases i with
  | observe call request =>
      rw [step] at h
      split at h
      · next hfrom =>
          split at h
          · cases h
            exact .arrived hfrom (Or.inl rfl)
          · cases h
            exact .arrived hfrom (Or.inr rfl)
      · cases h
  | acquired call binding =>
      rw [step] at h
      split at h
      · next hfrom hfree =>
          obtain rfl := congrArg Prod.snd (Option.some.inj h)
          exact effect_of_enter hfrom hfree
      · cases h
  | executed call execution =>
      rw [step] at h
      split at h
      · next hfrom =>
          obtain rfl := congrArg Prod.snd (Option.some.inj h)
          have hlost := Effect.lost (P := P) (i := .executed call execution) (Or.inl hfrom) nofun
            (fun other (h : none = some other) => nomatch h)
          cases execution with
          | matching => exact .claiming hfrom
          | mismatched => exact hlost
          | deadline => exact hlost
          | failed => exact hlost
      · cases h
  | finalized call result =>
      rw [step] at h
      split at h
      · next hfrom =>
          obtain rfl := congrArg Prod.snd (Option.some.inj h)
          cases result with
          | none => exact .lost (Or.inr hfrom) nofun nofun
          | some result => exact .recorded hfrom
      · cases h
  | interrupted call interruption =>
      rw [step] at h
      split at h
      · next hfrom =>
          obtain rfl := congrArg Prod.snd (Option.some.inj h)
          cases interruption with
          | deadline => exact .interrupted hfrom
          | cancellation => exact .interrupted hfrom
      · next hfrom =>
          obtain rfl := congrArg Prod.snd (Option.some.inj h)
          exact effect_of_interrupt interruption (Or.inl hfrom)
      · next hfrom =>
          obtain rfl := congrArg Prod.snd (Option.some.inj h)
          exact effect_of_interrupt interruption (Or.inr hfrom)
      · cases h

namespace Effect

/-- Only the call of a step moves. -/
theorem calls_of_ne (h : Effect P s i s') {call : Call} (hne : call ≠ i.call) :
    s'.calls call = s.calls call := by
  cases h with
  | arrived hfrom hto => exact move_calls_of_ne hne _
  | ended hfrom => exact move_calls_of_ne hne _
  | started hfrom hpoisoned hfree hnew => exact move_calls_of_ne hne _
  | claiming hfrom => exact move_calls_of_ne hne _
  | lost hfrom hevent hholder => exact move_calls_of_ne hne _
  | recorded hfrom => exact move_calls_of_ne hne _
  | interrupted hfrom => exact move_calls_of_ne hne _

/-- A call that has ended does not move. -/
theorem not_lost (h : Effect P s i s') : ¬ (s.calls i.call).Lost := by
  cases h with
  | arrived hfrom hto => exact fun hlost => (hfrom ▸ hlost : Stage.Lost (.absent : Stage Request)).elim
  | ended hfrom => rw [Event.call, hfrom]; exact id
  | started hfrom hpoisoned hfree hnew => rw [Event.call, hfrom]; exact id
  | claiming hfrom => rw [Event.call, hfrom]; exact id
  | lost hfrom hevent hholder =>
      rcases hfrom with hfrom | hfrom
      · rw [hfrom]; exact id
      · rw [hfrom]; exact id
  | recorded hfrom => rw [Event.call, hfrom]; exact id
  | interrupted hfrom => rw [Event.call, hfrom]; exact id

theorem lost_kept (h : Effect P s i s') {call : Call} (hlost : (s.calls call).Lost) :
    (s'.calls call).Lost := by
  rw [h.calls_of_ne fun heq => h.not_lost (heq ▸ hlost)]
  exact hlost

end Effect

/-! ## Runs -/

/-- A call that goes on holding the lock while another one moves. -/
theorem Healthy.held_of_ne (hs : Healthy s) (h : Effect P s i s') {call : Call}
    (hholder : s.holder = some call) (hne : call ≠ i.call) : (s'.calls call).Active := by
  rw [h.calls_of_ne hne]
  exact hs.held hholder

/-- A call that waits for the lock has none to give up. -/
theorem Healthy.release (hs : Healthy s) {call : Call} (h : ¬ (s.calls call).Active) (stage : Stage Request) :
    ((s.move call stage).release call).holder = s.holder := if_neg (hs.not_holder h)

theorem Healthy.step (hs : Healthy s) (hcareful : Careful s i) (h : Effect P s i s') : Healthy s' := by
  have hlost : s.poisoned = true → ∃ call, (s'.calls call).Lost := fun hpoisoned =>
    (hs.lost hpoisoned).imp fun _ => h.lost_kept
  -- A call that does not hold the lock leaves it to the one that does.
  have hheld : ¬ (s.calls i.call).Active → ∀ {call}, s.holder = some call → (s'.calls call).Active := by
    intro hidle call hholder
    refine hs.held_of_ne h hholder ?_
    rintro rfl
    exact hs.not_holder hidle hholder
  cases h with
  | arrived hfrom hto =>
      exact ⟨hheld (by rw [Event.call, hfrom]; exact id), hlost⟩
  | ended hfrom => exact ⟨hheld (by rw [Event.call, hfrom]; exact id), hlost⟩
  | @started call binding request hfrom hpoisoned hfree hnew =>
      refine ⟨fun hholder => ?_, hlost⟩
      rw [← Option.some.inj hholder, move_calls_self]
      exact trivial
  | @claiming call execution request hfrom =>
      refine ⟨fun {other} hholder => ?_, hlost⟩
      by_cases heq : other = call
      · rw [heq, move_calls_self]
        exact trivial
      · rw [move_calls_of_ne heq]
        exact hs.held hholder
  | lost hfrom hevent hholder =>
      refine ⟨fun {other} hholder' => ?_, fun _ => ⟨i.call, ?_⟩⟩
      · obtain ⟨hheld, hne⟩ := hholder other hholder'
        change ((s.move i.call _).calls other).Active
        rw [move_calls_of_ne hne]
        exact hs.held hheld
      · change ((s.move i.call _).calls i.call).Lost
        rw [move_calls_self]
        exact ⟨rfl, rfl⟩
  | recorded hfrom => exact ⟨nofun, hlost⟩
  | @interrupted call interruption request hfrom =>
      have hidle : ¬ (s.calls call).Active := by rw [hfrom]; exact id
      have hpoisoned := hcareful _ _ rfl (by rw [hfrom]; exact trivial)
      refine ⟨fun hholder => hheld hidle ?_, fun _ => hlost hpoisoned⟩
      rw [← hs.release hidle (.ended request false false)]
      exact hholder

/-- A deadline or a cancellation is all that can harm. -/
theorem Healthy.harmless_iff (hs : Healthy s) (h : Effect P s i s') : Harmless s i s' ↔ Careful s i := by
  have hothers : ∀ call ≠ i.call, s'.calls call = s.calls call := fun _ => h.calls_of_ne
  cases h with
  | arrived hfrom hto => exact ⟨fun _ _ _ hi => (nomatch hi), fun _ _ _ => ⟨rfl, rfl, rfl, hothers⟩⟩
  | ended hfrom => exact ⟨fun _ _ _ hi => (nomatch hi), fun _ _ _ => ⟨rfl, rfl, rfl, hothers⟩⟩
  | started hfrom hpoisoned hfree hnew =>
      refine ⟨fun _ _ _ hi => (nomatch hi), fun _ _ hstarted => absurd ?_ hstarted⟩
      change ((s.move _ _).calls _).Started
      rw [Event.call, move_calls_self]
      exact trivial
  | claiming hfrom =>
      refine ⟨fun _ _ _ hi => (nomatch hi), fun _ hstarted => absurd ?_ hstarted⟩
      rw [Event.call, hfrom]
      exact trivial
  | lost hfrom hevent hholder =>
      have hstarted : (s.calls i.call).Started := by
        rcases hfrom with hfrom | hfrom
        · rw [hfrom]; exact trivial
        · rw [hfrom]; exact trivial
      refine ⟨fun _ call interruption hi hwaiting => ?_, fun _ h => absurd hstarted h⟩
      subst hi
      rcases hfrom with hfrom | hfrom
      · rw [show s.calls call = _ from hfrom] at hwaiting; exact hwaiting.elim
      · rw [show s.calls call = _ from hfrom] at hwaiting; exact hwaiting.elim
  | recorded hfrom =>
      refine ⟨fun _ _ _ hi => (nomatch hi), fun _ hstarted => absurd ?_ hstarted⟩
      rw [Event.call, hfrom]
      exact trivial
  | @interrupted call interruption request hfrom =>
      have hidle : ¬ (s.calls call).Active := by rw [hfrom]; exact id
      refine ⟨fun hharmless call' interruption' hi _ => ?_, fun hcareful _ _ => ?_⟩
      · refine ((hharmless ?_ ?_).1).symm
        · rw [Event.call, hfrom]
          exact id
        · change ¬ ((s.move call _).calls call).Started
          rw [move_calls_self]
          exact Bool.false_ne_true
      · have hpoisoned := hcareful call interruption rfl (by rw [hfrom]; exact trivial)
        exact ⟨hpoisoned.symm, rfl, hs.release hidle _, hothers⟩

/-- If every deadline and every cancellation that reaches a call waiting for the lock finds the controller
poisoned already, then a poisoned controller has a call that started an execution without recording its
result; and a step of a call that starts no execution changes nothing but this call exactly if it is not
such a deadline or cancellation. -/
theorem poisoning_spec (P : RequestFields Request) {s : Controller Call Request Result}
    (h : (machine P).Reaches Careful initial s) :
    (s.poisoned = true → ∃ call, (s.calls call).Unrecorded) ∧
      ∀ i o s', (machine P).step s i = some (o, s') → (Harmless s i s' ↔ Careful s i) := by
  have hs : Healthy s := by
    refine h.invariant (P := Healthy) ⟨nofun, nofun⟩ ?_
    intro t i o t' ht hcareful hstep
    exact ht.step hcareful (effect_of_step hstep)
  exact ⟨fun hpoisoned => (hs.lost hpoisoned).imp fun _ => Stage.Lost.unrecorded,
    fun i o s' hstep => hs.harmless_iff (effect_of_step hstep)⟩

end Controller

/-- Requests that are their own keys. -/
def plainFields : RequestFields String := ⟨fun _ => true, id, id⟩

namespace Controller

/-- A controller whose only execution has failed. -/
theorem poisoning_spec_failed : ∃ s : Controller Bool String ℕ,
    (machine plainFields).Reaches Careful initial s ∧ s.poisoned = true ∧
      ∃ call, (s.calls call).Unrecorded := by
  have hstart : (machine plainFields).Reaches Careful (initial : Controller Bool String ℕ) initial := .refl _
  have hwaiting := hstart.step (i := .observe false "request") (fun _ _ hi => nomatch hi) rfl
  have hexecuting := hwaiting.step (i := .acquired false .matching) (fun _ _ hi => nomatch hi) rfl
  have hfailed := hexecuting.step (i := .executed false .failed) (fun _ _ hi => nomatch hi) rfl
  exact ⟨_, hfailed, rfl, (poisoning_spec plainFields hfailed).1 rfl⟩

/-- One call executes and records its result, while another one exceeds its deadline waiting. -/
def queued : List (Event Bool String ℕ) :=
  [.observe false "first", .acquired false .matching, .observe true "second",
    .interrupted true .deadline, .executed false .matching, .finalized false (some 0)]

/-- The call that waits poisons the controller, although the only execution is recorded. -/
theorem poisoning_counterexample : ¬ ∀ (P : RequestFields String) (s : Controller Bool String ℕ),
    (machine P).Reaches Machine.anyStep initial s →
      (s.poisoned = true → ∃ call, (s.calls call).Unrecorded) ∧
        ∀ i o s', (machine P).step s i = some (o, s') → Harmless s i s' := by
  intro h
  obtain ⟨s, hreplay, hpoisoned, hfirst, hsecond⟩ : ∃ s : Controller Bool String ℕ,
      (machine plainFields).replay initial queued = some
        ([.pending, .pending, .pending, .raised "authorized runtime action exceeded its deadline",
          .pending, .returned 0], s) ∧ s.poisoned = true ∧
        s.calls false = .ended "first" true true ∧ s.calls true = .ended "second" false false :=
    ⟨_, rfl, rfl, rfl, rfl⟩
  obtain ⟨call, hcall⟩ := (h plainFields s (Machine.reaches_of_replay hreplay)).1 hpoisoned
  cases call with
  | false =>
      rw [hfirst] at hcall
      cases hcall.2
  | true =>
      rw [hsecond] at hcall
      cases hcall.1

end Controller

end StateWeaver.Telemetry
