import Mathlib

/-!
# Machines that answer inputs

A machine takes an input in a state and answers with an output and its next state, unless the input
is not possible there. `Reaches` is what the machine can do under a condition on its steps (all steps
are allowed unless a condition is named), and the two rules say how a fact about one step becomes a
fact about every run: `Reaches.invariant` for a property of states and `Reaches.relate` for a
property of a state and a later one. `replay` runs a fixed list of inputs, so that a particular run
can be evaluated.
-/

/-- What a machine does with an input: its output and the next state, or nothing. -/
structure Machine (S I O : Type*) where
  /-- One step. -/
  step : S → I → Option (O × S)

namespace Machine

variable {S I O : Type*} {M : Machine S I O} {allowed allowed' : S → I → Prop} {s s' s'' : S}

/-- One allowed step. -/
def Steps (M : Machine S I O) (allowed : S → I → Prop) (s s' : S) : Prop :=
  ∃ i o, allowed s i ∧ M.step s i = some (o, s')

/-- A run of allowed steps. -/
def Reaches (M : Machine S I O) (allowed : S → I → Prop) : S → S → Prop :=
  Relation.ReflTransGen (M.Steps allowed)

/-- Every step is allowed. -/
def anyStep : S → I → Prop := fun _ _ => True

theorem Reaches.refl (s : S) : M.Reaches allowed s s := Relation.ReflTransGen.refl

theorem Reaches.step {i : I} {o : O} (h : M.Reaches allowed s s') (hok : allowed s' i)
    (hstep : M.step s' i = some (o, s'')) : M.Reaches allowed s s'' :=
  Relation.ReflTransGen.tail h ⟨i, o, hok, hstep⟩

theorem Reaches.trans (h : M.Reaches allowed s s') (h' : M.Reaches allowed s' s'') :
    M.Reaches allowed s s'' :=
  Relation.ReflTransGen.trans h h'

/-- A run is a run under every weaker condition. -/
theorem Reaches.mono (hweaker : ∀ s i, allowed s i → allowed' s i) (h : M.Reaches allowed s s') :
    M.Reaches allowed' s s' := by
  induction h with
  | refl => exact Reaches.refl s
  | tail _ hstep ih =>
      obtain ⟨i, o, hok, hrun⟩ := hstep
      exact ih.step (hweaker _ _ hok) hrun

/-- What every allowed step preserves holds at the end of every run. -/
theorem Reaches.invariant {P : S → Prop} (h : M.Reaches allowed s s') (hstart : P s)
    (hstep : ∀ s i o s', P s → allowed s i → M.step s i = some (o, s') → P s') : P s' := by
  induction h with
  | refl => exact hstart
  | tail _ hlast ih =>
      obtain ⟨i, o, hok, hrun⟩ := hlast
      exact hstep _ i o _ ih hok hrun

/-- A preorder that holds across every allowed step from an invariant state holds across every
run. -/
theorem Reaches.relate {P : S → Prop} {R : S → S → Prop} (h : M.Reaches allowed s s')
    (hstart : P s) (hrefl : ∀ s, R s s) (htrans : ∀ s₁ s₂ s₃, R s₁ s₂ → R s₂ s₃ → R s₁ s₃)
    (hstep : ∀ s i o s', P s → allowed s i → M.step s i = some (o, s') → P s' ∧ R s s') :
    R s s' := by
  have hboth : P s' ∧ R s s' := by
    refine h.invariant (P := fun t => P t ∧ R s t) ⟨hstart, hrefl s⟩ ?_
    rintro t i o t' ⟨hP, hR⟩ hok hrun
    obtain ⟨hP', hR'⟩ := hstep t i o t' hP hok hrun
    exact ⟨hP', htrans _ _ _ hR hR'⟩
  exact hboth.2

/-! ## Runs of given inputs -/

/-- Take the inputs in turn, collecting the outputs. -/
def replay (M : Machine S I O) : S → List I → Option (List O × S)
  | s, [] => some ([], s)
  | s, i :: rest =>
      match M.step s i with
      | none => none
      | some (o, s₁) => (M.replay s₁ rest).map fun r => (o :: r.1, r.2)

/-- A replayed run of allowed inputs is a run. -/
theorem reaches_of_replay_of_allowed {inputs : List I} {outputs : List O}
    (hallowed : ∀ s, ∀ i ∈ inputs, allowed s i) (h : M.replay s inputs = some (outputs, s')) :
    M.Reaches allowed s s' := by
  induction inputs generalizing s outputs with
  | nil =>
      cases h
      exact Reaches.refl _
  | cons i rest ih =>
      rw [replay] at h
      cases hstep : M.step s i with
      | none =>
          rw [hstep] at h
          cases h
      | some r =>
          obtain ⟨o, s₁⟩ := r
          rw [hstep] at h
          simp only [Option.map_eq_some_iff, Prod.mk.injEq] at h
          obtain ⟨⟨outputs', s₂⟩, hrest, -, rfl⟩ := h
          have hlater := ih (fun s i hi => hallowed s i (List.mem_cons_of_mem _ hi)) hrest
          exact ((Reaches.refl _).step (hallowed _ i List.mem_cons_self) hstep).trans hlater

/-- A replayed run is a run. -/
theorem reaches_of_replay {inputs : List I} {outputs : List O}
    (h : M.replay s inputs = some (outputs, s')) : M.Reaches anyStep s s' :=
  reaches_of_replay_of_allowed (fun _ _ _ => trivial) h

end Machine
