import StateWeaver.Compiler.RootStates

/-!
# Operands of fired steps

A comparison reads the value of its path, and of another path if it has a reference. Without a value at its
path it does not hold. Without a value at the reference it compares with `None`, which no path ever has, so
only `ne` and `notContains` hold: a step can fire because a path that it refers to was never set.
-/

namespace StateWeaver.Compiler

open Contracts

/-! ## Specification -/

/-- All that a condition reads has a value, but for the path of a `notExists`. -/
structure Defined (condition : StateCondition) (state : State) : Prop where
  path : condition.operator ≠ .notExists → state condition.path ≠ none
  reference : ∀ reference ∈ condition.reference, state reference ≠ none

/-- The reference of a negative comparison has a value. -/
def NegativeDefined (condition : StateCondition) (state : State) : Prop :=
  condition.operator = .ne ∨ condition.operator = .notContains →
    ∀ reference ∈ condition.reference, state reference ≠ none

/-- The fragment is taken from the state when the fragments are executed in their order. -/
def Fires (root : RootState) (ordered : List CompilerFragment) (f : CompilerFragment) (state : State) :
    Prop :=
  ∃ initial before after c, stateFromConditions root.conditions = .ok initial ∧
    ordered = before ++ f :: after ∧ planning.Executes (rootConfig root initial) before c ∧ c.state = state

/-- What holds of each precondition when its fragment fires. -/
def AtEachStep (root : RootState) (ordered : List CompilerFragment)
    (property : StateCondition → State → Prop) : Prop :=
  ∀ f state, Fires root ordered f state → ∀ condition ∈ f.fragment.preconditions, property condition state

/-! ## States without `None` -/

/-- No value of a state is `None`, nor has it as a member. -/
def NoNone (state : State) : Prop := ∀ path, Py.Scalar.none_ ∉ members (state path)

variable {state state' : State} {condition : StateCondition} {effect : StateEffect} {path : StatePath}

theorem NoNone.update {value : Option Py.Value} (h : NoNone state) (hvalue : .none_ ∉ members value) :
    NoNone (Function.update state path value) := by
  intro path'
  by_cases hpath : path' = path
  · rw [hpath, Function.update_self]
    exact hvalue
  · rw [Function.update_of_ne hpath]
    exact h path'

theorem toScalar_ne_none (n : Py.Number) : n.toScalar ≠ .none_ := by
  cases n <;> nofun

theorem value_ne_none (h : effect.operation = .set ∨ effect.operation = .add) :
    effect.value.val ≠ .none_ := by
  intro hnone
  have hcoherent := effect.coherent
  rw [validateEffectOperationValue.eq_def, hnone] at hcoherent
  rcases h with hset | hadd
  · rw [hset] at hcoherent
    cases hcoherent
  · rw [hadd] at hcoherent
    cases hcoherent

theorem NoNone.arithmetic {op : Py.Number → Py.Number → Option Py.Number} (h : NoNone state)
    (harithmetic : arithmetic op effect state = .ok state') : NoNone state' := by
  rw [Compiler.arithmetic] at harithmetic
  obtain ⟨current, -, harithmetic⟩ := Imp.except_bind_eq_ok.mp harithmetic
  obtain ⟨change, -, harithmetic⟩ := Imp.except_bind_eq_ok.mp harithmetic
  split at harithmetic
  · cases harithmetic
    exact h.update (mt List.mem_singleton.mp (toScalar_ne_none _).symm)
  · cases harithmetic

/-- Effects never write `None`. -/
theorem NoNone.applyEffect (h : NoNone state) (happly : applyEffect state effect = .ok state') :
    NoNone state' := by
  cases hoperation : effect.operation with
  | set =>
      rw [Compiler.applyEffect, hoperation] at happly
      cases happly
      exact h.update (mt List.mem_singleton.mp (value_ne_none (.inl hoperation)).symm)
  | add =>
      rw [applyEffect_add hoperation] at happly
      cases happly
      refine h.update ?_
      rw [members, List.mem_append, List.mem_singleton, not_or]
      exact ⟨h effect.path, (value_ne_none (.inr hoperation)).symm⟩
  | remove =>
      rw [applyEffect_remove hoperation] at happly
      cases happly
      exact h.update List.not_mem_nil
  | increment =>
      rw [Compiler.applyEffect, hoperation] at happly
      exact h.arithmetic happly
  | decrement =>
      rw [Compiler.applyEffect, hoperation] at happly
      exact h.arithmetic happly

theorem NoNone.applyEffects {effects : List StateEffect} (h : NoNone state)
    (happly : applyEffects state effects = .ok state') : NoNone state' :=
  Imp.foldlM_invariant (I := fun _ state => NoNone state) (d := [])
    (fun _ _ _ _ hnone hstep => hnone.applyEffect hstep) h happly

/-- Conditions never assume `None`. -/
theorem noNone_of_stateFromConditions {conditions : List StateCondition}
    (h : stateFromConditions conditions = .ok state) : NoNone state := by
  obtain ⟨rfl, -⟩ := stateFromConditions_eq_ok.mp h
  intro path
  rw [ofScalars]
  cases hfirst : firstAssumed conditions path with
  | none => exact List.not_mem_nil
  | some v =>
      obtain ⟨c, -, -, hassumed⟩ := exists_of_firstAssumed hfirst
      refine mt List.mem_singleton.mp ?_
      rcases assumed_eq_some hassumed with ⟨hoperator, hreference, rfl⟩ | ⟨-, rfl⟩
      · intro hnone
        have hvalue : c.value = .none := by
          generalize c.value = value at hnone
          obtain ⟨val, hfinite⟩ := value
          subst hnone
          rfl
        exact (c.comparisonShape (by rw [hoperator]; rfl)).mp hvalue hreference
      · intro hnone
        cases hnone

/-- In an execution from a state without `None` there is none. -/
theorem NoNone.executes {c c' : Config} {l : List CompilerFragment} (h : NoNone c.state)
    (hexecutes : planning.Executes c l c') : NoNone c'.state := by
  induction hexecutes with
  | nil => exact h
  | cons _ htake _ ih =>
      obtain ⟨state, hstate, rfl⟩ := Option.map_eq_some_iff.mp htake
      exact ih (h.applyEffects (Imp.toOption_eq_some.mp hstate))

/-! ## Comparisons with `None` -/

theorem key_eq_none {s : Py.Scalar} : s.key = .none_ ↔ s = .none_ := by
  cases s <;> simp [Py.Scalar.key]

/-- Of the comparisons of a value with `None` only the negative ones can hold. -/
theorem compareValues_none {operator : ComparisonOperator} {value : Py.Value}
    (hmembers : .none_ ∉ members (some value))
    (h : compareValues operator value (.scalar .none_) = true) : operator = .ne ∨ operator = .notContains := by
  have hequal : ∀ s, (Py.Value.scalar s).eq (.scalar .none_) = true → s = .none_ := fun s heq =>
    key_eq_none.mp (Py.Scalar.eq_iff.mp heq).1
  have hunordered : ∀ s : Py.Scalar, s.compare? .none_ = none := by
    intro s
    cases s <;> rfl
  have hcompare : value.compare? (.scalar .none_) = none := by
    cases value with
    | scalar s => exact hunordered s
    | tuple l => rfl
  cases operator with
  | ne => exact .inl rfl
  | notContains => exact .inr rfl
  | eq =>
      cases value with
      | scalar s => exact absurd (List.mem_singleton.mpr (hequal s h).symm) hmembers
      | tuple l => cases h
  | contains =>
      cases value with
      | scalar s => cases s <;> cases h
      | tuple l =>
          obtain ⟨m, hm, heq⟩ := List.any_eq_true.mp h
          exact absurd (hequal m heq ▸ hm) hmembers
  | exists_ => cases h
  | notExists => cases h
  | _ =>
      rw [compareValues, hcompare] at h
      cases h

theorem conditionMatches_of_missing {value : Py.Value} {reference : StatePath}
    (hoperator : condition.operator.isExistence = false) (hvalue : state condition.path = some value)
    (hreference : condition.reference = some reference) (hmissing : state reference = none) :
    conditionMatches condition state = compareValues condition.operator value (.scalar .none_) := by
  rw [conditionMatches, hvalue, hreference]
  dsimp only
  rw [hmissing]
  generalize condition.operator = operator at hoperator
  cases operator <;> first | rfl | cases hoperator

/-- A condition that holds has its operands, unless it is a negative comparison with a missing one. -/
theorem defined_iff (hnone : NoNone state) (h : conditionMatches condition state = true) :
    Defined condition state ↔ NegativeDefined condition state := by
  refine ⟨fun hdefined _ => hdefined.reference, fun hnegative => ⟨fun hoperator hpath => ?_,
    fun reference hreference hmissing => ?_⟩⟩
  · rw [conditionMatches_of_none hpath, decide_eq_true_eq] at h
    exact hoperator h
  · have hoperator : condition.operator.isExistence = false := by
      by_contra hexistence
      have hshape := condition.existenceShape (Bool.not_eq_false _ |>.mp hexistence)
      rw [hshape.2] at hreference
      cases hreference
    cases hvalue : state condition.path with
    | none =>
        rw [conditionMatches_of_none hvalue, decide_eq_true_eq] at h
        rw [h] at hoperator
        cases hoperator
    | some value =>
        rw [conditionMatches_of_missing hoperator hvalue hreference hmissing] at h
        exact hnegative (compareValues_none (hvalue ▸ hnone condition.path) h) reference hreference hmissing

/-! ## Chains -/

variable {root : RootState} {ordered : List CompilerFragment} {f : CompilerFragment}

/-- A fragment fires in a state without `None`, in which its preconditions hold. -/
theorem Fires.holds {final : Config} {initial : State} (h : Fires root ordered f state)
    (hinitial : stateFromConditions root.conditions = .ok initial)
    (hexecutes : planning.Executes (rootConfig root initial) ordered final) :
    NoNone state ∧ ∀ condition ∈ f.fragment.preconditions, conditionMatches condition state = true := by
  obtain ⟨initial', before, after, c, hinitial', hordered, hbefore, rfl⟩ := h
  obtain rfl := Except.ok.inj (hinitial.symm.trans hinitial')
  refine ⟨(noNone_of_stateFromConditions hinitial).executes (c := rootConfig root initial) hbefore, ?_⟩
  rw [hordered] at hexecutes
  exact List.all_eq_true.mp (hexecutes.ready hbefore).2.1

/-- In every chain that is returned the steps have all that they read exactly if the references of their
negative comparisons have values. -/
theorem operands_defined_iff [ModelDigest] [SetOrder] {chainId : String} {fragments : List CompilerFragment}
    {goal : TerminalGoal} {chain : CompiledChain} (h : compile chainId root fragments goal = .ok chain) :
    ∃ ordered, Realizes root fragments goal chain ordered ∧
      (AtEachStep root ordered Defined ↔ AtEachStep root ordered NegativeDefined) := by
  obtain ⟨nodes, initial, before, selected, after, simulation, hadmitted, hsets, -, hattempt, hchain⟩ :=
    compile_eq_ok h
  have hselected : selected ∈ candidateSets (relevantNodes nodes goal) :=
    hsets ▸ List.mem_append_right _ List.mem_cons_self
  have hrealizes := realizes_of_attempt hadmitted hselected hattempt hchain
  obtain ⟨initial, final, hinitial, hexecutes, -⟩ := hrealizes.runs
  refine ⟨simulation.ordered, hrealizes, forall₃_congr fun f state hfires => forall₂_congr fun condition hmem => ?_⟩
  obtain ⟨hnone, hmatches⟩ := hfires.holds hinitial hexecutes
  exact defined_iff hnone (hmatches condition hmem)

end StateWeaver.Compiler

namespace StateWeaver.Compiler.Demo

open Contracts

attribute [local instance] modelDigest setOrder

/-- `started != served`. -/
def startedNotServed : StateCondition := ⟨started, .ne, .none, some served, nofun, by decide⟩

def comparing : List CompilerFragment := [fragment idA startedNotServed (setTrue finished) []]

/-- A step fires as its condition compares with a path that was never set. -/
theorem not_operands_defined_comparing :
    ∃ chain, compile "chain.demo" (rootOf [isTrue started]) comparing (goalOf (isTrue finished) []) =
        .ok chain ∧
      chain.fragmentIds = comparing.map CompilerFragment.fragmentId ∧
      ¬AtEachStep (rootOf [isTrue started]) comparing Defined := by
  have hcompile : compile "chain.demo" (rootOf [isTrue started]) comparing (goalOf (isTrue finished) []) =
      .ok (chainOf (rootOf [isTrue started]) (goalOf (isTrue finished) []) comparing) := by
    decide +kernel
  have hinitial : stateFromConditions (rootOf [isTrue started]).conditions =
      .ok (ofScalars (firstAssumed [isTrue started])) :=
    stateFromConditions_eq_ok.mpr ⟨rfl, by decide +kernel⟩
  refine ⟨_, hcompile, rfl, fun hdefined => ?_⟩
  have hread := hdefined _ _ ⟨_, [], [], _, hinitial, rfl, .nil, rfl⟩ startedNotServed (.head _)
  exact hread.reference served rfl (by decide)

/-- Comparisons with values have what they read. -/
theorem operands_defined_inTurn :
    ∃ ordered, ordered ⊆ inTurn ∧ AtEachStep (rootOf [isTrue started]) ordered Defined := by
  have hcompile : compile "chain.demo" (rootOf [isTrue started]) inTurn (goalOf (isTrue finished) []) =
      .ok (chainOf (rootOf [isTrue started]) (goalOf (isTrue finished) []) inTurn.reverse) := by
    decide +kernel
  obtain ⟨ordered, hrealizes, hiff⟩ := operands_defined_iff hcompile
  refine ⟨ordered, hrealizes.fromInput, hiff.mpr ?_⟩
  rintro f state ⟨initial, before, after, c, -, rfl, -, -⟩ condition hcondition hnegative
  have hall : ∀ f ∈ inTurn, ∀ condition ∈ f.fragment.preconditions, condition.operator = .eq := by decide
  have hf : f ∈ inTurn := hrealizes.fromInput (List.mem_append_right _ List.mem_cons_self)
  rw [hall f hf condition hcondition] at hnegative
  cases hnegative with
  | inl h => cases h
  | inr h => cases h

end StateWeaver.Compiler.Demo
