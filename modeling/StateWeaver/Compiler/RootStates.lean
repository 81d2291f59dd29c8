import StateWeaver.Compiler.Soundness
import StateWeaver.Compiler.Coherence

/-!
# Root states

The root state is folded from conditions: an `eq` with a value and an `exists` assume a value for their
path if it has none, and at the end all conditions must hold. The state is the one of the first assumption
about each path, so the order matters where two conditions assume different values for one path: an
`exists` before an `eq` assumes `True`.
-/

namespace StateWeaver.Compiler

open Contracts

/-! ## Specification -/

/-- The value that a condition assumes for its path, if it does. -/
def assumed (condition : StateCondition) : Option Py.Scalar :=
  match condition.operator, condition.reference with
  | .eq, none => some condition.value.val
  | .exists_, _ => some (.bool true)
  | _, _ => none

/-- The first value that is assumed for a path. -/
def firstAssumed (conditions : List StateCondition) (path : StatePath) : Option Py.Scalar :=
  conditions.findSome? fun condition => if condition.path = path then assumed condition else none

/-- A state of scalars. -/
def ofScalars (values : StatePath → Option Py.Scalar) : State := fun path => (values path).map .scalar

/-- The conditions with those that say what a value is in front. -/
def valuesFirst (conditions : List StateCondition) : List StateCondition :=
  conditions.filter (fun condition => condition.operator = .eq) ++
    conditions.filter fun condition => !decide (condition.operator = .eq)

/-- The conditions hold together, of the values that they say or else of `True`. -/
def Meets (conditions : List StateCondition) : Prop :=
  allConditions conditions (ofScalars (firstAssumed (valuesFirst conditions))) = true

/-- All that is assumed for one path is the same. -/
def Agree (same : Py.Value → Py.Value → Prop) (conditions : List StateCondition) : Prop :=
  ∀ c ∈ conditions, ∀ c' ∈ conditions, c.path = c'.path → ∀ v ∈ assumed c, ∀ v' ∈ assumed c',
    same (.scalar v) (.scalar v')

/-- The same state, or a conflict both times. -/
def SameOutcome (same : Py.Value → Py.Value → Prop) : Except Exc State → Except Exc State → Prop
  | .ok state, .ok state' => ∀ path, Option.Rel same (state path) (state' path)
  | .error e, .error e' => e = .compilationError .rootStateConflict none ∧ e' = e
  | _, _ => False

/-- The root state does not depend on the order of the conditions. -/
def OrderIndependent (same : Py.Value → Py.Value → Prop) (conditions : List StateCondition) : Prop :=
  ∀ conditions', conditions.Perm conditions' →
    SameOutcome same (stateFromConditions conditions) (stateFromConditions conditions')

/-! ## Assumptions -/

variable {conditions conditions' : List StateCondition} {c : StateCondition} {path : StatePath}
  {state state' : State} {v : Py.Scalar}

theorem exists_of_firstAssumed (h : firstAssumed conditions path = some v) :
    ∃ c ∈ conditions, c.path = path ∧ assumed c = some v := by
  obtain ⟨c, hc, heq⟩ := List.exists_of_findSome?_eq_some h
  split_ifs at heq with hpath
  exact ⟨c, hc, hpath, heq⟩

theorem firstAssumed_of_mem (hc : c ∈ conditions) (h : assumed c = some v) :
    ∃ w, firstAssumed conditions c.path = some w := by
  refine Option.isSome_iff_exists.mp (List.findSome?_isSome_iff.mpr ⟨c, hc, ?_⟩)
  rw [if_pos rfl, h]
  rfl

theorem firstAssumed_cons : firstAssumed (c :: conditions) path =
    (if c.path = path then assumed c else none).or (firstAssumed conditions path) := by
  rw [firstAssumed, List.findSome?_cons]
  cases if c.path = path then assumed c else none <;> rfl

theorem firstAssumed_append : firstAssumed (conditions ++ conditions') path =
    (firstAssumed conditions path).or (firstAssumed conditions' path) := by
  rw [firstAssumed, List.findSome?_append]
  rfl

/-- An assumption is a value of an `eq`, or `True`. -/
theorem assumed_eq_some (h : assumed c = some v) :
    c.operator = .eq ∧ c.reference = none ∧ c.value.val = v ∨
      c.operator = .exists_ ∧ v = .bool true := by
  rw [assumed] at h
  split at h
  · next hoperator hreference => exact .inl ⟨hoperator, hreference, Option.some.inj h⟩
  · next hoperator => exact .inr ⟨hoperator, (Option.some.inj h).symm⟩
  · cases h

/-- An assumed value is equal to itself. -/
theorem eq_self_of_assumed (h : assumed c = some v) : v.eq v = true := by
  rcases assumed_eq_some h with ⟨-, -, rfl⟩ | ⟨-, rfl⟩
  · exact eq_self c.value
  · decide +kernel

/-- Where a condition that assumes a value holds, its path has a value, which an `eq` is equal to. -/
theorem exists_of_conditionMatches (hmatch : conditionMatches c state = true) (h : assumed c = some v) :
    ∃ w, state c.path = some w ∧ (c.operator = .eq → w.eq (.scalar v) = true) := by
  rw [conditionMatches] at hmatch
  cases hvalue : state c.path with
  | none =>
      rw [hvalue] at hmatch
      rcases assumed_eq_some h with ⟨hoperator, -, -⟩ | ⟨hoperator, -⟩
      all_goals
        rw [hoperator] at hmatch
        cases hmatch
  | some w =>
      refine ⟨w, rfl, fun heq => ?_⟩
      rcases assumed_eq_some h with ⟨hoperator, hreference, rfl⟩ | ⟨hoperator, -⟩
      · rw [hvalue, hoperator, hreference] at hmatch
        exact hmatch
      · exact absurd (hoperator.symm.trans heq) (by decide)

/-! ## The fold -/

/-- A condition that assumes no value leaves a state, unless it is a `notExists`. -/
theorem assumeCondition_of_assumed_eq_none (h : assumed c = none) (hoperator : c.operator ≠ .notExists) :
    assumeCondition state c = .ok state := by
  rw [assumed] at h
  rw [assumeCondition]
  split at h
  · cases h
  · cases h
  · next hvalue hexists =>
      split
      · next heq hnone => exact absurd hnone (hexists heq)
      · next heq => exact absurd heq hvalue
      · next heq => exact absurd heq hoperator
      · rfl

/-- A condition that assumes a value is written, or is in conflict with what is there. -/
theorem assumeCondition_of_assumed (h : assumed c = some v) : assumeCondition state c =
    if c.operator = .eq → ((state c.path).getD (.scalar v)).eq (.scalar v) = true then
      .ok (Function.update state c.path (some ((state c.path).getD (.scalar v))))
    else .error (.compilationError .rootStateConflict none) := by
  rw [assumeCondition]
  rcases assumed_eq_some h with ⟨hoperator, hreference, rfl⟩ | ⟨hoperator, rfl⟩
  · rw [hoperator, hreference]
    simp only [operand, forall_const]
    exact if_congr Iff.rfl rfl rfl
  · rw [hoperator]
    simp only [reduceCtorEq, false_imp_iff, if_true]

theorem assumeCondition_notExists (h : c.operator = .notExists) :
    assumeCondition state c = .ok (Function.update state c.path none) := by
  rw [assumeCondition, h]

theorem or_getD (value : Option Py.Value) (v : Py.Value) : value.or (some v) = some (value.getD v) := by
  cases value <;> rfl

/-- One condition leaves what is known of a path, or assumes a value for it. -/
theorem assumeCondition_eq_ok (h : assumeCondition state c = .ok state')
    (hpresent : c.path = path → c.operator ≠ .notExists) :
    state' path = (state path).or ((if c.path = path then assumed c else none).map .scalar) := by
  cases hassumed : assumed c with
  | some v =>
      rw [assumeCondition_of_assumed hassumed] at h
      split_ifs at h with hfits
      · cases h
        by_cases hpath : c.path = path
        · subst hpath
          rw [if_pos rfl, Option.map_some, or_getD, Function.update_self]
        · rw [if_neg hpath, Function.update_of_ne (Ne.symm hpath), Option.map_none, Option.or_none]
  | none =>
      rw [ite_self, Option.map_none, Option.or_none]
      by_cases hoperator : c.operator = .notExists
      · rw [assumeCondition_notExists hoperator] at h
        cases h
        exact Function.update_of_ne (fun heq => hpresent heq.symm hoperator) _ _
      · rw [assumeCondition_of_assumed_eq_none hassumed hoperator] at h
        cases h
        rfl

theorem foldlM_assumeCondition (h : conditions.foldlM assumeCondition state = .ok state')
    (hpresent : ∀ c ∈ conditions, c.path = path → c.operator ≠ .notExists) :
    state' path = (state path).or ((firstAssumed conditions path).map .scalar) := by
  induction conditions generalizing state with
  | nil =>
      cases h
      exact (Option.or_none ..).symm
  | cons c conditions ih =>
      rw [List.foldlM_cons] at h
      obtain ⟨state₁, hstep, h⟩ := Imp.except_bind_eq_ok.mp h
      rw [List.forall_mem_cons] at hpresent
      rw [ih h hpresent.2, assumeCondition_eq_ok hstep hpresent.1, firstAssumed_cons, Option.map_or,
        Option.or_assoc]

/-- A fold over conditions that hold in a state ends in it, if it is the state that they assume. -/
theorem foldlM_assumeCondition_of_matches {final : State}
    (hmatches : ∀ c ∈ conditions, conditionMatches c final = true)
    (hfinal : ∀ path, (state path).or ((firstAssumed conditions path).map .scalar) = final path) :
    conditions.foldlM assumeCondition state = .ok final := by
  induction conditions generalizing state with
  | nil =>
      refine congrArg Except.ok (funext fun path => ?_)
      rw [← hfinal path]
      exact (Option.or_none ..).symm
  | cons c conditions ih =>
      rw [List.forall_mem_cons] at hmatches
      rw [List.foldlM_cons]
      cases hassumed : assumed c with
      | some v =>
          have hcurrent : final c.path = some ((state c.path).getD (.scalar v)) := by
            rw [← hfinal, firstAssumed_cons, if_pos rfl, hassumed, Option.some_or, Option.map_some, or_getD]
          have hfits : c.operator = .eq →
              ((state c.path).getD (.scalar v)).eq (.scalar v) = true := by
            intro hoperator
            have hmatch := hmatches.1
            rcases assumed_eq_some hassumed with ⟨-, hreference, rfl⟩ | ⟨hexists, -⟩
            · rw [conditionMatches, hcurrent, hoperator, hreference] at hmatch
              exact hmatch
            · exact absurd (hexists.symm.trans hoperator) (by decide)
          rw [assumeCondition_of_assumed hassumed, if_pos hfits]
          refine ih hmatches.2 fun path => ?_
          by_cases hpath : c.path = path
          · rw [← hpath, Function.update_self, Option.some_or, hcurrent]
          · rw [← hfinal path, Function.update_of_ne (Ne.symm hpath), firstAssumed_cons, if_neg hpath,
              Option.none_or]
      | none =>
          have hrest : ∀ path, (state path).or ((firstAssumed conditions path).map .scalar) = final path := by
            intro path
            rw [← hfinal path, firstAssumed_cons, hassumed, ite_self, Option.none_or]
          by_cases hoperator : c.operator = .notExists
          · -- there is nothing to take away
            have habsent : final c.path = none := by
              have hmatch := hmatches.1
              rw [conditionMatches, hoperator] at hmatch
              exact Option.isNone_iff_eq_none.mp hmatch
            have hnone : state c.path = none := by
              rw [← hfinal, Option.or_eq_none_iff] at habsent
              exact habsent.1
            rw [assumeCondition_notExists hoperator, ← hnone, Function.update_eq_self]
            exact ih hmatches.2 hrest
          · rw [assumeCondition_of_assumed_eq_none hassumed hoperator]
            exact ih hmatches.2 hrest

/-- The root state is that of the first assumptions, if all conditions hold in it. -/
theorem stateFromConditions_eq_ok : stateFromConditions conditions = .ok state ↔
    state = ofScalars (firstAssumed conditions) ∧ allConditions conditions state = true := by
  constructor
  · intro h
    rw [stateFromConditions] at h
    obtain ⟨state₁, hfold, h⟩ := Imp.except_bind_eq_ok.mp h
    rw [Imp.check_bind_eq_ok, Imp.require_eq_ok] at h
    obtain ⟨hall, h⟩ := h
    cases h
    refine ⟨funext fun path => ?_, hall⟩
    have hmatches := List.all_eq_true.mp hall
    by_cases hpresent : ∀ c ∈ conditions, c.path = path → c.operator ≠ .notExists
    · rw [foldlM_assumeCondition hfold hpresent, Option.none_or]
      rfl
    · -- nothing is assumed for a path that must not exist
      push Not at hpresent
      obtain ⟨c, hc, hpath, hoperator⟩ := hpresent
      have habsent : state path = none := by
        have hmatch := hmatches c hc
        rw [conditionMatches, hoperator, hpath] at hmatch
        exact Option.isNone_iff_eq_none.mp hmatch
      rw [habsent, ofScalars]
      cases hfirst : firstAssumed conditions path with
      | none => rfl
      | some v =>
          obtain ⟨c', hc', hpath', hassumed⟩ := exists_of_firstAssumed hfirst
          obtain ⟨w, hw, -⟩ := exists_of_conditionMatches (hmatches c' hc') hassumed
          rw [hpath', habsent] at hw
          cases hw
  · rintro ⟨rfl, hall⟩
    have hfold : conditions.foldlM assumeCondition (fun _ => none) =
        .ok (ofScalars (firstAssumed conditions)) :=
      foldlM_assumeCondition_of_matches (List.all_eq_true.mp hall) fun _ => Option.none_or ..
    rw [stateFromConditions, hfold]
    exact Imp.check_bind_eq_ok.mpr ⟨Imp.require_eq_ok.mpr hall, rfl⟩

/-- What is not a state is a conflict. -/
theorem stateFromConditions_eq_error {e : Exc} (h : stateFromConditions conditions = .error e) :
    e = .compilationError .rootStateConflict none := by
  have hraises : Imp.RaisesOnly (· = .compilationError .rootStateConflict none)
      (stateFromConditions conditions) := by
    refine Imp.raisesOnly_bind (Imp.raisesOnly_foldlM fun state c => ?_) fun _ _ =>
      Imp.raisesOnly_bind (Imp.raisesOnly_require rfl) fun _ _ => Imp.raisesOnly_ok
    rw [assumeCondition]
    split
    · dsimp only
      split
      · exact Imp.raisesOnly_ok
      · exact Imp.raisesOnly_error rfl
    all_goals exact Imp.raisesOnly_ok
  exact hraises e h

/-! ## Equal values -/

/-- Whether a scalar has another one in it depends on their keys. -/
theorem contains_scalar (a b : Py.Scalar) : (Py.Value.scalar a).contains? (.scalar b) =
    match a.key, b.key with
    | .str s, .str t => some (t.toList <:+: s.toList)
    | _, _ => none := by
  cases a <;> cases b <;> rfl

/-- How scalars compare depends on their keys. -/
theorem compareValues_congr {operator : ComparisonOperator} {a a' b b' : Py.Scalar}
    (ha : a.key = a'.key) (hb : b.key = b'.key) :
    compareValues operator (.scalar a) (.scalar b) = compareValues operator (.scalar a') (.scalar b') := by
  have heq : (Py.Value.scalar a).eq (.scalar b) = (Py.Value.scalar a').eq (.scalar b') := by
    rw [Py.Value.eq, Py.Value.eq, Py.Scalar.eq, Py.Scalar.eq, ha, hb]
  have hcompare : (Py.Value.scalar a).compare? (.scalar b) = (Py.Value.scalar a').compare? (.scalar b') := by
    rw [Py.Value.compare?, Py.Value.compare?, Py.Scalar.compare?, Py.Scalar.compare?, ha, hb]
  have hcontains : (Py.Value.scalar a).contains? (.scalar b) =
      (Py.Value.scalar a').contains? (.scalar b') := by
    rw [contains_scalar, contains_scalar, ha, hb]
  cases operator <;> simp only [compareValues, heq, hcompare, hcontains]

/-- The scalar on the right of a comparison. -/
def rightScalar (condition : StateCondition) (values : StatePath → Option Py.Scalar) : Py.Scalar :=
  match condition.reference with
  | some reference => (values reference).getD .none_
  | none => condition.value.val

theorem conditionMatches_ofScalars {values : StatePath → Option Py.Scalar} (hvalue : values c.path = some v)
    (hoperator : c.operator.isExistence = false) : conditionMatches c (ofScalars values) =
      compareValues c.operator (.scalar v) (.scalar (rightScalar c values)) := by
  have hright : (match c.reference with
      | some reference => (ofScalars values reference).getD (.scalar .none_)
      | none => operand c.value) = .scalar (rightScalar c values) := by
    rw [rightScalar]
    cases c.reference with
    | none => rfl
    | some reference =>
        change ((values reference).map Py.Value.scalar).getD _ = .scalar ((values reference).getD _)
        cases values reference <;> rfl
  have hleft : ofScalars values c.path = some (.scalar v) := by rw [ofScalars, hvalue, Option.map_some]
  rw [conditionMatches, hleft]
  generalize c.operator = operator at hoperator
  cases operator with
  | exists_ => cases hoperator
  | notExists => cases hoperator
  | _ => exact congrArg (compareValues _ (.scalar v)) hright

/-- A condition holds in states with the same keys alike. -/
theorem conditionMatches_congr {values values' : StatePath → Option Py.Scalar}
    (h : ∀ path, (values path).map Py.Scalar.key = (values' path).map Py.Scalar.key) :
    conditionMatches c (ofScalars values) = conditionMatches c (ofScalars values') := by
  have hpath := h c.path
  have hright : (rightScalar c values).key = (rightScalar c values').key := by
    rw [rightScalar, rightScalar]
    cases c.reference with
    | none => rfl
    | some reference =>
        have hreference := h reference
        cases hv : values reference <;> cases hw : values' reference <;>
          simp_all only [Option.map_some, Option.map_none, Option.some.injEq, reduceCtorEq, Option.getD_some,
            Option.getD_none]
  cases hv : values c.path with
  | none =>
      cases hw : values' c.path with
      | none => rw [conditionMatches_of_none (by rw [ofScalars, hv]; rfl),
          conditionMatches_of_none (by rw [ofScalars, hw]; rfl)]
      | some w =>
          rw [hv, hw] at hpath
          cases hpath
  | some v =>
      cases hw : values' c.path with
      | none =>
          rw [hv, hw] at hpath
          cases hpath
      | some w =>
          rw [hv, hw, Option.map_some, Option.map_some, Option.some.injEq] at hpath
          cases hoperator : c.operator.isExistence with
          | false =>
              rw [conditionMatches_ofScalars hv hoperator, conditionMatches_ofScalars hw hoperator]
              exact compareValues_congr hpath hright
          | true =>
              rw [conditionMatches, conditionMatches, ofScalars, ofScalars, hv, hw]
              generalize c.operator = operator at hoperator
              cases operator <;> first | rfl | cases hoperator

theorem allConditions_congr {values values' : StatePath → Option Py.Scalar}
    (h : ∀ path, (values path).map Py.Scalar.key = (values' path).map Py.Scalar.key) :
    allConditions conditions (ofScalars values) = allConditions conditions (ofScalars values') := by
  simp only [allConditions, conditionMatches_congr h]

/-! ## Orders -/

theorem allConditions_perm (h : conditions.Perm conditions') :
    allConditions conditions state = allConditions conditions' state := by
  rw [allConditions, allConditions, Bool.eq_iff_iff, List.all_eq_true, List.all_eq_true]
  exact forall_congr' fun c => by rw [h.mem_iff]

theorem valuesFirst_perm (conditions : List StateCondition) : (valuesFirst conditions).Perm conditions :=
  List.filter_append_perm ..

/-- What is assumed for a path in some conditions is assumed in more of them. -/
theorem firstAssumed_of_subset (hsub : ∀ c ∈ conditions, c ∈ conditions')
    (h : firstAssumed conditions path = some v) : ∃ w, firstAssumed conditions' path = some w := by
  obtain ⟨c, hc, rfl, hassumed⟩ := exists_of_firstAssumed h
  exact firstAssumed_of_mem (hsub c hc) hassumed

/-- Conditions that make a state in some order hold together. -/
theorem meets_of_eq_ok (hperm : conditions.Perm conditions')
    (h : stateFromConditions conditions' = .ok state) : Meets conditions := by
  obtain ⟨rfl, hall⟩ := stateFromConditions_eq_ok.mp h
  have hmatches := List.all_eq_true.mp ((allConditions_perm hperm).trans hall)
  rw [Meets, ← (allConditions_perm hperm).trans hall]
  refine allConditions_congr fun path => ?_
  -- in the state each `eq` of the path agrees with the first assumption
  have hvalue : ∀ c ∈ conditions, c.path = path → ∀ v, assumed c = some v →
      ∃ w, firstAssumed conditions' path = some w ∧ (c.operator = .eq → w.key = v.key) := by
    rintro c hc rfl v hv
    obtain ⟨w, hw, heq⟩ := exists_of_conditionMatches (hmatches c hc) hv
    rw [ofScalars, Option.map_eq_some_iff] at hw
    obtain ⟨w, hw, rfl⟩ := hw
    exact ⟨w, hw, fun hoperator => (Py.Scalar.eq_iff.mp (heq hoperator)).1⟩
  have hsplit : firstAssumed (valuesFirst conditions) path = _ := firstAssumed_append
  rw [hsplit]
  cases hsaid : firstAssumed (conditions.filter fun c => c.operator = .eq) path with
  | some v =>
      obtain ⟨c, hc, hpath, hassumed⟩ := exists_of_firstAssumed hsaid
      rw [List.mem_filter, decide_eq_true_eq] at hc
      obtain ⟨w, hw, hkey⟩ := hvalue c hc.1 hpath v hassumed
      rw [hw, Option.some_or, Option.map_some, Option.map_some, hkey hc.2]
  | none =>
      -- then all that is assumed for the path is that it exists
      have htrue : ∀ c ∈ conditions, c.path = path → ∀ v, assumed c = some v → v = .bool true := by
        rintro c hc rfl v hv
        rcases assumed_eq_some hv with ⟨hoperator, -, -⟩ | ⟨-, htrue⟩
        · have hmem : c ∈ conditions.filter fun c => c.operator = .eq :=
            List.mem_filter.mpr ⟨hc, decide_eq_true hoperator⟩
          obtain ⟨w, hw⟩ := firstAssumed_of_mem hmem hv
          rw [hsaid] at hw
          cases hw
        · exact htrue
      rw [Option.none_or]
      cases hrest : firstAssumed (conditions.filter fun c => !decide (c.operator = .eq)) path with
      | some v =>
          obtain ⟨c, hc, hpath, hassumed⟩ := exists_of_firstAssumed hrest
          have hc := (List.mem_filter.mp hc).1
          obtain ⟨w, hw, -⟩ := hvalue c hc hpath v hassumed
          obtain ⟨c', hc', hpath', hassumed'⟩ := exists_of_firstAssumed hw
          rw [hw, htrue c hc hpath v hassumed, htrue c' (hperm.mem_iff.mpr hc') hpath' w hassumed']
      | none =>
          cases hw : firstAssumed conditions' path with
          | none => rfl
          | some w =>
              obtain ⟨v, hv⟩ := firstAssumed_of_subset
                (fun c hc => ((valuesFirst_perm conditions).trans hperm).mem_iff.mpr hc) hw
              rw [hsplit, hsaid, hrest] at hv
              cases hv

/-- Conditions that hold together make a state in every order, if what is assumed for each path is equal. -/
theorem eq_ok_of_meets (hmeets : Meets conditions) (hagree : Agree (fun v w => v.eq w = true) conditions)
    (hperm : conditions.Perm conditions') :
    stateFromConditions conditions' = .ok (ofScalars (firstAssumed conditions')) := by
  refine stateFromConditions_eq_ok.mpr ⟨rfl, ?_⟩
  have hfirst := valuesFirst_perm conditions
  rw [← allConditions_perm hperm, ← hmeets]
  refine allConditions_congr fun path => ?_
  cases hv : firstAssumed conditions' path with
  | none =>
      cases hw : firstAssumed (valuesFirst conditions) path with
      | none => rfl
      | some w =>
          obtain ⟨v, hv'⟩ := firstAssumed_of_subset (fun c hc => (hfirst.trans hperm).mem_iff.mp hc) hw
          rw [hv] at hv'
          cases hv'
  | some v =>
      obtain ⟨w, hw⟩ := firstAssumed_of_subset (fun c hc => (hfirst.trans hperm).mem_iff.mpr hc) hv
      obtain ⟨c, hc, hpath, hassumed⟩ := exists_of_firstAssumed hv
      obtain ⟨c', hc', hpath', hassumed'⟩ := exists_of_firstAssumed hw
      have heq := hagree c (hperm.mem_iff.mpr hc) c' (hfirst.mem_iff.mp hc') (hpath.trans hpath'.symm)
        v hassumed w hassumed'
      rw [hw, Option.map_some, Option.map_some, (Py.Scalar.eq_iff.mp heq).1]

/-! ## Order independence -/

/-- Conditions that make a state in one order and none in another. -/
theorem not_orderIndependent {same : Py.Value → Py.Value → Prop} (hperm : conditions.Perm conditions')
    (h : (stateFromConditions conditions).toOption.isSome = true)
    (h' : (stateFromConditions conditions').toOption.isSome = false) :
    ¬OrderIndependent same conditions := by
  intro hindependent
  have hsame := hindependent conditions' hperm
  cases hstate : stateFromConditions conditions with
  | error e =>
      rw [hstate] at h
      cases h
  | ok state =>
      cases hstate' : stateFromConditions conditions' with
      | error e =>
          rw [hstate, hstate'] at hsame
          exact hsame
      | ok state' =>
          rw [hstate'] at h'
          cases h'

section

variable {same : Py.Value → Py.Value → Prop}

/-- If what is assumed for each path is the same, the order of the conditions does not matter. -/
theorem orderIndependent_of_agree
    (himp : ∀ v w : Py.Scalar, v.eq v = true → same (.scalar v) (.scalar w) → v.eq w = true)
    (hagree : Meets conditions → Agree same conditions) : OrderIndependent same conditions := by
  have hequal : Meets conditions → Agree (fun v w => v.eq w = true) conditions := by
    intro hmeets c hc c' hc' hpath v hv v' hv'
    exact himp v v' (eq_self_of_assumed hv) (hagree hmeets c hc c' hc' hpath v hv v' hv')
  intro conditions' hperm
  by_cases hmeets : Meets conditions
  · rw [eq_ok_of_meets hmeets (hequal hmeets) (.refl _), eq_ok_of_meets hmeets (hequal hmeets) hperm]
    intro path
    rw [ofScalars, ofScalars]
    cases hv : firstAssumed conditions path with
    | none =>
        cases hw : firstAssumed conditions' path with
        | none => exact .none
        | some w =>
            obtain ⟨v, hv'⟩ := firstAssumed_of_subset (fun c hc => hperm.mem_iff.mpr hc) hw
            rw [hv] at hv'
            cases hv'
    | some v =>
        obtain ⟨w, hw⟩ := firstAssumed_of_subset (fun c hc => hperm.mem_iff.mp hc) hv
        obtain ⟨c, hc, hpath, hassumed⟩ := exists_of_firstAssumed hv
        obtain ⟨c', hc', hpath', hassumed'⟩ := exists_of_firstAssumed hw
        rw [hw]
        exact .some (hagree hmeets c hc c' (hperm.mem_iff.mpr hc') (hpath.trans hpath'.symm)
          v hassumed w hassumed')
  · cases hstate : stateFromConditions conditions with
    | ok state => exact absurd (meets_of_eq_ok (.refl _) hstate) hmeets
    | error e =>
        cases hstate' : stateFromConditions conditions' with
        | ok state => exact absurd (meets_of_eq_ok hperm hstate') hmeets
        | error e' =>
            have he := stateFromConditions_eq_error hstate
            exact ⟨he, (stateFromConditions_eq_error hstate').trans he.symm⟩

/-- If the order of the conditions does not matter, each assumption can come first. -/
theorem agree_of_orderIndependent
    (hsymm : ∀ v w : Py.Scalar, same (.scalar v) (.scalar w) → same (.scalar w) (.scalar v))
    (htrans : ∀ u v w : Py.Scalar, same (.scalar u) (.scalar v) → same (.scalar v) (.scalar w) →
      same (.scalar u) (.scalar w))
    (h : OrderIndependent same conditions) (hmeets : Meets conditions) : Agree same conditions := by
  have hok : ∃ state, stateFromConditions conditions = .ok state := by
    have hfirst := h _ (valuesFirst_perm conditions).symm
    rw [stateFromConditions_eq_ok.mpr ⟨rfl, (allConditions_perm (valuesFirst_perm conditions)).trans hmeets⟩] at hfirst
    cases hstate : stateFromConditions conditions with
    | ok state => exact ⟨state, rfl⟩
    | error e =>
        rw [hstate] at hfirst
        cases hfirst
  obtain ⟨state, hstate⟩ := hok
  -- the state has a value that is the same as each assumption about its path
  have hassume : ∀ c ∈ conditions, ∀ v ∈ assumed c,
      ∃ w, firstAssumed conditions c.path = some w ∧ same (.scalar w) (.scalar v) := by
    intro c hc v hv
    have hperm := List.perm_cons_erase hc
    have hsame := h _ hperm
    rw [hstate] at hsame
    cases hother : stateFromConditions (c :: conditions.erase c) with
    | error e =>
        rw [hother] at hsame
        cases hsame
    | ok state' =>
        rw [hother] at hsame
        obtain ⟨rfl, -⟩ := stateFromConditions_eq_ok.mp hother
        have hpath := hsame c.path
        rw [(stateFromConditions_eq_ok.mp hstate).1, ofScalars, ofScalars, firstAssumed_cons, if_pos rfl, hv,
          Option.some_or, Option.map_some] at hpath
        cases hw : firstAssumed conditions c.path with
        | none =>
            rw [hw] at hpath
            cases hpath
        | some w =>
            rw [hw] at hpath
            cases hpath with
            | some hvalue => exact ⟨w, rfl, hvalue⟩
  intro c hc c' hc' hpath v hv v' hv'
  obtain ⟨w, hw, hsame⟩ := hassume c hc v hv
  obtain ⟨w', hw', hsame'⟩ := hassume c' hc' v' hv'
  rw [hpath, hw', Option.some.injEq] at hw
  subst hw
  exact htrans _ _ _ (hsymm _ _ hsame) hsame'

end

/-- The root state is the same for all orders of its conditions exactly if they never hold together or all
that is assumed for a path is the same, for identical values and for those that are equal in Python. -/
theorem orderIndependent_iff (conditions : List StateCondition) :
    (OrderIndependent (· = ·) conditions ↔ (Meets conditions → Agree (· = ·) conditions)) ∧
      (OrderIndependent (fun v w => v.eq w = true) conditions ↔
        (Meets conditions → Agree (fun v w => v.eq w = true) conditions)) := by
  refine ⟨⟨agree_of_orderIndependent (fun v w h => h.symm) (fun u v w h h' => h.trans h'),
      orderIndependent_of_agree fun v w hself hsame => ?_⟩,
    ⟨agree_of_orderIndependent (fun v w => Py.Scalar.eq_symm) (fun u v w => Py.Scalar.eq_trans),
      orderIndependent_of_agree fun v w _ hsame => hsame⟩⟩
  cases hsame
  exact hself

/-! ## An existence and a value -/

def level : StatePath := ⟨"demo.level", by decide +kernel⟩

def levelExists : StateCondition := 
  ⟨level, .exists_, .none, none, StateCondition.bare_existence, StateCondition.bare_comparison⟩

def levelIsFive : StateCondition := ⟨level, .eq, ⟨.int 5, rfl⟩, none, nofun, fun _ => by decide⟩

/-- A value after the existence of its path is a conflict, before it the path has the value. -/
theorem not_orderIndependent_level :
    ¬OrderIndependent (fun v w => v.eq w = true) [levelIsFive, levelExists] := by
  have hperm : [levelIsFive, levelExists].Perm [levelExists, levelIsFive] := .swap ..
  exact not_orderIndependent hperm (by decide +kernel) (by decide +kernel)

end StateWeaver.Compiler
