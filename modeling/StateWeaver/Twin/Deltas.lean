import StateWeaver.Compiler.Coherence
import StateWeaver.Twin.Conflicts

/-!
# What the facts of deltas say

The fact of a delta has the operand of its effect as its object. That is what the effect leaves at its path if
it sets a value, adds a member or removes without a value. An effect that removes with a value leaves nothing
there, and one that counts leaves the result.
-/

namespace StateWeaver.Twin

open Contracts Compiler

/-! ## Specification -/

/-- A fact says of a state what it has at a path: the value or one of its members, or nothing. -/
def SaysOf (f : Fact) (path : StatePath) (state : State) : Prop :=
  f.predicate.val = lastSegment path ∧ match state path with
    | none => f.object = .none
    | some (.scalar s) => s.eq f.object.val = true
    | some (.tuple l) => ∃ m ∈ l, m.eq f.object.val = true

/-- The facts of deltas say of the states after their effects what these have, from whichever state that the
transition can be taken. -/
def Truthful (flow : TelemetryFlow) (transition : TransitionFragment) (facts : List Fact) : Prop :=
  ∀ e ∈ flow.deltas.zip facts, ∀ state, allConditions transition.preconditions state = true →
    ∀ state', applyEffect state e.1.effect = .ok state' → SaysOf e.2 e.1.effect.path state'

/-- A count from the number at a path, or from 0, gives the operand. -/
def GivesOperand (op : Py.Number → Py.Number → Option Py.Number) (effect : StateEffect) (state : State) : Prop :=
  ∀ n d r, ((state effect.path).getD (.scalar (.int 0))).number? = some n →
    (operand effect.value).number? = some d → op n d = some r → r.toScalar.eq d.toScalar = true

/-- What an effect leaves is its operand. -/
def LeavesOperand (effect : StateEffect) (state : State) : Prop :=
  match effect.operation with
  | .set | .add => True
  | .remove => effect.value = .none
  | .increment => GivesOperand Py.Number.add effect state
  | .decrement => GivesOperand Py.Number.sub effect state

variable {effect : StateEffect} {state state' : State} {f : Fact}

/-! ## Effects -/

theorem toScalar_of_number? {s : Py.Scalar} {d : Py.Number} (h : (Py.Value.scalar s).number? = some d) :
    d.toScalar = s := by
  cases s <;> cases h <;> rfl

/-- The operand of a count is a number. -/
theorem number_eq_ok {v : Py.Value} {n : Py.Number} : number v = .ok n ↔ v.number? = some n := by
  rw [number]
  cases v.number? with
  | none => exact iff_of_false nofun nofun
  | some m => exact ⟨fun h => congrArg some (Except.ok.inj h), fun h => congrArg Except.ok (Option.some.inj h)⟩

theorem arithmetic_eq_ok {op : Py.Number → Py.Number → Option Py.Number}
    (h : arithmetic op effect state = .ok state') :
    ∃ n d r, ((state effect.path).getD (.scalar (.int 0))).number? = some n ∧
      (operand effect.value).number? = some d ∧ op n d = some r ∧
        state' = Function.update state effect.path (some (.scalar r.toScalar)) := by
  obtain ⟨n, hn, h⟩ := Imp.except_bind_eq_ok.mp h
  obtain ⟨d, hd, h⟩ := Imp.except_bind_eq_ok.mp h
  split at h
  · next r hr =>
      cases h
      exact ⟨n, d, r, number_eq_ok.mp hn, number_eq_ok.mp hd, hr, rfl⟩
  · cases h

/-- A fact with the operand as its object says what a count leaves exactly if the count gives the operand. -/
theorem saysOf_arithmetic {op : Py.Number → Py.Number → Option Py.Number}
    (hpredicate : f.predicate.val = lastSegment effect.path) (hobject : f.object = effect.value)
    (h : arithmetic op effect state = .ok state') : SaysOf f effect.path state' ↔ GivesOperand op effect state := by
  obtain ⟨n, d, r, hn, hd, hr, rfl⟩ := arithmetic_eq_ok h
  rw [SaysOf, Function.update_self, and_iff_right hpredicate]
  change r.toScalar.eq f.object.val = true ↔ _
  rw [hobject, ← toScalar_of_number? hd]
  constructor
  · intro heq n' d' r' hn' hd' hr'
    rw [hn, Option.some.injEq] at hn'
    rw [hd, Option.some.injEq] at hd'
    rw [← hn', ← hd', hr, Option.some.injEq] at hr'
    rw [← hr', ← hd']
    exact heq
  · exact fun hgives => hgives n d r hn hd hr

/-- A fact with the operand as its object says what the effect leaves exactly if that is the operand. -/
theorem saysOf_iff (hpredicate : f.predicate.val = lastSegment effect.path) (hobject : f.object = effect.value)
    (h : applyEffect state effect = .ok state') : SaysOf f effect.path state' ↔ LeavesOperand effect state := by
  rw [LeavesOperand]
  cases hoperation : effect.operation with
  | set =>
      rw [applyEffect, hoperation] at h
      cases h
      rw [SaysOf, Function.update_self, hobject]
      exact iff_of_true ⟨hpredicate, eq_self effect.value⟩ trivial
  | add =>
      rw [applyEffect_add hoperation] at h
      cases h
      rw [SaysOf, Function.update_self, hobject]
      exact iff_of_true
        ⟨hpredicate, _, List.mem_append_right _ (List.mem_singleton.mpr rfl), eq_self effect.value⟩ trivial
  | remove =>
      rw [applyEffect_remove hoperation] at h
      cases h
      rw [SaysOf, Function.update_self, hobject, and_iff_right hpredicate]
  | increment =>
      rw [applyEffect, hoperation] at h
      exact saysOf_arithmetic hpredicate hobject h
  | decrement =>
      rw [applyEffect, hoperation] at h
      exact saysOf_arithmetic hpredicate hobject h

theorem exists_arithmetic {op : Py.Number → Py.Number → Option Py.Number} {n d r : Py.Number}
    (hn : ((state effect.path).getD (.scalar (.int 0))).number? = some n)
    (hd : (operand effect.value).number? = some d) (hr : op n d = some r) :
    ∃ state', arithmetic op effect state = .ok state' := by
  refine ⟨Function.update state effect.path (some (.scalar r.toScalar)), ?_⟩
  rw [arithmetic, number_eq_ok.mpr hn, number_eq_ok.mpr hd]
  dsimp only [bind, Except.bind]
  rw [hr]
  rfl

/-- An effect that cannot be applied leaves nothing else than its operand. -/
theorem leavesOperand_of_error (h : ∀ state', applyEffect state effect ≠ .ok state') :
    LeavesOperand effect state := by
  rw [LeavesOperand]
  cases hoperation : effect.operation with
  | set => trivial
  | add => trivial
  | remove => exact absurd (applyEffect_remove hoperation) (h _)
  | increment =>
      intro n d r hn hd hr
      obtain ⟨state', happly⟩ := exists_arithmetic hn hd hr
      exact absurd (by rw [applyEffect, hoperation]; exact happly) (h state')
  | decrement =>
      intro n d r hn hd hr
      obtain ⟨state', happly⟩ := exists_arithmetic hn hd hr
      exact absurd (by rw [applyEffect, hoperation]; exact happly) (h state')

/-- An increment by an integer gives the operand exactly from zero. -/
theorem givesOperand_add_iff {n d : ℤ} (hn : (state effect.path).getD (.scalar (.int 0)) = .scalar (.int n))
    (hd : effect.value.val = .int d) : GivesOperand Py.Number.add effect state ↔ n = 0 := by
  have hplace : (Py.Scalar.int (n + d)).eq (.int d) = true ↔ n = 0 := by
    rw [Py.Scalar.eq_iff]
    simp only [Py.Scalar.key, Py.intPosition, Py.Key.number.injEq, Py.Position.at.injEq, ne_eq, reduceCtorEq,
      not_false_eq_true, and_true]
    rw [mul_eq_mul_right_iff, or_iff_left (by positivity)]
    omega
  rw [GivesOperand, hn, operand, hd]
  constructor
  · exact fun h => hplace.mp (h (.int n) (.int d) (.int (n + d)) rfl rfl rfl)
  · rintro h n' d' r hn' hd' hr
    cases hn'
    cases hd'
    cases hr
    exact hplace.mpr h

/-! ## Flows -/

variable [Sha256] {flow : TelemetryFlow} {evidence : Registry} {transition : TransitionFragment}
  {facts : List Fact}

/-- The fact of a delta has its operand as the object. -/
theorem saysOf_of_mem_zip (h : transitionFromFlow flow evidence = .ok (transition, facts))
    {e : StateDelta × Fact} (he : e ∈ flow.deltas.zip facts) (happly : applyEffect state e.1.effect = .ok state') :
    SaysOf e.2 e.1.effect.path state' ↔ LeavesOperand e.1.effect state := by
  obtain ⟨-, hfacts⟩ := transitionFromFlow_eq_ok h
  have hfact := (List.forall₂_iff_zip.mp (Imp.forall₂_of_mapM hfacts)).2 he
  obtain ⟨-, -, hpredicate, hobject, -⟩ := Fact.create_eq_ok (mapError_eq_ok.mp hfact)
  exact saysOf_iff (hpredicate.trans (strip_lastSegment _)) hobject happly

theorem leavesOperand_of_truthful (h : transitionFromFlow flow evidence = .ok (transition, facts))
    (htruthful : Truthful flow transition facts) : ∀ delta ∈ flow.deltas, ∀ state,
      allConditions transition.preconditions state = true → LeavesOperand delta.effect state := by
  intro delta hdelta state hmeets
  have hlength := Imp.length_mapM (transitionFromFlow_eq_ok h).2
  rw [← List.map_fst_zip (le_of_eq hlength.symm)] at hdelta
  obtain ⟨e, he, rfl⟩ := List.mem_map.mp hdelta
  by_cases happly : ∃ state', applyEffect state e.1.effect = .ok state'
  · obtain ⟨state', happly⟩ := happly
    exact (saysOf_of_mem_zip h he happly).mp (htruthful e he state hmeets state' happly)
  · exact leavesOperand_of_error fun state' heq => happly ⟨state', heq⟩

/-- The facts of a flow are truthful exactly if its effects leave their operands from every state that meets the
preconditions. -/
theorem truthful_iff (h : transitionFromFlow flow evidence = .ok (transition, facts)) :
    Truthful flow transition facts ↔ ∀ delta ∈ flow.deltas, ∀ state,
      allConditions transition.preconditions state = true → LeavesOperand delta.effect state := by
  refine ⟨leavesOperand_of_truthful h, fun hleaves e he state hmeets state' happly => ?_⟩
  exact (saysOf_of_mem_zip h he happly).mpr (hleaves e.1 (List.of_mem_zip he).1 state hmeets)

/-! ## A counter -/

def items : StatePath := ⟨"cart.items", by decide +kernel⟩

omit [Sha256] in
theorem isFinite_one : isFinite (.int 1) = true := rfl

def one : JsonScalar := ⟨.int 1, isFinite_one⟩

/-- Runtime evidence of a kind. -/
def runtimeRecord (id : String) (hid : isContractId id = true) (kind : EvidenceKind) : EvidenceRecord :=
  ⟨⟨id, hid⟩, kind, .trustedRuntime, ⟨0⟩⟩

def traceRecord : EvidenceRecord := runtimeRecord "evidence.trace" (by decide) .otelTrace

def diffRecord : EvidenceRecord := runtimeRecord "evidence.diff" (by decide) .databaseDiff

/-- What a record shows. -/
def shownBy (record : EvidenceRecord) : Observed :=
  ⟨⟨.observed, [record.evidenceId], none, none, fun _ => nofun, fun h => absurd h (by decide),
    List.nodup_singleton _, Provenance.unversioned⟩, rfl⟩

omit [Sha256] in
theorem isContractId_cart : isContractId "resource.cart" = true := by decide

/-- One more item in a cart that is not empty. -/
def addItem : StateDelta where
  deltaId := ⟨"delta.items", by decide⟩
  subject := ⟨"resource.cart", isContractId_cart⟩
  precondition := ⟨items, .ge, one, none, nofun, fun _ => by decide⟩
  effect := ⟨items, .increment, one, rfl⟩
  observable := ⟨items, .exists_, .none, none, StateCondition.bare_existence, StateCondition.bare_comparison⟩
  observed := shownBy diffRecord
  observedAt := ⟨0⟩

omit [Sha256] in
theorem replayed_once : 1 ≤ 1 := le_refl 1

def shopping : TelemetryFlow where
  transitionId := ⟨"transition.shopping", by decide⟩
  name := "shopping"
  action := .timeAdvance ⟨1000, by decide⟩
  deltas := [addItem]
  observed := shownBy traceRecord
  fidelity := { database := .observed }
  replayed := replayed_once
  named := by decide
  deltasNonempty := List.cons_ne_nil _ _
  deltasUnique := List.nodup_singleton _
  observedFidelity := rfl

/-- A cart with one item. -/
def cart : State := Function.update (fun _ => none) items (some (.scalar (.int 1)))

omit [Sha256] in
theorem exists_shopping : ∃ transition facts,
    @transitionFromFlow Sha2.sha256 shopping (registry [traceRecord, diffRecord]) = .ok (transition, facts) := by
  have h : (@transitionFromFlow Sha2.sha256 shopping (registry [traceRecord, diffRecord])).isOk = true := by
    decide +kernel
  cases hflow : @transitionFromFlow Sha2.sha256 shopping (registry [traceRecord, diffRecord]) with
  | ok result => exact ⟨result.1, result.2, rfl⟩
  | error e =>
      rw [hflow] at h
      cases h

omit [Sha256] in
/-- With one item more there are two, but the fact says that there is one. -/
theorem not_truthful_shopping : ∃ transition facts,
    @transitionFromFlow Sha2.sha256 shopping (registry [traceRecord, diffRecord]) = .ok (transition, facts) ∧
      ¬Truthful shopping transition facts := by
  let _ := Sha2.sha256
  obtain ⟨transition, facts, hflow⟩ := exists_shopping
  refine ⟨transition, facts, hflow, fun htruthful => ?_⟩
  obtain ⟨rfl, -⟩ := transitionFromFlow_eq_ok hflow
  have hleaves : LeavesOperand addItem.effect cart :=
    leavesOperand_of_truthful hflow htruthful addItem List.mem_cons_self cart (by decide +kernel)
  have hone : (cart addItem.effect.path).getD (.scalar (.int 0)) = .scalar (.int 1) := by decide
  exact absurd ((givesOperand_add_iff hone rfl).mp hleaves) one_ne_zero

omit [Sha256] in
theorem truthful_iff_shopping : ∃ transition facts,
    @transitionFromFlow Sha2.sha256 shopping (registry [traceRecord, diffRecord]) = .ok (transition, facts) ∧
      (Truthful shopping transition facts ↔ ∀ delta ∈ shopping.deltas, ∀ state,
        allConditions transition.preconditions state = true → LeavesOperand delta.effect state) := by
  obtain ⟨transition, facts, hflow⟩ := exists_shopping
  exact ⟨transition, facts, hflow, @truthful_iff Sha2.sha256 _ _ _ _ hflow⟩

end StateWeaver.Twin
