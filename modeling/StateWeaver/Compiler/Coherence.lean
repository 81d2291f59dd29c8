import StateWeaver.Compiler.Compiler

/-!
# Effects and the conditions they support

The planner's `effectSupports` and the interpreter's `applyEffect` are two readings of an effect. They agree
on effects that set a value, on existence and on absence. An addition is taken to support every `contains`
of its path, whatever is added, and a removal to support a `notContains`, which does not hold without the
collection. A removal takes away the whole path, also when its value names one member.
-/

namespace StateWeaver.Compiler

open Contracts

/-! ## Specification -/

/-- The members of what is at a path, as an addition reads them. -/
def members : Option Py.Value → List Py.Scalar
  | none => []
  | some (.tuple l) => l
  | some (.scalar s) => [s]

/-- An effect makes true what it supports. -/
def Supports (effect : StateEffect) (condition : StateCondition) (state : State) : Prop :=
  effectSupports effect condition = true →
    ∃ state', applyEffect state effect = .ok state' ∧ conditionMatches condition state' = true

/-- How an effect can be taken to support a condition that does not hold after it. -/
inductive Misjudged (effect : StateEffect) (condition : StateCondition) (state : State) : Prop
  | added (hpath : effect.path = condition.path) (hreference : condition.reference = none)
      (hadd : effect.operation = .add) (hcontains : condition.operator = .contains)
      (habsent : ∀ m ∈ members (state effect.path) ++ [effect.value.val], m.eq condition.value.val = false)
  | removed (hpath : effect.path = condition.path) (hreference : condition.reference = none)
      (hremove : effect.operation = .remove) (hcontains : condition.operator = .notContains)

/-- A removal with a value takes that member from a collection, and changes nothing else. -/
def RemovesMember (effect : StateEffect) (state : State) : Prop :=
  effect.operation = .remove → effect.value ≠ .none → ∃ state', applyEffect state effect = .ok state' ∧
    (∀ path, path ≠ effect.path → state' path = state path) ∧
    ∀ l, state effect.path = some (.tuple l) →
      members (state' effect.path) = l.filter fun m => !m.eq effect.value.val

/-- The value of a removal is not all that a collection has. -/
structure HasOthers (effect : StateEffect) (state : State) : Prop where
  removal : effect.operation = .remove
  named : effect.value ≠ .none
  other : ∃ l, state effect.path = some (.tuple l) ∧ ∃ m ∈ l, m.eq effect.value.val = false

variable {effect : StateEffect} {condition : StateCondition} {state : State}

/-! ## Support -/

theorem conditionMatches_of_none (h : state condition.path = none) :
    conditionMatches condition state = decide (condition.operator = .notExists) := by
  rw [conditionMatches, h]
  cases condition.operator <;> rfl

theorem at_path (h : effect.path = condition.path) (value : Option Py.Value) :
    Function.update state effect.path value condition.path = value := by
  rw [h, Function.update_self]

/-- A `contains` without a reference asks for a member that is equal. -/
theorem conditionMatches_contains {l : List Py.Scalar} (hoperator : condition.operator = .contains)
    (hreference : condition.reference = none) (hvalue : state condition.path = some (.tuple l)) :
    conditionMatches condition state = l.any fun m => m.eq condition.value.val := by
  rw [conditionMatches, hoperator, hvalue, hreference]
  rfl

theorem applyEffect_add (h : effect.operation = .add) : applyEffect state effect =
    .ok (Function.update state effect.path
      (some (.tuple (members (state effect.path) ++ [effect.value.val])))) := by
  rw [applyEffect, h]
  rcases state effect.path with _ | _ | _ <;> rfl

theorem applyEffect_remove (h : effect.operation = .remove) :
    applyEffect state effect = .ok (Function.update state effect.path none) := by
  rw [applyEffect, h]

/-- What an effect supports is a condition of its path without a reference, with the operator for its
operation. -/
theorem effectSupports_eq_true : effectSupports effect condition = true ↔
    effect.path = condition.path ∧ condition.reference = none ∧
      (effect.operation = .set ∧ condition.operator = .eq ∧
          effect.value.val.eq condition.value.val = true ∨
        effect.operation = .add ∧ (condition.operator = .contains ∨ condition.operator = .exists_) ∨
        effect.operation = .remove ∧
          (condition.operator = .notExists ∨ condition.operator = .notContains)) := by
  rw [effectSupports]
  by_cases hother : effect.path ≠ condition.path ∨ condition.reference ≠ none
  · rw [if_pos hother]
    refine iff_of_false nofun fun h => ?_
    exact hother.elim (fun hpath => hpath h.1) fun hreference => hreference h.2.1
  · rw [if_neg hother]
    rw [not_or, not_not, not_not] at hother
    rw [and_iff_right hother.1, and_iff_right hother.2]
    cases hoperation : effect.operation <;> simp

/-- The planner is right about an effect unless it misjudges an addition or a removal. -/
theorem supports_iff : Supports effect condition state ↔ ¬Misjudged effect condition state := by
  constructor
  · rintro hsupports (⟨hpath, hreference, hadd, hcontains, habsent⟩ |
      ⟨hpath, hreference, hremove, hcontains⟩)
    · obtain ⟨state', happly, hmatch⟩ := hsupports (effectSupports_eq_true.mpr
        ⟨hpath, hreference, .inr (.inl ⟨hadd, .inl hcontains⟩)⟩)
      rw [applyEffect_add hadd, Except.ok.injEq] at happly
      subst happly
      rw [conditionMatches_contains hcontains hreference (at_path hpath _)] at hmatch
      obtain ⟨m, hm, heq⟩ := List.any_eq_true.mp hmatch
      rw [habsent m hm] at heq
      cases heq
    · obtain ⟨state', happly, hmatch⟩ := hsupports (effectSupports_eq_true.mpr
        ⟨hpath, hreference, .inr (.inr ⟨hremove, .inr hcontains⟩)⟩)
      rw [applyEffect_remove hremove, Except.ok.injEq] at happly
      subst happly
      rw [conditionMatches_of_none (at_path hpath _), hcontains] at hmatch
      cases hmatch
  · intro hright hsupports
    obtain ⟨hpath, hreference, ⟨hset, heq, hvalue⟩ | ⟨hadd, hoperator⟩ | ⟨hremove, hoperator⟩⟩ :=
      effectSupports_eq_true.mp hsupports
    · refine ⟨_, by rw [applyEffect, hset], ?_⟩
      rw [conditionMatches, heq, hpath, Function.update_self, hreference]
      exact hvalue
    · refine ⟨_, applyEffect_add hadd, ?_⟩
      rcases hoperator with hcontains | hexists
      · rw [conditionMatches_contains hcontains hreference (at_path hpath _)]
        by_contra hnone
        refine hright (.added hpath hreference hadd hcontains fun m hm => ?_)
        exact Bool.not_eq_true _ |>.mp (List.any_eq_false.mp (Bool.not_eq_true _ |>.mp hnone) m hm)
      · rw [conditionMatches, hexists, hpath, Function.update_self]
        rfl
    · refine ⟨_, applyEffect_remove hremove, ?_⟩
      rcases hoperator with hnotExists | hcontains
      · rw [conditionMatches_of_none (at_path hpath _), hnotExists]
        rfl
      · exact absurd (.removed hpath hreference hremove hcontains) hright

/-! ## Removals -/

/-- A removal with a value is of one member exactly if there is no other. -/
theorem removesMember_iff : RemovesMember effect state ↔ ¬HasOthers effect state := by
  constructor
  · rintro hremoves ⟨hremove, hvalue, l, hl, m, hm, hne⟩
    obtain ⟨state', happly, -, hmembers⟩ := hremoves hremove hvalue
    rw [applyEffect_remove hremove, Except.ok.injEq] at happly
    subst happly
    have hfilter := hmembers l hl
    rw [Function.update_self] at hfilter
    have hmem : m ∈ l.filter fun m => !m.eq effect.value.val :=
      List.mem_filter.mpr ⟨hm, by rw [hne]; rfl⟩
    rw [← hfilter] at hmem
    cases hmem
  · intro hnone hremove hvalue
    refine ⟨_, applyEffect_remove hremove, fun path hpath => Function.update_of_ne hpath _ _,
      fun l hl => ?_⟩
    rw [Function.update_self, members, eq_comm, List.filter_eq_nil_iff]
    intro m hm hne
    rw [Bool.not_eq_true'] at hne
    exact hnone ⟨hremove, hvalue, l, hl, m, hm, hne⟩

/-- The two readings of effects agree on all that is not misjudged, and removals are of one member where
there is no other. -/
theorem coherent_iff (effect : StateEffect) (condition : StateCondition) (state : State) :
    (Supports effect condition state ↔ ¬Misjudged effect condition state) ∧
      (RemovesMember effect state ↔ ¬HasOthers effect state) :=
  ⟨supports_iff, removesMember_iff⟩

/-! ## A collection of two -/

def tags : StatePath := ⟨"demo.tags", by decide +kernel⟩

def red : JsonScalar := ⟨.str "red", rfl⟩

def blue : JsonScalar := ⟨.str "blue", rfl⟩

def addRed : StateEffect := ⟨tags, .add, red, rfl⟩

def removeRed : StateEffect := ⟨tags, .remove, red, rfl⟩

def containsBlue : StateCondition := ⟨tags, .contains, blue, none, nofun, fun _ => by decide⟩

def lacksBlue : StateCondition := ⟨tags, .notContains, blue, none, nofun, fun _ => by decide⟩

/-- A state with a collection. -/
def tagged (l : List Py.Scalar) : State := Function.update (fun _ => none) tags (some (.tuple l))

/-- An addition of one member is taken to support that there is another one, a removal that a collection
lacks one, and a removal of one member takes both. -/
theorem not_coherent :
    ¬Supports addRed containsBlue (tagged []) ∧ ¬Supports removeRed lacksBlue (tagged [red.val]) ∧
      ¬RemovesMember removeRed (tagged [red.val, blue.val]) := by
  refine ⟨fun h => ?_, fun h => ?_, fun h => ?_⟩
  · refine supports_iff.mp h (.added rfl rfl rfl rfl ?_)
    decide
  · exact supports_iff.mp h (.removed rfl rfl rfl rfl)
  · exact removesMember_iff.mp h ⟨rfl, by decide, _, Function.update_self .., blue.val, by decide, by decide⟩

end StateWeaver.Compiler
