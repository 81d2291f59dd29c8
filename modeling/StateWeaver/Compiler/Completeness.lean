import StateWeaver.Compiler.Soundness

/-!
# What the compiler does not miss

`Valid` is an ordering of fragments that a request admits, however it was found. The compiler finds one
if the scheduler would take the fragments in that order, or if fragments that are ready together do
not disturb each other, so that the order among them is immaterial (`Schedulable`). The orderings that
it misses are in `Demo.not_complete`.
-/

namespace StateWeaver.Compiler

open Contracts

/-! ## Orderings -/

/-- A valid execution that reaches the goal. -/
structure Valid (root : RootState) (initial : State) (goal : TerminalGoal)
    (l : List CompilerFragment) : Prop where
  compatible : EffectsCompatible l
  reaches : ∃ final, planning.Executes (rootConfig root initial) l final ∧
    allConditions goal.conditions final.state = true

instance (root : RootState) (initial : State) (goal : TerminalGoal) (l : List CompilerFragment) :
    Decidable (Valid root initial goal l) :=
  decidable_of_iff (EffectsCompatible l ∧ (planning.execute (rootConfig root initial) l).any
      (fun final => allConditions goal.conditions final.state) = true) (by
    rw [Option.any_eq_true]
    constructor
    · rintro ⟨hcompatible, final, hexecute, hgoal⟩
      exact ⟨hcompatible, final, Planning.executes_iff_execute.mpr hexecute, hgoal⟩
    · rintro ⟨hcompatible, final, hexecutes, hgoal⟩
      exact ⟨hcompatible, final, Planning.executes_iff_execute.mp hexecutes, hgoal⟩)

/-- The orderings that the scheduler does not miss: its own, and those of fragments that do not
disturb each other. -/
def Schedulable (root : RootState) (initial : State) (l : List CompilerFragment) : Prop :=
  (∃ final, planning.Greedy CompilerFragment.fragmentId (rootConfig root initial) l final) ∨
    planning.Undisturbed (rootConfig root initial) l

variable {root : RootState} {initial : State} {goal : TerminalGoal}
  {fragments nodes l : List CompilerFragment}

/-- A plan is a valid execution. -/
theorem Plan.valid (h : Plan root initial goal l) : Valid root initial goal l := by
  obtain ⟨final, hgreedy, hgoal⟩ := h.reaches
  exact ⟨h.compatible, final, hgreedy.executes, hgoal⟩

/-- The fragments of a valid execution that is schedulable have a plan. -/
theorem Valid.exists_plan (h : Valid root initial goal l) (hschedulable : Schedulable root initial l) :
    ∃ l', l'.Perm l ∧ Plan root initial goal l' := by
  obtain ⟨final, hexecutes, hgoal⟩ := h.reaches
  rcases hschedulable with ⟨final', hgreedy⟩ | hundisturbed
  · rw [hexecutes.deterministic hgreedy.executes] at hgoal
    exact ⟨l, List.Perm.refl l, h.compatible, final', hgreedy, hgoal⟩
  · obtain ⟨l', hperm, hgreedy⟩ :=
      Planning.exists_greedy CompilerFragment.fragmentId hexecutes hundisturbed
    exact ⟨l', hperm, h.compatible.subset hperm.subset, final, hgreedy, hgoal⟩

/-- Among the subsets that are tried, one has the fragments of a given list. -/
theorem exists_candidateSet {relevant : List CompilerFragment} (hnodup : l.Nodup)
    (hsub : l ⊆ relevant) (hnonempty : l ≠ []) :
    ∃ selected ∈ candidateSets relevant, selected.Perm l := by
  obtain ⟨selected, hperm, hsublist⟩ := List.subperm_of_subset hnodup hsub
  refine ⟨selected, mem_candidateSets.mpr ⟨hsublist, fun hnil => hnonempty ?_⟩, hperm⟩
  rw [hnil] at hperm
  exact hperm.symm.eq_nil

/-- A subset of the relevant fragments that a valid, schedulable execution takes passes. -/
theorem Valid.exists_attempt {selected : List CompilerFragment} (h : Valid root initial goal l)
    (hschedulable : Schedulable root initial l) (hunique : UniqueIds nodes)
    (hselected : selected ∈ candidateSets (relevantNodes nodes goal)) (hperm : selected.Perm l) :
    ∃ simulation, attempt initial root.clockMs goal selected = .ok simulation := by
  obtain ⟨l', hl', hplan⟩ := h.exists_plan hschedulable
  have hsub := (mem_candidateSets.mp hselected).1.trans (List.filter_sublist (l := nodes))
  exact Compiler.exists_attempt (hunique.sublist hsub) (hl'.trans hperm.symm) hplan

/-! ## Which exceptions are raised -/

/-- What a simulation raises when a number is too large. -/
def overflow : Exc := .overflowError "int too large to convert to float"

theorem raisesOnly_number (value : Py.Value) :
    Imp.RaisesOnly (fun e => e.isCompilationError = true ∨ e = overflow) (number value) := by
  rw [number]
  split
  · exact Imp.raisesOnly_ok
  · exact Imp.raisesOnly_error (Or.inl rfl)

theorem raisesOnly_arithmetic (op : Py.Number → Py.Number → Option Py.Number) (effect : StateEffect)
    (state : State) :
    Imp.RaisesOnly (fun e => e.isCompilationError = true ∨ e = overflow)
      (arithmetic op effect state) := by
  refine Imp.raisesOnly_bind (raisesOnly_number _) fun current _ => ?_
  refine Imp.raisesOnly_bind (raisesOnly_number _) fun change _ => ?_
  split
  · exact Imp.raisesOnly_ok
  · exact Imp.raisesOnly_error (Or.inr rfl)

theorem raisesOnly_applyEffect (state : State) (effect : StateEffect) :
    Imp.RaisesOnly (fun e => e.isCompilationError = true ∨ e = overflow)
      (applyEffect state effect) := by
  rw [applyEffect]
  split
  · exact Imp.raisesOnly_ok
  · exact Imp.raisesOnly_ok
  · exact Imp.raisesOnly_ok
  · exact raisesOnly_arithmetic _ effect state
  · exact raisesOnly_arithmetic _ effect state

theorem raisesOnly_scheduleLoop (rounds : Nat) (simulation : Simulation)
    (remaining : List CompilerFragment) :
    Imp.RaisesOnly (fun e => e.isCompilationError = true ∨ e = overflow)
      (scheduleLoop rounds simulation remaining) := by
  induction rounds generalizing simulation remaining with
  | zero => exact Imp.raisesOnly_ok
  | succ rounds ih =>
      cases remaining with
      | nil => exact Imp.raisesOnly_ok
      | cons node rest =>
          rw [scheduleLoop]
          split
          · refine Imp.raisesOnly_error (Or.inl ?_)
            rw [blocked]
            split
            · rfl
            · split <;> rfl
          · refine Imp.raisesOnly_bind ?_ fun simulation' _ => ih simulation' _
            refine Imp.raisesOnly_bind ?_ fun state _ => Imp.raisesOnly_ok
            exact Imp.raisesOnly_foldlM fun state effect => raisesOnly_applyEffect state effect

/-- A subset that does not pass is a verdict, unless a number overflows. -/
theorem raisesOnly_attempt (clockMs : Nat) (selected : List CompilerFragment) :
    Imp.RaisesOnly (fun e => e.isCompilationError = true ∨ e = overflow)
      (attempt initial clockMs goal selected) := by
  refine Imp.raisesOnly_bind (Imp.raisesOnly_bind ?_ fun _ _ => Imp.raisesOnly_ok) fun _ _ => ?_
  · refine Imp.raisesOnly_foldlM fun values node => Imp.raisesOnly_foldlM fun values effect => ?_
    rw [assertEffect]
    split
    · exact Imp.raisesOnly_bind (Imp.raisesOnly_require (Or.inl rfl)) fun _ _ => Imp.raisesOnly_ok
    · exact Imp.raisesOnly_ok
  · refine Imp.raisesOnly_bind (raisesOnly_scheduleLoop _ _ _) fun simulation _ => ?_
    exact Imp.raisesOnly_bind (Imp.raisesOnly_require (Or.inl rfl)) fun _ _ => Imp.raisesOnly_ok

/-- The exceptions that leave `compile` without being a verdict on the fragments: a simulation met a
number that is too large, a value could not be serialized to be hashed, or the chain was to have an
identifier that is none. -/
def RaisedBeside (chainId : String) (e : Exc) : Prop :=
  e = overflow ∨ (∃ message, e = .valueError message) ∨
    (Constrained.ofString? chainId : Option ContractId) = none ∧
      e = .validationError "chain_id does not match its pattern"

theorem raisesOnly_digested {P : Exc → Prop} (h : ∀ message, P (.valueError message))
    (digest : Except String Sha256Digest) : Imp.RaisesOnly P (digested digest) := by
  cases digest with
  | ok digest => exact Imp.raisesOnly_ok
  | error message => exact Imp.raisesOnly_error (h message)

/-- A simulation of fragments is assembled without an objection to the shape of the chain. -/
theorem raisesOnly_assemble [ModelDigest] {chainId : String} {simulation : Simulation}
    (hnonempty : simulation.ordered ≠ []) (hunique : UniqueIds simulation.ordered) :
    Imp.RaisesOnly (RaisedBeside chainId) (assemble chainId root goal simulation) := by
  have hvalue : ∀ message, RaisedBeside chainId (.valueError message) :=
    fun message => Or.inr (Or.inl ⟨message, rfl⟩)
  refine Imp.raisesOnly_bind (raisesOnly_digested hvalue _) fun rootStateHash _ => ?_
  refine Imp.raisesOnly_bind ?_ fun hashes hhashes => ?_
  · exact Imp.raisesOnly_mapM fun item _ => raisesOnly_digested hvalue _
  refine Imp.raisesOnly_bind (raisesOnly_digested hvalue _) fun causalHash hcausal => ?_
  split
  · next hchainId => exact Imp.raisesOnly_error (Or.inr (Or.inr ⟨hchainId, rfl⟩))
  · refine Imp.raisesOnly_bind_of_ok (a := ()) (Imp.require_eq_ok.mpr ⟨?_, ?_, ?_⟩) ?_
    · rwa [ne_eq, List.map_eq_nil_iff]
    · rw [List.length_map, List.length_mapIdx]
    · rw [List.length_map, Imp.length_mapM hhashes]
    refine Imp.raisesOnly_bind_of_ok (a := ()) (Imp.require_eq_ok.mpr hunique) ?_
    refine Imp.raisesOnly_bind_of_ok hcausal ?_
    exact Imp.raisesOnly_bind_of_ok (a := ()) (Imp.require_eq_ok.mpr rfl) Imp.raisesOnly_ok

/-! ## Completeness -/

section Compile

variable [ModelDigest] [SetOrder] {chainId : String}

/-- A request with a valid, schedulable execution of relevant fragments is compiled. -/
theorem compile_of_valid (hadmitted : admitRoot root fragments = .ok (nodes, initial))
    (hrelevant : l ⊆ relevantNodes nodes goal) (hnonempty : l ≠ []) (hnodup : l.Nodup)
    (hvalid : Valid root initial goal l) (hschedulable : Schedulable root initial l) :
    (∃ chain, compile chainId root fragments goal = .ok chain) ∨
      ∃ e, compile chainId root fragments goal = .error e ∧ RaisedBeside chainId e := by
  obtain ⟨-, hunique, -⟩ := admitRoot_eq_ok hadmitted
  obtain ⟨selected, hselected, hperm⟩ := exists_candidateSet hnodup hrelevant hnonempty
  obtain ⟨simulation, hattempt⟩ := hvalid.exists_attempt hschedulable hunique hselected hperm
  have hsome : relevantNodes nodes goal ≠ [] := fun hnil =>
    hnonempty (List.subset_nil.mp (hnil ▸ hrelevant))
  -- What is left of `compile` once the request is admitted and something is relevant.
  have hcompile : compile chainId root fragments goal =
      firstPlan initial root.clockMs goal {} (candidateSets (relevantNodes nodes goal)) >>=
        Sum.elim (assemble chainId root goal)
          fun failures => .error (report (relevantNodes nodes goal) initial failures) := by
    rw [compile, hadmitted]
    show (Imp.require (relevantNodes nodes goal ≠ []) _ >>= _) = _
    rw [Imp.require, if_pos hsome]
    change (firstPlan _ _ _ _ _ >>= _) = _
    refine bind_congr fun found => ?_
    cases found with
    | inl simulation => rfl
    | inr failures => rfl
  have honly : Imp.RaisesOnly (RaisedBeside chainId) (compile chainId root fragments goal) := by
    rw [hcompile]
    refine Imp.raisesOnly_bind ?_ ?_
    · intro e he
      obtain ⟨hverdict, set, -, hraised⟩ := firstPlan_eq_error he
      rcases raisesOnly_attempt _ _ e hraised with htrue | hoverflow
      · rw [hverdict] at htrue
        cases htrue
      · exact Or.inl hoverflow
    · intro found hfound
      cases found with
      | inl found =>
          obtain ⟨before, chosen, after, hsets, -, hchosen⟩ := firstPlan_eq_inl hfound
          have hmem : chosen ∈ candidateSets (relevantNodes nodes goal) := by
            rw [hsets]
            exact List.mem_append_right _ List.mem_cons_self
          obtain ⟨hsub, hchosenNonempty⟩ := mem_candidateSets.mp hmem
          obtain ⟨hordered, -⟩ := plan_of_attempt hchosen
          refine raisesOnly_assemble (fun hnil => hchosenNonempty ?_) ?_
          · rw [hnil] at hordered
            exact hordered.symm.eq_nil
          · exact (hunique.sublist (hsub.trans List.filter_sublist)).perm hordered.symm
      | inr failures =>
          obtain ⟨e, he⟩ := firstPlan_eq_inr hfound selected hselected
          rw [hattempt] at he
          cases he
  cases hresult : compile chainId root fragments goal with
  | ok chain => exact Or.inl ⟨chain, rfl⟩
  | error e => exact Or.inr ⟨e, rfl, honly e hresult⟩

end Compile

end StateWeaver.Compiler

namespace StateWeaver.Compiler.Demo

open Contracts

/-- The state of a root whose conditions are consistent. -/
def initialOf (root : RootState) : State :=
  (stateFromConditions root.conditions).toOption.getD fun _ => none

theorem stateFromConditions_eq {root : RootState}
    (h : (stateFromConditions root.conditions).toOption.isSome = true) :
    stateFromConditions root.conditions = .ok (initialOf root) := by
  rw [initialOf]
  cases hstate : stateFromConditions root.conditions with
  | ok state => rfl
  | error e =>
      rw [hstate] at h
      cases h

theorem admit_eq {root : RootState} {fragments nodes : List CompilerFragment}
    (h : (admitRoot root fragments).toOption.map Prod.fst = some nodes) :
    admitRoot root fragments = .ok (nodes, initialOf root) := by
  cases hadmitted : admitRoot root fragments with
  | ok admitted =>
      obtain ⟨nodes', initial⟩ := admitted
      rw [hadmitted] at h
      cases h
      have hinitial := (admitRoot_eq_ok hadmitted).2.2
      rw [initialOf, hinitial]
      rfl
  | error e =>
      rw [hadmitted] at h
      cases h

attribute [local instance] modelDigest setOrder

theorem compile_inTurn :
    (∃ chain, compile "chain.demo" (rootOf [isTrue started]) inTurn (goalOf (isTrue finished) []) =
        .ok chain) ∨
      ∃ e, compile "chain.demo" (rootOf [isTrue started]) inTurn (goalOf (isTrue finished) []) =
        .error e ∧ RaisedBeside "chain.demo" e := by
  have hadmitted : admitRoot (rootOf [isTrue started]) inTurn =
      .ok (inTurn, initialOf (rootOf [isTrue started])) :=
    admit_eq (by decide +kernel)
  have hgreedy : ∃ final, planning.Greedy CompilerFragment.fragmentId
      (rootConfig (rootOf [isTrue started]) (initialOf (rootOf [isTrue started])))
      [fragment idB (isTrue started) (setTrue ready) [],
        fragment idA (isTrue ready) (setTrue finished) []] final := by
    refine ⟨_, .cons ?_ rfl ?_ (.cons ?_ rfl ?_ .nil)⟩
    all_goals decide +kernel
  exact compile_of_valid (l := inTurn.reverse) hadmitted (by decide +kernel) (by decide +kernel)
    (by decide +kernel) (by decide +kernel) (Or.inl hgreedy)

/-- The first fragment takes away what the second one needs. -/
def outOfTurn : List CompilerFragment :=
  [fragment idA (isTrue started) (setTrue finished) [remove ready],
    fragment idB (isTrue ready) (setTrue served) []]

/-- `path` exists. -/
def exists_ (path : StatePath) : StateCondition :=
  ⟨path, .exists_, .none, none, fun _ => ⟨rfl, rfl⟩, nofun⟩

/-- An integer that no float can hold. -/
def large : JsonScalar := ⟨.int (2 ^ 1024), rfl⟩

/-- A root with such an integer under `ready`. -/
def largeRoot : RootState := rootOf [isTrue started, ⟨ready, .eq, large, none, nofun, by decide⟩]

/-- A fragment that adds a float to the integer under `ready`. -/
def adding : CompilerFragment :=
  fragment idA (isTrue started) (setTrue started)
    [⟨ready, .increment, ⟨.float 0.5, by decide +kernel⟩, by decide +kernel⟩]

/-- Valid orderings that are missed: one that is not in the order of the identifiers, one whose
fragment sets a path that the goal only wants to exist, the one without a fragment, one next to a
fragment that overflows, and one whose chain would have no proper identifier. -/
theorem not_complete :
    (Valid (rootOf [isTrue started, isTrue ready]) (initialOf (rootOf [isTrue started, isTrue ready]))
        (goalOf (isTrue finished) [isTrue served]) outOfTurn.reverse ∧
      compile "chain.demo" (rootOf [isTrue started, isTrue ready]) outOfTurn
        (goalOf (isTrue finished) [isTrue served]) = .error (.compilationError .goalUnreachable none)) ∧
    (Valid (rootOf [isTrue started]) (initialOf (rootOf [isTrue started]))
        (goalOf (exists_ ready) []) [fragment idA (isTrue started) (setTrue ready) []] ∧
      compile "chain.demo" (rootOf [isTrue started])
        [fragment idA (isTrue started) (setTrue ready) []] (goalOf (exists_ ready) []) =
          .error (.compilationError .goalUnreachable none)) ∧
    (Valid (rootOf [isTrue ready]) (initialOf (rootOf [isTrue ready])) (goalOf (isTrue ready) []) [] ∧
      compile "chain.demo" (rootOf [isTrue ready])
        [fragment idA (isTrue started) (setTrue finished) []] (goalOf (isTrue ready) []) =
          .error (.compilationError .goalUnreachable none)) ∧
    (Valid largeRoot (initialOf largeRoot) (goalOf (isTrue finished) [])
        [fragment idB (isTrue started) (setTrue finished) []] ∧
      compile "chain.demo" largeRoot [adding, fragment idB (isTrue started) (setTrue finished) []]
        (goalOf (isTrue finished) []) = .error overflow) ∧
    Valid (rootOf [isTrue started]) (initialOf (rootOf [isTrue started]))
        (goalOf (isTrue finished) []) inTurn.reverse ∧
      compile "chain" (rootOf [isTrue started]) inTurn (goalOf (isTrue finished) []) =
        .error (.validationError "chain_id does not match its pattern") := by
  decide +kernel

end StateWeaver.Compiler.Demo
