import StateWeaver.Compiler.Completeness

/-!
# Minimality of chains

The subsets are tried by size, so the chain comes from a smallest subset that passes. A remainder of
the chain would be a smaller subset, and it would have passed if it had a valid execution that the
scheduler does not miss. It can have one that the scheduler misses: see `Demo.not_minimal`.
-/

namespace StateWeaver.Compiler

open Contracts

/-- The subsets are tried by size. -/
theorem pairwise_candidateSets (relevant : List CompilerFragment) :
    (candidateSets relevant).Pairwise fun set set' => set.length ≤ set'.length := by
  rw [candidateSets, List.pairwise_flatMap]
  constructor
  · intro size _
    refine List.pairwise_of_forall_mem_list fun set hset set' hset' => ?_
    rw [(List.mem_combinations.mp hset).2, (List.mem_combinations.mp hset').2]
  · refine List.Pairwise.imp ?_ List.pairwise_lt_range'
    intro size size' hlt set hset set' hset'
    rw [(List.mem_combinations.mp hset).2, (List.mem_combinations.mp hset').2]
    exact le_of_lt hlt

/-- A smaller subset is tried before. -/
theorem mem_before_of_length_lt {relevant set selected : List CompilerFragment}
    {before after : List (List CompilerFragment)}
    (hsets : candidateSets relevant = before ++ selected :: after) (hset : set ∈ candidateSets relevant)
    (hlength : set.length < selected.length) : set ∈ before := by
  have hpairwise := pairwise_candidateSets relevant
  rw [hsets, List.pairwise_append] at hpairwise
  rw [hsets] at hset
  rcases List.mem_append.mp hset with hbefore | htail
  · exact hbefore
  · rcases List.mem_cons.mp htail with heq | hafter
    · rw [heq] at hlength
      exact absurd hlength (lt_irrefl _)
    · have hle := (List.pairwise_cons.mp hpairwise.2.1).1 set hafter
      omega

section Compile

variable [ModelDigest] [SetOrder] {chainId : String} {root : RootState}
  {fragments : List CompilerFragment} {goal : TerminalGoal} {chain : CompiledChain}

/-- No part of a chain that is returned is a valid execution that the scheduler does not miss. -/
theorem minimal_of_compile (h : compile chainId root fragments goal = .ok chain) :
    ∃ ordered initial, Realizes root fragments goal chain ordered ∧
      stateFromConditions root.conditions = .ok initial ∧
      ∀ remainder, remainder.Sublist ordered → remainder ≠ ordered → remainder ≠ [] →
        Schedulable root initial remainder → ¬ Valid root initial goal remainder := by
  obtain ⟨nodes, initial, before, selected, after, simulation, hadmitted, hsets, hbefore, hattempt,
    hchain⟩ := compile_eq_ok h
  obtain ⟨hnodes, hunique, hinitial⟩ := admitRoot_eq_ok hadmitted
  have hselected : selected ∈ candidateSets (relevantNodes nodes goal) := by
    rw [hsets]
    exact List.mem_append_right _ List.mem_cons_self
  have hrelevant := (mem_candidateSets.mp hselected).1
  obtain ⟨hperm, -⟩ := plan_of_attempt hattempt
  refine ⟨simulation.ordered, initial, realizes_of_attempt hadmitted hselected hattempt hchain, hinitial,
    fun remainder hsub hproper hnonempty hschedulable hvalid => ?_⟩
  have hids : UniqueIds remainder :=
    ((hunique.sublist (hrelevant.trans List.filter_sublist)).perm hperm.symm).sublist hsub
  obtain ⟨set, hset, hsetPerm⟩ := exists_candidateSet hids.nodup
    (fun f hf => hrelevant.subset (hperm.subset (hsub.subset hf))) hnonempty
  have hlength : set.length < selected.length := by
    have hshorter : remainder.length < simulation.ordered.length :=
      lt_of_le_of_ne hsub.length_le fun heq => hproper (hsub.eq_of_length heq)
    rw [hsetPerm.length_eq, ← hperm.length_eq]
    exact hshorter
  obtain ⟨e, herror⟩ := hbefore set (mem_before_of_length_lt hsets hset hlength)
  obtain ⟨found, hfound⟩ := hvalid.exists_attempt hschedulable hunique hset hsetPerm
  rw [hfound] at herror
  cases herror

end Compile

end StateWeaver.Compiler

namespace StateWeaver.Compiler.Demo

open Contracts

attribute [local instance] modelDigest setOrder

theorem minimal_inTurn :
    ∃ ordered initial, Realizes (rootOf [isTrue started]) inTurn (goalOf (isTrue finished) [])
        (chainOf (rootOf [isTrue started]) (goalOf (isTrue finished) []) inTurn.reverse) ordered ∧
      stateFromConditions [isTrue started] = .ok initial ∧
      ∀ remainder, remainder.Sublist ordered → remainder ≠ ordered → remainder ≠ [] →
        Schedulable (rootOf [isTrue started]) initial remainder →
          ¬ Valid (rootOf [isTrue started]) initial (goalOf (isTrue finished) []) remainder := by
  have hcompile : compile "chain.demo" (rootOf [isTrue started]) inTurn (goalOf (isTrue finished) []) =
      .ok (chainOf (rootOf [isTrue started]) (goalOf (isTrue finished) []) inTurn.reverse) := by
    decide +kernel
  exact minimal_of_compile hcompile

def idC : ContractId := ⟨"fragment.c", by decide +kernel⟩

/-- A fragment that keeps the second one from being executed before the third one. -/
def first : CompilerFragment := fragment idA (isTrue started) (remove ready) [setTrue started]

/-- A fragment that keeps the third one from being executed after it. -/
def second : CompilerFragment := fragment idB (isTrue ready) (setTrue finished) [remove started]

def third : CompilerFragment := fragment idC (isTrue started) (setTrue ready) [setTrue served]

/-- Chains with a part that is enough: without its first fragment, the scheduler would take the other
two in the wrong order; and where the root meets the goal, no fragment is needed. -/
theorem not_minimal :
    (compile "chain.demo" (rootOf [isTrue started, isTrue ready]) [first, second, third]
        (goalOf (isTrue finished) [isTrue served]) =
          .ok (chainOf (rootOf [isTrue started, isTrue ready])
            (goalOf (isTrue finished) [isTrue served]) [first, third, second]) ∧
      Valid (rootOf [isTrue started, isTrue ready]) (initialOf (rootOf [isTrue started, isTrue ready]))
        (goalOf (isTrue finished) [isTrue served]) [third, second]) ∧
    compile "chain.demo" (rootOf [isTrue started]) [fragment idA (isTrue started) (setTrue started) []]
        (goalOf (isTrue started) []) =
          .ok (chainOf (rootOf [isTrue started]) (goalOf (isTrue started) [])
            [fragment idA (isTrue started) (setTrue started) []]) ∧
      Valid (rootOf [isTrue started]) (initialOf (rootOf [isTrue started]))
        (goalOf (isTrue started) []) [] := by
  decide +kernel

end StateWeaver.Compiler.Demo
