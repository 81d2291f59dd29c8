import Mathlib
import StateWeaver.Compiler.Compiler
import StateWeaver.Lib.Schedule

/-!
# What the scheduler finds

`planning` says when a fragment can be executed and what it does, without a scheduler. `_schedule`
turns out to be the greedy execution of its fragments: `greedy_of_scheduleLoop` and
`scheduleLoop_of_greedy` translate between a run of its loop and an execution.
-/

namespace StateWeaver.Compiler

open Contracts

/-! ## The planning problem -/

/-- Where an execution is: the state, the clock, and the fragments that have been executed. -/
structure Config where
  state : State
  clockMs : Nat
  done : Finset ContractId

/-- Where an execution starts. -/
def rootConfig (root : RootState) (initial : State) : Config := ⟨initial, root.clockMs, ∅⟩

/-- The executions of fragments: a fragment is ready when all it comes after has been executed, its
preconditions hold and its window is open. -/
def planning : Planning Config CompilerFragment where
  ready c f := (∀ parent ∈ f.after, parent ∈ c.done) ∧
    allConditions f.fragment.preconditions c.state = true ∧
    f.window.opensAtMs ≤ c.clockMs ∧ c.clockMs ≤ f.window.closesAtMs
  take c f := (applyEffects c.state f.fragment.effects).toOption.map fun state =>
    ⟨state, advanceClock c.clockMs f.fragment.action, insert f.fragmentId c.done⟩

instance (c : Config) (f : CompilerFragment) : Decidable (planning.ready c f) :=
  inferInstanceAs (Decidable (_ ∧ _))

/-- Where a simulation is. -/
def Simulation.config (simulation : Simulation) : Config :=
  ⟨simulation.state, simulation.clockMs,
    (simulation.ordered.map CompilerFragment.fragmentId).toFinset⟩

theorem isReady_eq_true {simulation : Simulation} {f : CompilerFragment} :
    isReady simulation f = true ↔ planning.ready simulation.config f := by
  simp only [isReady, afterMet, Bool.and_eq_true, List.all_eq_true, decide_eq_true_eq, planning,
    Simulation.config, List.mem_toFinset, and_assoc]

/-- Where a simulation is after one more fragment. -/
theorem config_append (state : State) (clockMs : Nat) (ordered : List CompilerFragment)
    (f : CompilerFragment) :
    (Simulation.mk state clockMs (ordered ++ [f])).config =
      ⟨state, clockMs, insert f.fragmentId (ordered.map CompilerFragment.fragmentId).toFinset⟩ := by
  rw [Simulation.config, Config.mk.injEq]
  refine ⟨rfl, rfl, Finset.ext fun id => ?_⟩
  simp only [List.map_append, List.map_cons, List.map_nil, List.mem_toFinset, List.mem_append,
    List.mem_singleton, Finset.mem_insert, or_comm]

/-- Executing a fragment takes it. -/
theorem take_of_executeNode {simulation simulation' : Simulation} {f : CompilerFragment}
    (h : executeNode simulation f = .ok simulation') :
    planning.take simulation.config f = some simulation'.config ∧
      simulation'.ordered = simulation.ordered ++ [f] := by
  obtain ⟨state, happly, hret⟩ := Imp.except_bind_eq_ok.mp h
  cases hret
  refine ⟨?_, rfl⟩
  rw [config_append, planning, Option.map_eq_some_iff]
  refine ⟨state, ?_, rfl⟩
  show (applyEffects simulation.state f.fragment.effects).toOption = some state
  rw [happly]
  rfl

/-- A fragment that can be taken is executed. -/
theorem executeNode_of_take {simulation : Simulation} {f : CompilerFragment} {c : Config}
    (h : planning.take simulation.config f = some c) :
    ∃ simulation', executeNode simulation f = .ok simulation' ∧ simulation'.config = c := by
  obtain ⟨state, hstate, rfl⟩ := Option.map_eq_some_iff.mp h
  refine ⟨⟨state, advanceClock simulation.clockMs f.fragment.action, simulation.ordered ++ [f]⟩, ?_,
    config_append _ _ _ _⟩
  rw [executeNode]
  cases hresult : applyEffects simulation.state f.fragment.effects with
  | error e =>
      rw [show simulation.config.state = simulation.state from rfl, hresult] at hstate
      cases hstate
  | ok s =>
      rw [show simulation.config.state = simulation.state from rfl, hresult] at hstate
      cases hstate
      rfl

/-! ## The least fragment -/

theorem leastNode_mem (node : CompilerFragment) (rest : List CompilerFragment) :
    leastNode node rest ∈ node :: rest := by
  induction rest generalizing node with
  | nil => exact List.mem_singleton_self node
  | cons item rest ih =>
      rw [leastNode, List.foldl_cons]
      rcases List.mem_cons.mp (ih (if item.fragmentId < node.fragmentId then item else node)) with
        heq | hmem
      · rw [leastNode] at heq
        rw [heq]
        split
        · exact List.mem_cons_of_mem node List.mem_cons_self
        · exact List.mem_cons_self
      · exact List.mem_cons_of_mem node (List.mem_cons_of_mem item hmem)

theorem leastNode_le (node : CompilerFragment) (rest : List CompilerFragment) :
    ∀ item ∈ node :: rest, (leastNode node rest).fragmentId ≤ item.fragmentId := by
  induction rest generalizing node with
  | nil =>
      intro item hitem
      rw [List.mem_singleton.mp hitem]
      exact le_refl _
  | cons next rest ih =>
      have hle := ih (if next.fragmentId < node.fragmentId then next else node)
      have hhead := hle _ List.mem_cons_self
      intro item hitem
      rw [leastNode, List.foldl_cons]
      rcases List.mem_cons.mp hitem with rfl | hitem
      · refine le_trans hhead ?_
        split
        · next h => exact le_of_lt h
        · exact le_refl _
      rcases List.mem_cons.mp hitem with rfl | hitem
      · refine le_trans hhead ?_
        split
        · exact le_refl _
        · next h => exact le_of_not_gt h
      · exact hle item (List.mem_cons_of_mem _ hitem)

/-! ## The loop -/

/-- Fragments without a repeated identifier. -/
def UniqueIds (l : List CompilerFragment) : Prop := (l.map CompilerFragment.fragmentId).Nodup

theorem UniqueIds.nodup {l : List CompilerFragment} (h : UniqueIds l) : l.Nodup :=
  List.Nodup.of_map _ h

theorem UniqueIds.perm {l l' : List CompilerFragment} (h : UniqueIds l) (hperm : l.Perm l') :
    UniqueIds l' :=
  (hperm.map CompilerFragment.fragmentId).nodup_iff.mp h

theorem UniqueIds.sublist {l l' : List CompilerFragment} (h : UniqueIds l') (hsub : l.Sublist l') :
    UniqueIds l :=
  (hsub.map CompilerFragment.fragmentId).nodup h

theorem UniqueIds.eq_of_fragmentId {l : List CompilerFragment} (h : UniqueIds l)
    {f g : CompilerFragment} (hf : f ∈ l) (hg : g ∈ l) (hid : f.fragmentId = g.fragmentId) : f = g :=
  List.inj_on_of_nodup_map h hf hg hid

/-- A loop that ends has executed its fragments greedily. -/
theorem greedy_of_scheduleLoop {rounds : Nat} {simulation simulation' : Simulation}
    {remaining : List CompilerFragment} (hrounds : remaining.length = rounds)
    (h : scheduleLoop rounds simulation remaining = .ok simulation') :
    ∃ l, l.Perm remaining ∧ simulation'.ordered = simulation.ordered ++ l ∧
      planning.Greedy CompilerFragment.fragmentId simulation.config l simulation'.config := by
  induction rounds generalizing simulation remaining with
  | zero =>
      obtain rfl := List.eq_nil_of_length_eq_zero hrounds
      cases h
      exact ⟨[], List.Perm.refl [], (List.append_nil _).symm, .nil⟩
  | succ rounds ih =>
      cases remaining with
      | nil => cases hrounds
      | cons node rest =>
          rw [scheduleLoop] at h
          split at h
          · cases h
          · next candidate others hready =>
              obtain ⟨next, hexecute, hloop⟩ := Imp.except_bind_eq_ok.mp h
              have hleast := leastNode_mem candidate others
              rw [← hready, List.mem_filter] at hleast
              obtain ⟨hmem, hleastReady⟩ := hleast
              have hshorter : ((node :: rest).erase (leastNode candidate others)).length = rounds := by
                rw [List.length_erase_of_mem hmem, hrounds]
                rfl
              obtain ⟨l, hperm, hordered, hgreedy⟩ := ih hshorter hloop
              obtain ⟨htake, hnext⟩ := take_of_executeNode hexecute
              refine ⟨leastNode candidate others :: l, ?_, ?_, .cons (isReady_eq_true.mp hleastReady)
                htake ?_ hgreedy⟩
              · exact (hperm.cons _).trans (List.perm_cons_erase hmem).symm
              · rw [hordered, hnext, List.append_assoc, List.singleton_append]
              · intro f hf hfready
                refine leastNode_le candidate others f ?_
                rw [← hready, List.mem_filter]
                exact ⟨List.mem_of_mem_erase (hperm.subset hf), isReady_eq_true.mpr hfready⟩

/-- The loop finds the greedy execution of its fragments. -/
theorem scheduleLoop_of_greedy {simulation : Simulation} {remaining l : List CompilerFragment}
    {final : Config} (hunique : UniqueIds remaining) (hperm : l.Perm remaining)
    (h : planning.Greedy CompilerFragment.fragmentId simulation.config l final) :
    ∃ simulation', scheduleLoop remaining.length simulation remaining = .ok simulation' ∧
      simulation'.config = final := by
  induction l generalizing simulation remaining with
  | nil =>
      cases h
      obtain rfl := hperm.symm.eq_nil
      exact ⟨simulation, rfl, rfl⟩
  | cons a l ih =>
      cases h with
      | @cons _ c' _ _ _ hready htake hleast hrest =>
          have hmem : a ∈ remaining := hperm.subset List.mem_cons_self
          cases remaining with
          | nil => cases hmem
          | cons node rest =>
              have hin : a ∈ (node :: rest).filter (isReady simulation) :=
                List.mem_filter.mpr ⟨hmem, isReady_eq_true.mpr hready⟩
              rw [List.length_cons, scheduleLoop]
              cases hfilter : (node :: rest).filter (isReady simulation) with
              | nil =>
                  rw [hfilter] at hin
                  cases hin
              | cons candidate others =>
                  -- The least ready fragment is the one the greedy execution takes.
                  have hfound : leastNode candidate others = a := by
                    have hchosen := leastNode_mem candidate others
                    rw [← hfilter, List.mem_filter] at hchosen
                    refine hunique.eq_of_fragmentId hchosen.1 hmem (le_antisymm ?_ ?_)
                    · exact leastNode_le candidate others a (hfilter ▸ hin)
                    · rcases List.mem_cons.mp (hperm.symm.subset hchosen.1) with heq | htail
                      · rw [heq]
                      · exact hleast _ htail (isReady_eq_true.mp hchosen.2)
                  obtain ⟨simulation', hexecute, rfl⟩ := executeNode_of_take htake
                  have htail : l.Perm ((node :: rest).erase a) := by
                    have h := hperm.erase a
                    rwa [List.erase_cons_head] at h
                  have hlength : ((node :: rest).erase a).length = rest.length := by
                    rw [List.length_erase_of_mem hmem]
                    rfl
                  obtain ⟨result, hloop, hfinal⟩ :=
                    ih (hunique.sublist List.erase_sublist) htail hrest
                  refine ⟨result, ?_, hfinal⟩
                  show (executeNode simulation (leastNode candidate others) >>= _) = _
                  rw [hfound, hexecute, ← hlength]
                  exact hloop

end StateWeaver.Compiler
