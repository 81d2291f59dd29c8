import Mathlib
import StateWeaver.Compiler.Soundness
import StateWeaver.Lib.DepthFirst

/-!
# Dependency cycles

The search for a dependency cycle ends, and it finds something exactly if the graph of unmet preconditions and the
fragments that produce them has a cycle.
-/

namespace StateWeaver.Compiler

open Contracts DepthFirst

/-! ## The graph -/

/-- Whether a fragment has a precondition that is not met and that another fragment produces. -/
def Requires (nodes : List CompilerFragment) (initial : State) (node producer : CompilerFragment) : Prop :=
  node ∈ nodes ∧ producer ∈ nodes ∧ ∃ condition ∈ node.fragment.preconditions,
    conditionMatches condition initial = false ∧
      ∃ effect ∈ producer.fragment.effects, effectSupports effect condition = true

/-- The same of their identifiers. -/
def DependsOn (nodes : List CompilerFragment) (initial : State) (a b : ContractId) : Prop :=
  ∃ node producer, Requires nodes initial node producer ∧ node.fragmentId = a ∧ producer.fragmentId = b

theorem mem_producers {nodes : List CompilerFragment} {initial : State} {node : CompilerFragment}
    (hnode : node ∈ nodes) {b : ContractId} :
    b ∈ producers nodes initial node ↔ ∃ producer, Requires nodes initial node producer ∧ producer.fragmentId = b := by
  simp only [producers, List.mem_flatMap, List.mem_filter, List.mem_map, Bool.not_eq_true', List.any_eq_true]
  constructor
  · rintro ⟨condition, ⟨hcondition, hunmet⟩, producer, ⟨hproducer, heffect⟩, hid⟩
    exact ⟨producer, ⟨hnode, hproducer, condition, hcondition, hunmet, heffect⟩, hid⟩
  · rintro ⟨producer, ⟨-, hproducer, condition, hcondition, hunmet, heffect⟩, hid⟩
    exact ⟨condition, ⟨hcondition, hunmet⟩, producer, ⟨hproducer, heffect⟩, hid⟩

theorem edge_dependencyEdges [SetOrder] {nodes : List CompilerFragment} {initial : State} {a b : ContractId} :
    Edge (dependencyEdges nodes initial) a b ↔ DependsOn nodes initial a b := by
  rw [Edge, dependencyEdges, SetOrder.mem_order, List.mem_dedup, List.mem_flatMap]
  constructor
  · rintro ⟨node, hfilter, hb⟩
    obtain ⟨hnode, hid⟩ := List.mem_filter.mp hfilter
    obtain ⟨producer, hrequires, hproducer⟩ := (mem_producers hnode).mp hb
    exact ⟨node, producer, hrequires, of_decide_eq_true hid, hproducer⟩
  · rintro ⟨node, producer, hrequires, hid, hproducer⟩
    exact ⟨node, List.mem_filter.mpr ⟨hrequires.1, decide_eq_true hid⟩,
      (mem_producers hrequires.1).mpr ⟨producer, hrequires, hproducer⟩⟩

/-! ## The search ends -/

section Depth

variable {edges : ContractId → List ContractId} {vertices : List ContractId}

/-- How many vertices are not visited yet. -/
def unvisited (vertices visited : List ContractId) : ℕ := (vertices.toFinset \ visited.toFinset).card

theorem unvisited_mono {visited visited' : List ContractId} (h : visited ⊆ visited') :
    unvisited vertices visited' ≤ unvisited vertices visited := by
  refine Finset.card_le_card (Finset.sdiff_subset_sdiff le_rfl fun a ha => ?_)
  rw [List.mem_toFinset] at ha ⊢
  exact h ha

theorem unvisited_cons_lt {visited : List ContractId} {a : ContractId} (hmem : a ∈ vertices) (ha : a ∉ visited) :
    unvisited vertices (a :: visited) < unvisited vertices visited := by
  refine Finset.card_lt_card ⟨Finset.sdiff_subset_sdiff le_rfl fun b hb => ?_, fun hsubset => ?_⟩
  · rw [List.mem_toFinset] at hb ⊢
    exact List.mem_cons_of_mem _ hb
  · have h := hsubset (Finset.mem_sdiff.mpr ⟨List.mem_toFinset.mpr hmem, mt List.mem_toFinset.mp ha⟩)
    exact (Finset.mem_sdiff.mp h).2 (List.mem_toFinset.mpr List.mem_cons_self)

/-- Whether a bounded search is the search, and leaves the marks of what it is below as they were. -/
def Searches (v : Visit) (result : Bool × Visit)
    (relation : Bool → List ContractId → Prop) : Prop :=
  relation result.1 result.2.visited ∧ result.2.active = v.active

theorem searches_anyVisit {depth : ℕ}
    (hvisit : ∀ v a, a ∈ vertices → unvisited vertices v.visited < depth →
      Searches v (visit edges depth v a) (Visits edges v.active v.visited a)) (l : List ContractId)
    (hl : ∀ a ∈ l, a ∈ vertices) (v : Visit) (hv : unvisited vertices v.visited < depth) :
    Searches v (anyVisit (visit edges depth) v l) (AnyVisits edges v.active v.visited l) := by
  induction l generalizing v with
  | nil => exact ⟨.nil, rfl⟩
  | cons a rest ih =>
      obtain ⟨ha, hrest⟩ := List.forall_mem_cons.mp hl
      obtain ⟨hfirst, hactive⟩ := hvisit v a ha hv
      rw [anyVisit]
      split
      · next v' heq =>
          rw [heq] at hfirst hactive
          exact ⟨.found hfirst, hactive⟩
      · next v' heq =>
          rw [heq] at hfirst hactive
          obtain ⟨hnext, hactive'⟩ := ih hrest v' (lt_of_le_of_lt (unvisited_mono hfirst.subset) hv)
          rw [hactive] at hnext
          exact ⟨.next hfirst hnext, hactive'.trans hactive⟩

/-- A bound on the depth above the number of vertices that are not visited is no bound. -/
theorem searches_visit (hclosed : ∀ a b, Edge edges a b → b ∈ vertices) (depth : ℕ) (v : Visit) (a : ContractId)
    (ha : a ∈ vertices) (hv : unvisited vertices v.visited < depth) :
    Searches v (visit edges depth v a) (Visits edges v.active v.visited a) := by
  induction depth generalizing v a with
  | zero => exact absurd hv (Nat.not_lt_zero _)
  | succ depth ih =>
      rw [visit]
      split
      · next hactive => exact ⟨.active hactive, rfl⟩
      split
      · next hactive hvisited => exact ⟨.visited hactive hvisited, rfl⟩
      · next hactive hvisited =>
          have hlt := unvisited_cons_lt ha hvisited
          obtain ⟨hchildren, hmarks⟩ := searches_anyVisit ih (edges a) (fun b hb => hclosed a b hb)
            ⟨a :: v.visited, a :: v.active⟩ (lt_of_lt_of_le hlt (Nat.lt_succ_iff.mp hv))
          refine ⟨.fresh hactive hvisited hchildren, ?_⟩
          change List.erase (anyVisit _ _ _).2.active a = v.active
          rw [hmarks, List.erase_cons_head]

end Depth

variable {nodes : List CompilerFragment} {initial : State}

/-- The identifiers in the order in which the search starts. -/
def searchRoots (nodes : List CompilerFragment) : List ContractId :=
  ((nodes.map CompilerFragment.fragmentId).dedup).insertionSort (· ≤ ·)

theorem mem_searchRoots {a : ContractId} : a ∈ searchRoots nodes ↔ ∃ node ∈ nodes, node.fragmentId = a := by
  rw [searchRoots, List.mem_insertionSort, List.mem_dedup, List.mem_map]

/-- The search as it is bounded is the search. -/
theorem anyVisits_hasDependencyCycle [SetOrder] (nodes : List CompilerFragment) (initial : State) :
    ∃ visited, AnyVisits (dependencyEdges nodes initial) [] [] (searchRoots nodes)
      (hasDependencyCycle nodes initial) visited := by
  have hclosed : ∀ a b, Edge (dependencyEdges nodes initial) a b → b ∈ searchRoots nodes := by
    intro a b h
    obtain ⟨_, producer, hrequires, -, hid⟩ := edge_dependencyEdges.mp h
    exact mem_searchRoots.mpr ⟨producer, hrequires.2.1, hid⟩
  have hbound : unvisited (searchRoots nodes) [] < (nodes.map CompilerFragment.fragmentId).dedup.length + 1 := by
    have hcard := (searchRoots nodes).toFinset_card_le
    rw [searchRoots, List.length_insertionSort] at hcard
    refine Nat.lt_succ_of_le (le_trans (Finset.card_le_card Finset.sdiff_subset) ?_)
    exact hcard
  exact ⟨_, (searches_anyVisit (searches_visit hclosed _) (searchRoots nodes) (fun _ h => h) ⟨[], []⟩ hbound).1⟩

/-! ## Cycles of fragments -/

theorem requires_of_dependsOn {a b : ContractId} (hunique : (nodes.map CompilerFragment.fragmentId).Nodup)
    (h : Relation.TransGen (DependsOn nodes initial) a b) {node producer : CompilerFragment} (hnode : node ∈ nodes)
    (hproducer : producer ∈ nodes) (ha : node.fragmentId = a) (hb : producer.fragmentId = b) :
    Relation.TransGen (Requires nodes initial) node producer := by
  have hsame : ∀ {x y : CompilerFragment}, x ∈ nodes → y ∈ nodes → x.fragmentId = y.fragmentId → x = y :=
    fun hx hy heq => List.inj_on_of_nodup_map hunique hx hy heq
  induction h generalizing producer with
  | single h =>
      obtain ⟨x, y, hrequires, hx, hy⟩ := h
      rw [hsame hnode hrequires.1 (ha.trans hx.symm), hsame hproducer hrequires.2.1 (hb.trans hy.symm)]
      exact .single hrequires
  | tail _ h ih =>
      obtain ⟨x, y, hrequires, hx, hy⟩ := h
      rw [hsame hproducer hrequires.2.1 (hb.trans hy.symm)]
      exact .tail (ih hrequires.1 hx) hrequires

theorem exists_cycle_iff (hunique : (nodes.map CompilerFragment.fragmentId).Nodup) :
    (∃ a, Relation.TransGen (DependsOn nodes initial) a a) ↔
      ∃ node, Relation.TransGen (Requires nodes initial) node node := by
  constructor
  · rintro ⟨a, h⟩
    obtain ⟨b, ⟨node, _, hrequires, ha, -⟩, -⟩ := Relation.TransGen.head'_iff.mp h
    exact ⟨node, requires_of_dependsOn hunique h hrequires.1 hrequires.1 ha ha⟩
  · rintro ⟨node, h⟩
    exact ⟨node.fragmentId, h.lift CompilerFragment.fragmentId fun x y hrequires => ⟨x, y, hrequires, rfl, rfl⟩⟩

/-- `_has_dependency_cycle` ends, with one answer: whether the graph of the identifiers has a cycle. Where fragments
have identifiers of their own, it is whether the graph of the fragments has one. -/
theorem hasDependencyCycle_spec [SetOrder] (nodes : List CompilerFragment) (initial : State) :
    (∀ found, (∃ visited, AnyVisits (dependencyEdges nodes initial) [] [] (searchRoots nodes) found visited) ↔
      found = hasDependencyCycle nodes initial) ∧
    (hasDependencyCycle nodes initial = true ↔ ∃ a, Relation.TransGen (DependsOn nodes initial) a a) ∧
    ((nodes.map CompilerFragment.fragmentId).Nodup →
      (hasDependencyCycle nodes initial = true ↔ ∃ node, Relation.TransGen (Requires nodes initial) node node)) := by
  obtain ⟨visited, hsearch⟩ := anyVisits_hasDependencyCycle nodes initial
  have hcycle : hasDependencyCycle nodes initial = true ↔ ∃ a, Relation.TransGen (DependsOn nodes initial) a a := by
    rw [hsearch.found_iff fun a b h => ?_]
    · have hedge : Edge (dependencyEdges nodes initial) = DependsOn nodes initial :=
        funext fun a => funext fun b => propext edge_dependencyEdges
      rw [hedge]
    · obtain ⟨node, _, hrequires, hid, -⟩ := edge_dependencyEdges.mp h
      exact mem_searchRoots.mpr ⟨node, hrequires.1, hid⟩
  refine ⟨fun found => ⟨?_, ?_⟩, hcycle, fun hunique => hcycle.trans (exists_cycle_iff hunique)⟩
  · rintro ⟨visited', h⟩
    exact (h.unique hsearch).1
  · rintro rfl
    exact ⟨visited, hsearch⟩

end StateWeaver.Compiler

namespace StateWeaver.Compiler.Demo

open Contracts

attribute [local instance] setOrder

/-- Two fragments that need each other. -/
def inCircle : List CompilerFragment :=
  [fragment idA (isTrue ready) (setTrue started) [], fragment idB (isTrue started) (setTrue ready) []]

theorem hasDependencyCycle_inCircle :
    ∃ node, Relation.TransGen (Requires inCircle fun _ => none) node node := by
  have hfound : hasDependencyCycle inCircle (fun _ => none) = true := by decide +kernel
  exact ((hasDependencyCycle_spec inCircle fun _ => none).2.2 (by decide +kernel)).mp hfound

end StateWeaver.Compiler.Demo
