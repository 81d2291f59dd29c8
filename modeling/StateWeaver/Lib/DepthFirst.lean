import Mathlib

/-!
# Depth-first search for a cycle

A search marks the vertices it has visited and those that it is below, and stops at an edge back to one of the latter.
`Visits` is the search as a big-step relation, with no bound on its depth. A search that finds something has found a
cycle; after one that finds nothing, no path from what it has visited goes on forever.
-/

namespace DepthFirst

variable {α : Type} (edges : α → List α)

/-- Whether there is an edge. -/
def Edge (a b : α) : Prop := b ∈ edges a

mutual

/-- `visit` below some vertices after some vertices: what it finds, and which vertices are visited then. -/
inductive Visits : List α → List α → α → Bool → List α → Prop
  | active {active visited : List α} {a : α} : a ∈ active → Visits active visited a true visited
  | visited {active visited : List α} {a : α} : a ∉ active → a ∈ visited → Visits active visited a false visited
  | fresh {active visited visited' : List α} {a : α} {found : Bool} : a ∉ active → a ∉ visited →
      AnyVisits (a :: active) (a :: visited) (edges a) found visited' → Visits active visited a found visited'

/-- Visiting some vertices in turn until something is found. -/
inductive AnyVisits : List α → List α → List α → Bool → List α → Prop
  | nil {active visited : List α} : AnyVisits active visited [] false visited
  | found {active visited visited' : List α} {a : α} {rest : List α} :
      Visits active visited a true visited' → AnyVisits active visited (a :: rest) true visited'
  | next {active visited visited₁ visited₂ : List α} {a : α} {rest : List α} {found : Bool} :
      Visits active visited a false visited₁ → AnyVisits active visited₁ rest found visited₂ →
        AnyVisits active visited (a :: rest) found visited₂

end

/-- Whether no path from a vertex goes on forever. -/
def Ends (a : α) : Prop := Acc (fun b a => Edge edges a b) a

variable {edges}

/-! ## One result -/

mutual

/-- A search has one result. -/
theorem Visits.unique {active visited visited₁ visited₂ : List α} {a : α} {found₁ found₂ : Bool} :
    Visits edges active visited a found₁ visited₁ → Visits edges active visited a found₂ visited₂ →
      found₁ = found₂ ∧ visited₁ = visited₂
  | .active h, hother => by
      cases hother with
      | active => exact ⟨rfl, rfl⟩
      | visited h' => exact absurd h h'
      | fresh h' => exact absurd h h'
  | .visited h hvisited, hother => by
      cases hother with
      | active h' => exact absurd h' h
      | visited => exact ⟨rfl, rfl⟩
      | fresh _ h' => exact absurd hvisited h'
  | .fresh h hvisited hchildren, hother => by
      cases hother with
      | active h' => exact absurd h' h
      | visited _ h' => exact absurd h' hvisited
      | fresh _ _ hchildren' => exact hchildren.unique hchildren'

theorem AnyVisits.unique {active visited visited₁ visited₂ l : List α} {found₁ found₂ : Bool} :
    AnyVisits edges active visited l found₁ visited₁ → AnyVisits edges active visited l found₂ visited₂ →
      found₁ = found₂ ∧ visited₁ = visited₂
  | .nil, hother => by
      cases hother
      exact ⟨rfl, rfl⟩
  | .found h, hother => by
      cases hother with
      | found h' => exact h.unique h'
      | next h' => cases (h.unique h').1
  | .next h hrest, hother => by
      cases hother with
      | found h' => cases (h.unique h').1
      | next h' hrest' =>
          obtain ⟨-, rfl⟩ := h.unique h'
          exact hrest.unique hrest'

end

/-! ## What is found is a cycle -/

mutual

/-- If every vertex that the search is below leads to the next one, what is found is a cycle. -/
theorem Visits.cycle {active visited visited' : List α} {a : α} {found : Bool} :
    Visits edges active visited a found visited' → found = true →
      (∀ b ∈ active, Relation.TransGen (Edge edges) b a) → ∃ b, Relation.TransGen (Edge edges) b b
  | .active h, _, hpath => ⟨a, hpath a h⟩
  | .fresh _ _ h, hfound, hpath => h.cycle hfound fun c hc b hb => by
      rcases List.mem_cons.mp hb with rfl | hb
      · exact .single hc
      · exact .tail (hpath b hb) hc

theorem AnyVisits.cycle {active visited visited' l : List α} {found : Bool} :
    AnyVisits edges active visited l found visited' → found = true →
      (∀ a ∈ l, ∀ b ∈ active, Relation.TransGen (Edge edges) b a) → ∃ b, Relation.TransGen (Edge edges) b b
  | .found h, _, hpath => h.cycle rfl (hpath _ List.mem_cons_self)
  | .next _ h, hfound, hpath => h.cycle hfound fun a ha => hpath a (List.mem_cons_of_mem _ ha)

end

/-! ## Where nothing is found -/

/-- Whether the paths end from every vertex that the search is done with. -/
def Settled (edges : α → List α) (active visited : List α) : Prop := ∀ a ∈ visited, a ∉ active → Ends edges a

theorem Settled.cons {active visited : List α} (h : Settled edges active visited) (a : α) :
    Settled edges (a :: active) (a :: visited) := by
  intro b hb hactive
  obtain ⟨hne, hactive⟩ := not_or.mp (mt List.mem_cons.mpr hactive)
  exact h b ((List.mem_cons.mp hb).resolve_left hne) hactive

mutual

/-- The paths end from every vertex that is visited in vain. -/
theorem Visits.ends {active visited visited' : List α} {a : α} {found : Bool} :
    Visits edges active visited a found visited' → found = false → Settled edges active visited →
      Ends edges a ∧ Settled edges active visited'
  | .visited hactive h, _, hsettled => ⟨hsettled a h hactive, hsettled⟩
  | .fresh _ _ h, hfound, hsettled => by
      obtain ⟨hchildren, hvisited⟩ := h.ends hfound (hsettled.cons a)
      have hends : Ends edges a := .intro a hchildren
      refine ⟨hends, fun b hb hactive => ?_⟩
      by_cases heq : b = a
      · exact heq ▸ hends
      · exact hvisited b hb fun hmem => (List.mem_cons.mp hmem).elim heq hactive

theorem AnyVisits.ends {active visited visited' l : List α} {found : Bool} :
    AnyVisits edges active visited l found visited' → found = false → Settled edges active visited →
      (∀ a ∈ l, Ends edges a) ∧ Settled edges active visited'
  | .nil, _, hsettled => ⟨List.forall_mem_nil _, hsettled⟩
  | .next h hrest, hfound, hsettled => by
      obtain ⟨hends, hsettled⟩ := h.ends rfl hsettled
      obtain ⟨hall, hsettled⟩ := hrest.ends hfound hsettled
      exact ⟨List.forall_mem_cons.mpr ⟨hends, hall⟩, hsettled⟩

end

/-- A vertex on a cycle has a path that goes on forever. -/
theorem Ends.not_cycle {a : α} (h : Ends edges a) : ¬ Relation.TransGen (Edge edges) a a := by
  induction h with
  | intro a _ ih =>
      intro hcycle
      obtain ⟨b, hedge, hrest⟩ := Relation.TransGen.head'_iff.mp hcycle
      exact ih b hedge (.tail' hrest hedge)

/-- A search from all vertices that have edges finds something exactly if there is a cycle. -/
theorem AnyVisits.found_iff {l visited' : List α} {found : Bool} (h : AnyVisits edges [] [] l found visited')
    (hall : ∀ a b, Edge edges a b → a ∈ l) : found = true ↔ ∃ a, Relation.TransGen (Edge edges) a a := by
  cases found with
  | true => exact iff_of_true rfl (h.cycle rfl fun _ _ _ hb => absurd hb List.not_mem_nil)
  | false =>
      refine iff_of_false nofun ?_
      rintro ⟨a, hcycle⟩
      obtain ⟨b, hedge, -⟩ := Relation.TransGen.head'_iff.mp hcycle
      exact ((h.ends rfl fun _ hb => absurd hb List.not_mem_nil).1 a (hall a b hedge)).not_cycle hcycle

/-! ## Search ends -/

mutual

/-- What is visited stays visited. -/
theorem Visits.subset {active visited visited' : List α} {a : α} {found : Bool} :
    Visits edges active visited a found visited' → visited ⊆ visited'
  | .active _ => fun _ h => h
  | .visited _ _ => fun _ h => h
  | .fresh _ _ h => fun _ hb => h.subset (List.mem_cons_of_mem _ hb)

theorem AnyVisits.subset {active visited visited' l : List α} {found : Bool} :
    AnyVisits edges active visited l found visited' → visited ⊆ visited'
  | .nil => fun _ h => h
  | .found h => h.subset
  | .next h hrest => fun _ hb => hrest.subset (h.subset hb)

end

end DepthFirst
