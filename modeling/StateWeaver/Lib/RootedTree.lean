import Mathlib

/-!
# Rooted trees

A relation between nodes and their parents makes a tree if every node has at most one parent and leads to the
root, which has none. Following the parents in a tree never comes back to a node.
-/

namespace RootedTree

open Relation

variable {α : Type*}

/-- Whether nodes are a tree below a root. -/
structure IsTree (parent : α → α → Prop) (nodes : Set α) (root : α) : Prop where
  mem : root ∈ nodes
  functional : ∀ a b c, parent a b → parent a c → b = c
  orphan : ∀ a, ¬parent root a
  leads : ∀ a ∈ nodes, ReflTransGen parent a root

variable {parent : α → α → Prop} {nodes : Set α} {root a : α}

/-- A node that leads to a node without a parent is not its own ancestor. -/
theorem not_transGen_self (hfunctional : ∀ a b c, parent a b → parent a c → b = c)
    (horphan : ∀ a, ¬parent root a) (h : ReflTransGen parent a root) : ¬TransGen parent a a := by
  induction h using ReflTransGen.head_induction_on with
  | refl =>
      intro hcycle
      obtain ⟨b, hb, -⟩ := TransGen.head'_iff.mp hcycle
      exact horphan b hb
  | @head a b hab _ ih =>
      intro hcycle
      obtain ⟨c, hac, hca⟩ := TransGen.head'_iff.mp hcycle
      obtain rfl := hfunctional a b c hab hac
      exact ih (TransGen.tail' hca hab)

theorem IsTree.acyclic (h : IsTree parent nodes root) (ha : a ∈ nodes) : ¬TransGen parent a a :=
  not_transGen_self h.functional h.orphan (h.leads a ha)

end RootedTree
