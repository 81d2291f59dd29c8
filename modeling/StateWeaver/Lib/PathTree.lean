import Mathlib

/-!
# Trees of paths

Values are put into a tree at paths of names, one after another, as files into folders. A value cannot be put where
a path is on the way: if no path is a beginning of another one, all values have their places, and the tree has each
of them at its path and nothing else.
-/

/-- A value, or named trees. -/
inductive PathTree (κ α : Type) where
  | leaf (a : α)
  | node (children : List (κ × PathTree κ α))

namespace PathTree

variable {κ α : Type}

mutual

/-- The names in a tree. -/
def names : PathTree κ α → List κ
  | .leaf _ => []
  | .node children => childrenNames children

def childrenNames : List (κ × PathTree κ α) → List κ
  | [] => []
  | (name, child) :: rest => name :: names child ++ childrenNames rest

end

/-- A tree without two children of one name and without empty children. -/
inductive Compact : PathTree κ α → Prop
  | leaf {a : α} : Compact (.leaf a)
  | node {children : List (κ × PathTree κ α)} (hnodup : (children.map Prod.fst).Nodup)
      (hne : ∀ p ∈ children, p.2 ≠ .node []) (hchildren : ∀ p ∈ children, Compact p.2) : Compact (.node children)

theorem compact_nil : (node [] : PathTree κ α).Compact :=
  .node List.nodup_nil (List.forall_mem_nil _) (List.forall_mem_nil _)

/-- A path is on the way to another one if it is a beginning of that one, or that one is a beginning of it. -/
def OnTheWay (path q : List κ) : Prop := q <+: path ∨ path <+: q

theorem onTheWay_cons {name : κ} {path q : List κ} : OnTheWay (name :: path) (name :: q) ↔ OnTheWay path q := by
  rw [OnTheWay, OnTheWay, List.cons_prefix_cons, List.cons_prefix_cons, and_iff_right rfl, and_iff_right rfl]

theorem OnTheWay.head_eq {name n : κ} {path q : List κ} (h : OnTheWay (name :: path) (n :: q)) : n = name := by
  rcases h with h | h
  · exact (List.cons_prefix_cons.mp h).1
  · exact (List.cons_prefix_cons.mp h).1.symm

variable [DecidableEq κ] {a x : α} {name : κ} {path : List κ} {children children' : List (κ × PathTree κ α)}

/-! ## Putting values into a tree -/

/-- Give a name to a tree, in the place of the tree that had the name or after the others. -/
def put (name : κ) (t : PathTree κ α) : List (κ × PathTree κ α) → List (κ × PathTree κ α)
  | [] => [(name, t)]
  | (n, c) :: rest => if name = n then (name, t) :: rest else (n, c) :: put name t rest

/-- The trees to go on in: no trees under a new name. A value ends the way. -/
def below? : Option (PathTree κ α) → Option (List (κ × PathTree κ α))
  | none => some []
  | some (.node children) => some children
  | some (.leaf _) => none

/-- Put a value at a path, if no other path is on the way. -/
def insert (a : α) : List κ → List (κ × PathTree κ α) → Option (List (κ × PathTree κ α))
  | [], _ => none
  | [name], children =>
      if (children.lookup name).isSome then none else some (put name (.leaf a) children)
  | name :: next :: path, children =>
      (below? (children.lookup name)).bind fun c =>
        (insert a (next :: path) c).map fun c => put name (.node c) children

/-- The value at a path. -/
def find : List κ → PathTree κ α → Option α
  | [], .leaf a => some a
  | name :: path, .node children => (children.lookup name).bind (find path)
  | _, _ => none

/-! ## What is at a path -/

theorem mem_of_lookup {t : PathTree κ α} (h : children.lookup name = some t) : (name, t) ∈ children := by
  obtain ⟨before, after, heq, -⟩ := List.lookup_eq_some_iff.mp h
  rw [heq]
  exact List.mem_append_right _ List.mem_cons_self

theorem lookup_of_mem (hnodup : (children.map Prod.fst).Nodup) {t : PathTree κ α} (h : (name, t) ∈ children) :
    children.lookup name = some t := by
  obtain ⟨before, after, rfl⟩ := List.append_of_mem h
  refine List.lookup_eq_some_iff.mpr ⟨before, after, rfl, fun p hp => ?_⟩
  rw [List.map_append, List.map_cons, List.nodup_append] at hnodup
  exact bne_iff_ne.mpr (hnodup.2.2 p.1 (List.mem_map_of_mem hp) name List.mem_cons_self).symm

theorem find_of_lookup {t : PathTree κ α} (h : children.lookup name = some t) (path : List κ) :
    find (name :: path) (.node children) = t.find path := by
  rw [find, h, Option.bind_some]

theorem lookup_of_find (h : find (name :: path) (.node children) = some x) :
    ∃ t, children.lookup name = some t ∧ t.find path = some x := Option.bind_eq_some_iff.mp h

theorem find_nil (path : List κ) : find path (.node [] : PathTree κ α) = none := by
  cases path <;> rfl

/-- There is a value in a tree that is not empty. -/
theorem Compact.exists_find {t : PathTree κ α} (h : t.Compact) (hne : t ≠ .node []) :
    ∃ path x, t.find path = some x := by
  induction h with
  | @leaf a => exact ⟨[], a, rfl⟩
  | @node children hnodup hnonempty hchildren ih =>
      obtain ⟨⟨name, t⟩, rest, rfl⟩ := List.exists_cons_of_ne_nil (l := children) fun heq =>
        hne (congrArg PathTree.node heq)
      obtain ⟨path, x, hfind⟩ := ih (name, t) List.mem_cons_self (hnonempty _ List.mem_cons_self)
      exact ⟨name :: path, x, (find_of_lookup (lookup_of_mem hnodup List.mem_cons_self) path).trans hfind⟩

/-- A name in a tree is on the path to a value. -/
theorem Compact.mem_names {t : PathTree κ α} (h : t.Compact) {name : κ} :
    name ∈ t.names ↔ ∃ path x, t.find path = some x ∧ name ∈ path := by
  have hall : ∀ children : List (κ × PathTree κ α), name ∈ childrenNames children ↔
      ∃ p ∈ children, name = p.1 ∨ name ∈ p.2.names := by
    intro children
    induction children with
    | nil => exact iff_of_false List.not_mem_nil (by rintro ⟨_, hmem, -⟩; cases hmem)
    | cons p rest ih =>
        rw [childrenNames, List.cons_append, List.mem_cons, List.mem_append, ih, List.exists_mem_cons_iff, or_assoc]
  induction h with
  | @leaf a =>
      refine iff_of_false List.not_mem_nil ?_
      rintro ⟨path, x, hfind, hmem⟩
      cases path with
      | nil => cases hmem
      | cons => cases hfind
  | @node children hnodup hnonempty hchildren ih =>
      rw [names, hall]
      constructor
      · rintro ⟨⟨n, t⟩, hmem, hname⟩
        have hlookup := lookup_of_mem hnodup hmem
        rcases hname with rfl | hname
        · obtain ⟨path, x, hfind⟩ := (hchildren _ hmem).exists_find (hnonempty _ hmem)
          exact ⟨name :: path, x, (find_of_lookup hlookup path).trans hfind, List.mem_cons_self⟩
        · obtain ⟨path, x, hfind, hin⟩ := (ih _ hmem).mp hname
          exact ⟨n :: path, x, (find_of_lookup hlookup path).trans hfind, List.mem_cons_of_mem n hin⟩
      · rintro ⟨path, x, hfind, hin⟩
        cases path with
        | nil => cases hin
        | cons n path =>
            obtain ⟨t, hlookup, hfind⟩ := lookup_of_find hfind
            have hmem := mem_of_lookup hlookup
            refine ⟨_, hmem, (List.mem_cons.mp hin).imp id fun hin => (ih _ hmem).mpr ⟨path, x, hfind, hin⟩⟩

/-! ## One more value -/

theorem lookup_put (name n : κ) (t : PathTree κ α) (children : List (κ × PathTree κ α)) :
    (put name t children).lookup n = if n = name then some t else children.lookup n := by
  induction children with
  | nil =>
      rw [put, List.lookup_cons]
      by_cases hn : n = name
      · simp [hn]
      · rw [if_neg hn, beq_eq_false_iff_ne.mpr hn]
  | cons p rest ih =>
      rw [put]
      by_cases hp : name = p.1
      · rw [if_pos hp, List.lookup_cons, List.lookup_cons]
        by_cases hn : n = name
        · simp [hn]
        · rw [if_neg hn, beq_eq_false_iff_ne.mpr hn, beq_eq_false_iff_ne.mpr (hp ▸ hn)]
      · rw [if_neg hp, List.lookup_cons, List.lookup_cons, ih]
        by_cases hn : n = name
        · rw [if_pos hn, if_pos hn, beq_eq_false_iff_ne.mpr (hn ▸ hp)]
        · rw [if_neg hn, if_neg hn]

theorem mem_put {name : κ} {t : PathTree κ α} {p : κ × PathTree κ α} (h : p ∈ put name t children) :
    p = (name, t) ∨ p ∈ children := by
  induction children with
  | nil => exact Or.inl (List.mem_singleton.mp h)
  | cons q rest ih =>
      rw [put] at h
      split at h
      · exact (List.mem_cons.mp h).imp_right (List.mem_cons_of_mem q)
      · rcases List.mem_cons.mp h with rfl | h
        · exact Or.inr List.mem_cons_self
        · exact (ih h).imp_right (List.mem_cons_of_mem q)

theorem nodup_put {name : κ} {t : PathTree κ α} (h : (children.map Prod.fst).Nodup) :
    ((put name t children).map Prod.fst).Nodup := by
  induction children with
  | nil => exact List.nodup_singleton name
  | cons q rest ih =>
      rw [List.map_cons, List.nodup_cons] at h
      rw [put]
      split
      · next hq =>
          rw [List.map_cons, List.nodup_cons]
          exact hq ▸ h
      · next hq =>
          rw [List.map_cons, List.nodup_cons]
          refine ⟨fun hmem => ?_, ih h.2⟩
          obtain ⟨p, hp, heq⟩ := List.mem_map.mp hmem
          rcases mem_put hp with rfl | hp
          · exact hq heq
          · exact h.1 (List.mem_map.mpr ⟨p, hp, heq⟩)

theorem compact_put {name : κ} {t : PathTree κ α} (ht : t.Compact) (hne : t ≠ .node [])
    (h : (node children).Compact) : (node (put name t children)).Compact := by
  cases h with
  | node hnodup hnonempty hchildren =>
      refine .node (nodup_put hnodup) (fun p hp => ?_) fun p hp => ?_
      · rcases mem_put hp with rfl | hp
        · exact hne
        · exact hnonempty p hp
      · rcases mem_put hp with rfl | hp
        · exact ht
        · exact hchildren p hp

theorem compact_below? {c : List (κ × PathTree κ α)} (h : (node children).Compact)
    (hbelow : below? (children.lookup name) = some c) : (node c).Compact := by
  cases hlookup : children.lookup name with
  | none =>
      rw [hlookup] at hbelow
      cases hbelow
      exact compact_nil
  | some t =>
      rw [hlookup] at hbelow
      cases h with
      | node hnodup hnonempty hchildren =>
          cases t with
          | leaf a => cases hbelow
          | node c' =>
              cases hbelow
              exact hchildren _ (mem_of_lookup hlookup)

/-- What is under a name is what is found there. -/
theorem find_below? {c : List (κ × PathTree κ α)} (hbelow : below? (children.lookup name) = some c)
    (path : List κ) : find (name :: path) (.node children) = find path (.node c) := by
  rw [find]
  cases hlookup : children.lookup name with
  | none =>
      rw [hlookup] at hbelow
      cases hbelow
      rw [Option.bind_none, find_nil]
  | some t =>
      rw [hlookup] at hbelow
      cases t with
      | leaf a => cases hbelow
      | node c' =>
          cases hbelow
          rfl

/-- A value is not put where a path is on the way. -/
theorem insert_eq_none_iff (h : (node children).Compact) (hpath : path ≠ []) :
    insert a path children = none ↔ ∃ q x, find q (node children) = some x ∧ OnTheWay path q := by
  induction path generalizing children with
  | nil => exact absurd rfl hpath
  | cons name path ih =>
      cases path with
      | nil =>
          have hin : insert a [name] children = none ↔ (children.lookup name).isSome := by
            rw [insert, ite_eq_left_iff, imp_iff_not (Option.some_ne_none _), Classical.not_not]
          rw [hin, Option.isSome_iff_exists]
          constructor
          · rintro ⟨t, hlookup⟩
            have hmem := mem_of_lookup hlookup
            cases h with
            | node hnodup hnonempty hchildren =>
                obtain ⟨q, x, hfind⟩ := (hchildren _ hmem).exists_find (hnonempty _ hmem)
                exact ⟨name :: q, x, (find_of_lookup hlookup q).trans hfind, Or.inr ⟨q, rfl⟩⟩
          · rintro ⟨q, x, hfind, hway⟩
            cases q with
            | nil => cases hfind
            | cons n q =>
                obtain ⟨t, hlookup, -⟩ := lookup_of_find hfind
                exact ⟨t, hway.head_eq ▸ hlookup⟩
      | cons next path =>
          rw [insert]
          cases hbelow : below? (children.lookup name) with
          | none =>
              refine iff_of_true rfl ?_
              cases hlookup : children.lookup name with
              | none =>
                  rw [hlookup] at hbelow
                  cases hbelow
              | some t =>
                  rw [hlookup] at hbelow
                  cases t with
                  | node c => cases hbelow
                  | leaf b => exact ⟨[name], b, find_of_lookup hlookup [], Or.inl ⟨next :: path, rfl⟩⟩
          | some c =>
              rw [Option.bind_some, Option.map_eq_none_iff, ih (compact_below? h hbelow) (List.cons_ne_nil _ _)]
              constructor
              · rintro ⟨q, x, hfind, hway⟩
                exact ⟨name :: q, x, (find_below? hbelow q).trans hfind, onTheWay_cons.mpr hway⟩
              · rintro ⟨q, x, hfind, hway⟩
                cases q with
                | nil => cases hfind
                | cons n q =>
                    obtain rfl := hway.head_eq
                    exact ⟨q, x, (find_below? hbelow q).symm.trans hfind, onTheWay_cons.mp hway⟩

/-- A tree into which a value is put has the value at its path, and what it had at the others. -/
theorem find_of_insert (h : (node children).Compact) (hinsert : insert a path children = some children') :
    (node children').Compact ∧ children' ≠ [] ∧
      ∀ q, find q (node children') = if q = path then some a else find q (node children) := by
  induction path generalizing children children' with
  | nil => cases hinsert
  | cons name path ih =>
      have hput : ∀ (t : PathTree κ α), put name t children ≠ [] := by
        intro t heq
        have hlookup := lookup_put name name t children
        rw [heq, if_pos rfl] at hlookup
        cases hlookup
      cases path with
      | nil =>
          rw [insert] at hinsert
          split at hinsert
          · cases hinsert
          next hfresh =>
          rw [Bool.not_eq_true, Option.isSome_eq_false_iff, Option.isNone_iff_eq_none] at hfresh
          cases hinsert
          refine ⟨compact_put .leaf nofun h, hput _, fun q => ?_⟩
          cases q with
          | nil => rfl
          | cons n q =>
              rw [find, find, lookup_put]
              by_cases hn : n = name
              · rw [if_pos hn, hn, hfresh, Option.bind_some, Option.bind_none]
                cases q with
                | nil => rw [if_pos rfl, find]
                | cons m q =>
                    have hne : n :: m :: q ≠ [name] := fun heq => by cases heq
                    rw [← hn, if_neg (hn ▸ hne)]
                    rfl
              · rw [if_neg hn, if_neg fun heq => hn (List.cons.inj heq).1]
      | cons next path =>
          obtain ⟨c, hbelow, hinsert⟩ := Option.bind_eq_some_iff.mp hinsert
          obtain ⟨c', hc', rfl⟩ := Option.map_eq_some_iff.mp hinsert
          obtain ⟨hcompact, hne, hfind⟩ := ih (compact_below? h hbelow) hc'
          refine ⟨compact_put hcompact (fun heq => hne (PathTree.node.inj heq)) h, hput _, fun q => ?_⟩
          cases q with
          | nil => rfl
          | cons n q =>
              by_cases hn : n = name
              · rw [hn, find_below? hbelow, find, lookup_put, if_pos rfl, Option.bind_some, hfind]
                exact if_congr (by rw [List.cons.injEq, and_iff_right rfl]) rfl rfl
              · rw [find, find, lookup_put, if_neg hn, if_neg fun heq => hn (List.cons.inj heq).1]

end PathTree
