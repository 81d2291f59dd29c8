import StateWeaver.Twin.Builder

/-!
# What a build collects

Every loop of a build inserts records, one after the other: the records of its sources, the supplied facts
and relations, and those of its flows. It succeeds if records of one kind with one identifier are written
alike, and then each of them is there, or one that is written alike.
-/

namespace StateWeaver.Twin

open Contracts

/-! ## Records -/

/-- The collections. -/
inductive ItemKind where
  | entity | relation | fact | transition
  deriving DecidableEq

namespace Item

def key : Item → ItemKind × ContractId
  | .entity e => (.entity, e.entityId)
  | .relation r => (.relation, r.relationId)
  | .fact f => (.fact, f.factId)
  | .transition t => (.transition, t.transitionId)

def toValue : Item → Value
  | .entity e => e.toValue
  | .relation r => r.toValue
  | .fact f => f.toValue
  | .transition t => t.toValue

/-- Two records that are written, with the same bytes. -/
def WrittenAlike (a b : Item) : Prop :=
  ∃ bytes, canonicalJsonBytes a.toValue = .ok bytes ∧ canonicalJsonBytes b.toValue = .ok bytes

theorem WrittenAlike.symm {a b : Item} (h : a.WrittenAlike b) : b.WrittenAlike a := by
  obtain ⟨bytes, ha, hb⟩ := h
  exact ⟨bytes, hb, ha⟩

theorem WrittenAlike.trans {a b c : Item} (h : a.WrittenAlike b) (h' : b.WrittenAlike c) :
    a.WrittenAlike c := by
  obtain ⟨bytes, ha, hb⟩ := h
  obtain ⟨bytes', hb', hc⟩ := h'
  rw [hb, Except.ok.injEq] at hb'
  exact ⟨bytes, ha, hb' ▸ hc⟩

/-- Records that can be in one build. -/
def Compatible (a b : Item) : Prop := a.key = b.key → a.WrittenAlike b

theorem Compatible.symm {a b : Item} (h : Compatible a b) : Compatible b a :=
  fun hkey => (h hkey.symm).symm

end Item

/-! ## One insertion -/

section

variable {α : Type} [Identified α] {toValue : α → Value} {d d' : Dict ContractId α} {item : α}

theorem insertUnique_eq_ok : insertUnique toValue d item = .ok d' ↔
    d.get? (Identified.identifier item) = none ∧ d' = d.insert (Identified.identifier item) item ∨
      d' = d ∧ ∃ existing bytes, d.get? (Identified.identifier item) = some existing ∧
        canonicalJsonBytes (toValue existing) = .ok bytes ∧
          canonicalJsonBytes (toValue item) = .ok bytes := by
  rw [insertUnique]
  cases hget : d.get? (Identified.identifier item) with
  | none => simp [eq_comm]
  | some existing =>
      simp only [reduceCtorEq, false_and, false_or, Option.some.injEq, exists_and_left, exists_eq_left']
      cases canonicalJsonBytes (toValue existing) with
      | error e => simp [Except.mapError, bind, Except.bind]
      | ok bytes =>
          cases canonicalJsonBytes (toValue item) with
          | error e => simp [Except.mapError, bind, Except.bind]
          | ok bytes' =>
              simp only [Except.mapError]
              simp only [bind, Except.bind, Imp.require, Except.ok.injEq, exists_eq_left']
              by_cases heq : bytes = bytes'
              · simp [heq, pure, Except.pure, eq_comm]
              · simp [heq, Ne.symm heq]

/-- What an insertion does to a collection. -/
theorem get?_of_insertUnique (h : insertUnique toValue d item = .ok d') :
    (∀ existing, d.get? (Identified.identifier item) = some existing → ∃ bytes,
      canonicalJsonBytes (toValue existing) = .ok bytes ∧ canonicalJsonBytes (toValue item) = .ok bytes) ∧
    d'.get? (Identified.identifier item) = some ((d.get? (Identified.identifier item)).getD item) ∧
    ∀ id, id ≠ Identified.identifier item → d'.get? id = d.get? id := by
  rcases insertUnique_eq_ok.mp h with ⟨hnone, rfl⟩ | ⟨rfl, existing, bytes, hget, hbytes⟩
  · refine ⟨fun existing hexisting => ?_, ?_, fun id hid => Dict.get?_insert_of_ne _ hid _⟩
    · rw [hnone] at hexisting
      cases hexisting
    · rw [Dict.get?_insert_self, hnone, Option.getD_none]
  · refine ⟨fun existing' hexisting => ?_, ?_, fun _ _ => rfl⟩
    · rw [hget, Option.some.injEq] at hexisting
      exact ⟨bytes, hexisting ▸ hbytes⟩
    · rw [hget, Option.getD_some]

theorem exists_insertUnique (h : ∀ existing, d.get? (Identified.identifier item) = some existing → ∃ bytes,
    canonicalJsonBytes (toValue existing) = .ok bytes ∧ canonicalJsonBytes (toValue item) = .ok bytes) :
    ∃ d', insertUnique toValue d item = .ok d' := by
  cases hget : d.get? (Identified.identifier item) with
  | none => exact ⟨_, insertUnique_eq_ok.mpr (.inl ⟨hget, rfl⟩)⟩
  | some existing =>
      obtain ⟨bytes, hbytes⟩ := h existing hget
      exact ⟨_, insertUnique_eq_ok.mpr (.inr ⟨rfl, existing, bytes, hget, hbytes⟩)⟩

end

namespace Collections

variable {c c' : Collections} {item : Item} {items done : List Item} {key : ItemKind × ContractId}

/-- The record of a kind with an identifier. -/
def find? (c : Collections) : ItemKind × ContractId → Option Item
  | (.entity, id) => (c.entities.get? id).map .entity
  | (.relation, id) => (c.relations.get? id).map .relation
  | (.fact, id) => (c.facts.get? id).map .fact
  | (.transition, id) => (c.transitions.get? id).map .transition

/-- What an insertion does. -/
structure Inserted (c : Collections) (item : Item) (c' : Collections) : Prop where
  there : ∀ existing, c.find? item.key = some existing → existing.WrittenAlike item
  here : c'.find? item.key = some ((c.find? item.key).getD item)
  frame : ∀ key, key ≠ item.key → c'.find? key = c.find? key

theorem map_some_getD {α β : Type} (f : α → β) (o : Option α) (a : α) :
    (some (o.getD a)).map f = some ((o.map f).getD (f a)) := by
  cases o <;> rfl

theorem inserted_of_insert (h : c.insert item = .ok c') : Inserted c item c' := by
  cases item
  all_goals
    obtain ⟨d, hd, h⟩ := Imp.except_bind_eq_ok.mp h
    cases h
    obtain ⟨hthere, hhere, hframe⟩ := get?_of_insertUnique hd
    refine ⟨fun existing hfind => ?_, ?_, ?_⟩
    · obtain ⟨e, he, rfl⟩ := Option.map_eq_some_iff.mp hfind
      exact hthere e he
    · exact (congrArg (Option.map _) hhere).trans (map_some_getD _ _ _)
    · rintro ⟨_ | _ | _ | _, id⟩ hne
      -- only the collection of the record changes
      all_goals
        first
        | exact congrArg (Option.map _) (hframe id fun hid => hne (congrArg (Prod.mk _) hid))
        | rfl

theorem exists_insert (h : ∀ existing, c.find? item.key = some existing → existing.WrittenAlike item) :
    ∃ c', c.insert item = .ok c' := by
  cases item
  all_goals
    obtain ⟨d, hd⟩ := exists_insertUnique fun existing hget => h _ (congrArg (Option.map _) hget)
    exact ⟨_, Imp.except_bind_eq_ok.mpr ⟨d, hd, rfl⟩⟩

/-! ## Many insertions -/

/-- The collections are those of some records. -/
structure Collects (c : Collections) (items : List Item) : Prop where
  compatible : items.Pairwise Item.Compatible
  inserted : ∀ key e, c.find? key = some e → e ∈ items ∧ e.key = key
  there : ∀ item ∈ items, ∃ e, c.find? item.key = some e ∧ (e = item ∨ e.WrittenAlike item)

theorem collects_empty : Collects empty [] := by
  refine ⟨.nil, ?_, List.forall_mem_nil _⟩
  rintro ⟨_ | _ | _ | _, id⟩ e h <;> cases h

theorem Inserted.collects (h : Inserted c item c') (hc : Collects c done) : Collects c' (done ++ [item]) := by
  have hgetD : ∀ existing, c.find? item.key = some existing → c'.find? item.key = some existing := by
    intro existing hexisting
    rw [h.here, hexisting, Option.getD_some]
  refine ⟨?_, fun key e hfind => ?_, fun a ha => ?_⟩
  · refine List.pairwise_append.mpr ⟨hc.compatible, List.pairwise_singleton _ _, fun a ha b hb hkey => ?_⟩
    obtain rfl := List.mem_singleton.mp hb
    obtain ⟨e, he, halike⟩ := hc.there a ha
    rw [hkey] at he
    rcases halike with rfl | halike
    · exact h.there e he
    · exact halike.symm.trans (h.there e he)
  · by_cases hkey : key = item.key
    · subst hkey
      rw [h.here, Option.some.injEq] at hfind
      cases hexisting : c.find? item.key with
      | none =>
          rw [hexisting, Option.getD_none] at hfind
          subst hfind
          exact ⟨List.mem_append_right _ (List.mem_singleton.mpr rfl), rfl⟩
      | some existing =>
          rw [hexisting, Option.getD_some] at hfind
          subst hfind
          obtain ⟨hmem, hkey⟩ := hc.inserted _ _ hexisting
          exact ⟨List.mem_append_left _ hmem, hkey⟩
    · rw [h.frame key hkey] at hfind
      obtain ⟨hmem, hkey⟩ := hc.inserted key e hfind
      exact ⟨List.mem_append_left _ hmem, hkey⟩
  · rcases List.mem_append.mp ha with ha | ha
    · obtain ⟨e, he, halike⟩ := hc.there a ha
      refine ⟨e, ?_, halike⟩
      by_cases hkey : a.key = item.key
      · rw [hkey] at he ⊢
        exact hgetD e he
      · rw [h.frame _ hkey, he]
    · obtain rfl := List.mem_singleton.mp ha
      cases hexisting : c.find? a.key with
      | none => exact ⟨a, by rw [h.here, hexisting, Option.getD_none], .inl rfl⟩
      | some existing => exact ⟨existing, hgetD existing hexisting, .inr (h.there existing hexisting)⟩

theorem collects_of_insertAll (h : c.insertAll items = .ok c') (hc : Collects c done) :
    Collects c' (done ++ items) :=
  Imp.foldlM_invariant (I := fun done c => Collects c done)
    (fun _ _ _ _ hc hinsert => (inserted_of_insert hinsert).collects hc) hc h

theorem exists_insertAll (h : items.Pairwise Item.Compatible) : ∃ c, empty.insertAll items = .ok c := by
  have hstep : ∀ before c item after, before ++ item :: after = [] ++ items → Collects c before →
      ∃ c', c.insert item = .ok c' ∧ Collects c' (before ++ [item]) := by
    intro before c item after hsplit hcollects
    rw [List.nil_append] at hsplit
    rw [← hsplit, List.pairwise_append] at h
    obtain ⟨c', hc'⟩ := exists_insert fun existing hfind => by
      obtain ⟨hmem, hkey⟩ := hcollects.inserted _ _ hfind
      exact h.2.2 existing hmem item List.mem_cons_self hkey
    exact ⟨c', hc', (inserted_of_insert hc').collects hcollects⟩
  obtain ⟨c, hc, -⟩ := Imp.foldlM_succeeds hstep collects_empty
  exact ⟨c, hc⟩

end Collections

/-! ## Records of one kind -/

/-- A type of records with its collection. -/
class Collected (α : Type) [Identified α] where
  kind : ItemKind
  item : α → Item
  collection : Collections → Dict ContractId α
  key_item : ∀ a, (item a).key = (kind, Identified.identifier a)
  find?_eq : ∀ c id, Collections.find? c (kind, id) = ((collection c).get? id).map item

instance : Collected Entity := ⟨.entity, .entity, Collections.entities, fun _ => rfl, fun _ _ => rfl⟩

instance : Collected Relation := ⟨.relation, .relation, Collections.relations, fun _ => rfl, fun _ _ => rfl⟩

instance : Collected Fact := ⟨.fact, .fact, Collections.facts, fun _ => rfl, fun _ _ => rfl⟩

instance : Collected TransitionFragment :=
  ⟨.transition, .transition, Collections.transitions, fun _ => rfl, fun _ _ => rfl⟩

namespace Collections

open Collected

variable {α : Type} [Identified α] [Collected α] {c : Collections} {items : List Item} {a : α}

theorem Collects.of_get? (h : Collects c items) {id : ContractId} (ha : (collection c).get? id = some a) :
    item a ∈ items ∧ Identified.identifier a = id := by
  have hfind : c.find? (kind α, id) = some (item a) := by rw [find?_eq, ha, Option.map_some]
  obtain ⟨hmem, hkey⟩ := h.inserted _ _ hfind
  rw [key_item] at hkey
  exact ⟨hmem, (Prod.mk.inj hkey).2⟩

/-- What is collected was contributed. -/
theorem Collects.mem_of_values (h : Collects c items) (ha : a ∈ (collection c).values) : item a ∈ items := by
  obtain ⟨id, ha⟩ := Dict.mem_values.mp ha
  exact (h.of_get? (Dict.mem_entries.mp ha)).1

/-- What is contributed is collected, if no other record is written alike. -/
theorem Collects.mem_values (h : Collects c items)
    (hone : item a ∈ items → ∀ b : α, item b ∈ items → Identified.identifier b = Identified.identifier a →
      item b = item a ∨ (item b).WrittenAlike (item a) → b = a) :
    a ∈ (collection c).values ↔ item a ∈ items := by
  refine ⟨h.mem_of_values, fun ha => Dict.mem_values.mpr ⟨Identified.identifier a, Dict.mem_entries.mpr ?_⟩⟩
  obtain ⟨e, he, halike⟩ := h.there _ ha
  rw [key_item, find?_eq] at he
  obtain ⟨b, hb, rfl⟩ := Option.map_eq_some_iff.mp he
  obtain ⟨hmem, hid⟩ := h.of_get? hb
  rw [hb, hone ha b hmem hid halike]

/-- No two records of one kind have one identifier. -/
theorem Collects.nodup_values (h : Collects c items) :
    ((collection c : Dict ContractId α).values.map Identified.identifier).Nodup := by
  have hkeys : (collection c : Dict ContractId α).values.map Identified.identifier =
      (collection c : Dict ContractId α).keys := by
    rw [Dict.values, Dict.keys, List.map_map]
    refine List.map_inj_left.mpr fun e he => ?_
    exact (h.of_get? (Dict.mem_entries.mp (show (e.1, e.2) ∈ _ from he))).2
  rw [hkeys]
  exact Dict.nodup_keys _

end Collections

end StateWeaver.Twin
