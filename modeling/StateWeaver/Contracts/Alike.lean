import StateWeaver.Contracts.Facts

/-!
# Records that are written alike

The fields of a record determine what is written of it, and what is written determines the fields: entities,
relations and facts that are written alike are equal.
-/

namespace StateWeaver.Contracts

/-! ## Texts -/

theorem optionalText_injective : Function.Injective optionalText := by
  rintro (_ | s) (_ | t) h
  · rfl
  · cases h
  · cases h
  · cases h
    rfl

theorem optionalText_inj {pattern : String → Bool} {a b : Option (Constrained pattern)}
    (h : optionalText (a.map Constrained.val) = optionalText (b.map Constrained.val)) : a = b :=
  Option.map_injective Constrained.val_injective (optionalText_injective h)

theorem text_inj {pattern : String → Bool} {a b : Constrained pattern}
    (h : Alike (.scalar (.str a.val)) (.scalar (.str b.val))) : a = b :=
  Constrained.val_injective (Py.Scalar.str.inj h.scalar)

theorem RequesterType.value_inj {a b : RequesterType} (h : a.value = b.value) : a = b := by
  cases a <;> cases b <;> first | rfl | exact absurd h (by decide)

theorem ProvenanceKind.value_inj {a b : ProvenanceKind} (h : a.value = b.value) : a = b := by
  cases a <;> cases b <;> first | rfl | exact absurd h (by decide)

theorem Taint.value_inj {a b : Taint} (h : a.value = b.value) : a = b := by
  cases a <;> cases b <;> first | rfl | exact absurd h (by decide)

theorem EntityKind.value_inj {a b : EntityKind} (h : a.value = b.value) : a = b := by
  have hall : ([.principal, .role, .tenant, .credential, .session, .resource, .policy, .cacheEntry, .queueJob,
      .featureFlag, .service, .endpoint, .externalDependency].map EntityKind.value).Nodup := by decide +kernel
  refine List.inj_on_of_nodup_map hall ?_ ?_ h
  · cases a <;> decide
  · cases b <;> decide

theorem RelationKind.value_inj {a b : RelationKind} (h : a.value = b.value) : a = b := by
  have hall : ([.memberOf, .actsAs, .owns, .belongsTo, .authorizedBy, .cachedAs, .issuedFrom, .references,
      .pendingTransition, .controlledBy, .visibleTo].map RelationKind.value).Nodup := by decide +kernel
  refine List.inj_on_of_nodup_map hall ?_ ?_ h
  · cases a <;> decide
  · cases b <;> decide

/-! ## Lists and optional parts -/

theorem forall₂_of_jsonReadyItems {items : List Value} {l : List PlainJson} (h : jsonReadyItems items = .ok l) :
    List.Forall₂ (fun v j => jsonReady v = .ok j) items l := by
  induction items generalizing l with
  | nil =>
      cases h
      exact .nil
  | cons v items ih =>
      rw [jsonReadyItems] at h
      obtain ⟨j, hj, h⟩ := Imp.except_bind_eq_ok.mp h
      obtain ⟨rest, hrest, h⟩ := Imp.except_bind_eq_ok.mp h
      cases h
      exact .cons hj (ih hrest)

/-- Lists that are written alike have equal members, if members that are written alike are equal. -/
theorem Alike.list_inj {α : Type} {toValue : α → Value} (hinj : ∀ {a b}, Alike (toValue a) (toValue b) → a = b)
    {l l' : List α} (h : Alike (.list (l.map toValue)) (.list (l'.map toValue))) : l = l' := by
  have hequal : ∀ {l l' : List α} {items items' : List PlainJson},
      List.Forall₂ (fun a j => jsonReady (toValue a) = .ok j) l items →
      List.Forall₂ (fun a j => jsonReady (toValue a) = .ok j) l' items' → items.length = items'.length →
      (∀ p ∈ items.zip items', p.1.Same p.2) → l = l' := by
    intro l l' items items' hall
    induction hall generalizing l' items' with
    | nil =>
        intro hall' hlength _
        cases hall' with
        | nil => rfl
        | cons => cases hlength
    | cons ha _ ih =>
        intro hall' hlength hpairs
        cases hall' with
        | nil => cases hlength
        | cons hb hrest =>
            obtain ⟨hsame, hpairs⟩ := List.forall_mem_cons.mp hpairs
            rw [hinj ⟨_, _, ha, hb, hsame⟩, ih hrest (Nat.succ.inj hlength) hpairs]
  obtain ⟨j, k, hj, hk, hsame⟩ := h
  rw [jsonReady] at hj hk
  obtain ⟨items, hitems, hj⟩ := Imp.except_bind_eq_ok.mp hj
  obtain ⟨items', hitems', hk⟩ := Imp.except_bind_eq_ok.mp hk
  cases hj
  cases hk
  cases hsame with
  | arr hlength hpairs =>
      exact hequal (List.forall₂_map_left_iff.mp (forall₂_of_jsonReadyItems hitems))
        (List.forall₂_map_left_iff.mp (forall₂_of_jsonReadyItems hitems')) hlength hpairs

theorem identifiers_inj {l l' : List ContractId} (h : Alike (identifiers l) (identifiers l')) : l = l' :=
  Alike.list_inj text_inj h

/-- Nothing else is written as `None`. -/
def NeverNull (v : Value) : Prop := ∀ j, jsonReady v = .ok j → j ≠ .scalar .none_

/-- Optional parts that are written alike are equal, if parts that are written alike are equal. -/
theorem Alike.optional_inj {α : Type} {toValue : α → Value} (hnull : ∀ a, NeverNull (toValue a))
    (hinj : ∀ {a b}, Alike (toValue a) (toValue b) → a = b) {o o' : Option α}
    (h : Alike (optional toValue o) (optional toValue o')) : o = o' := by
  have hnone : ∀ a, ¬Alike (toValue a) (.scalar .none_) := by
    rintro a ⟨j, k, hj, hk, hsame⟩
    obtain rfl := Except.ok.inj hk
    cases hsame
    exact hnull a _ hj rfl
  have hnone' : ∀ a, ¬Alike (.scalar .none_) (toValue a) := by
    rintro a ⟨j, k, hj, hk, hsame⟩
    obtain rfl := Except.ok.inj hj
    cases hsame
    exact hnull a _ hk rfl
  cases o with
  | none =>
      cases o' with
      | none => rfl
      | some b => exact absurd h (hnone' b)
  | some a =>
      cases o' with
      | none => exact absurd h (hnone a)
      | some b => rw [hinj h]

theorem neverNull_mapping (entries : List (Option String × Value)) : NeverNull (.mapping entries) := by
  intro j hj
  rw [jsonReady] at hj
  obtain ⟨d, -, hj⟩ := Imp.except_bind_eq_ok.mp hj
  cases hj
  intro hnull
  cases hnull

theorem neverNull_datetime (t : Instant) : NeverNull (.datetime (some t)) := by
  intro j hj
  rw [jsonReady] at hj
  obtain ⟨s, -, hj⟩ := Imp.except_bind_eq_ok.mp hj
  cases hj
  intro hnull
  cases hnull

/-! ## Records -/

theorem Provenance.eq_of_alike {a b : Provenance} (h : Alike a.toValue b.toValue) : a = b := by
  have hkind := ProvenanceKind.value_inj (h.entry 0 rfl rfl).enum
  have hevidence := identifiers_inj (h.entry 1 rfl rfl)
  have hadapter := optionalText_inj (h.entry 2 rfl rfl).scalar
  have hversion := optionalText_inj (h.entry 3 rfl rfl).scalar
  cases a
  cases b
  exact (Provenance.mk.injEq ..).mpr ⟨hkind, hevidence, hadapter, hversion⟩

theorem JsonScalar.eq_of_val {a b : JsonScalar} (h : a.val = b.val) : a = b := by
  cases a
  cases b
  cases h
  rfl

theorem StateAttribute.eq_of_alike {a b : StateAttribute} (h : Alike a.toValue b.toValue) : a = b := by
  have hname := text_inj (h.entry 0 rfl rfl)
  have hvalue := JsonScalar.eq_of_val (h.entry 1 rfl rfl).scalar
  cases a
  cases b
  exact (StateAttribute.mk.injEq ..).mpr ⟨hname, hvalue⟩

theorem Probability.eq_of_val {a b : Probability} (h : a.val = b.val) : a = b := by
  cases a
  cases b
  cases h
  rfl

theorem Entity.eq_of_alike {a b : Entity} (h : Alike a.toValue b.toValue) : a = b := by
  have hid := text_inj (h.entry 1 rfl rfl)
  have hkind := EntityKind.value_inj (h.entry 2 rfl rfl).enum
  have hlabel := optionalText_injective (h.entry 3 rfl rfl).scalar
  have hattributes := Alike.list_inj StateAttribute.eq_of_alike (h.entry 4 rfl rfl)
  have hprovenance := Alike.optional_inj (fun _ => neverNull_mapping _) Provenance.eq_of_alike
    (h.entry 5 rfl rfl)
  cases a
  cases b
  exact (Entity.mk.injEq ..).mpr ⟨hid, hkind, hlabel, hattributes, hprovenance⟩

theorem Relation.eq_of_alike {a b : Relation} (h : Alike a.toValue b.toValue) : a = b := by
  have hid := text_inj (h.entry 1 rfl rfl)
  have hsubject := text_inj (h.entry 2 rfl rfl)
  have hpredicate := RelationKind.value_inj (h.entry 3 rfl rfl).enum
  have hobject := text_inj (h.entry 4 rfl rfl)
  have hprovenance := Provenance.eq_of_alike (h.entry 5 rfl rfl)
  have hconfidence := Probability.eq_of_val (Py.Scalar.float.inj (h.entry 6 rfl rfl).scalar)
  have htaint := Taint.value_inj (h.entry 7 rfl rfl).enum
  cases a
  cases b
  exact (Relation.mk.injEq ..).mpr ⟨hid, hsubject, hpredicate, hobject, hprovenance, hconfidence, htaint⟩

theorem Fact.eq_of_alike {a b : Fact} (h : Alike a.toValue b.toValue) : a = b := by
  have hid := text_inj (h.entry 1 rfl rfl)
  have hsubject := text_inj (h.entry 2 rfl rfl)
  have hpredicate := text_inj (h.entry 3 rfl rfl)
  have hobject := JsonScalar.eq_of_val (h.entry 4 rfl rfl).scalar
  have hfrom := Alike.datetime (h.entry 5 rfl rfl)
  have hto := Alike.optional_inj neverNull_datetime Alike.datetime (h.entry 6 rfl rfl)
  have hprovenance := Provenance.eq_of_alike (h.entry 7 rfl rfl)
  have hconfidence := Probability.eq_of_val (Py.Scalar.float.inj (h.entry 8 rfl rfl).scalar)
  have htaint := Taint.value_inj (h.entry 9 rfl rfl).enum
  cases a
  cases b
  exact (Fact.mk.injEq ..).mpr
    ⟨hid, hsubject, hpredicate, hobject, hfrom, hto, hprovenance, hconfidence, htaint⟩

end StateWeaver.Contracts
