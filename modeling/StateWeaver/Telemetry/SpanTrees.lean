import StateWeaver.Telemetry.Spans
import StateWeaver.Lib.RootedTree
import StateWeaver.Lib.Sha2
import StateWeaver.Lib.Divergence

/-!
# Which spans are a trace

`validate_spans` accepts spans exactly if they are few, have one trace and distinct identifiers, and their
parents make a tree in which every child lies within its parent. What it returns does not depend on the order
of the spans.
-/

namespace StateWeaver.Telemetry

open Contracts Relation RootedTree

/-! ## Traces -/

/-- Whether a span has another one as its parent. -/
def ParentOf (spans : List SpanFields) (item parent : SpanFields) : Prop :=
  item ∈ spans ∧ parent ∈ spans ∧ item.parentSpanId = some parent.spanId

/-- Spans that are one trace: the parents make a tree with one root, and children lie within their parents. -/
structure IsTrace (spans : List SpanFields) : Prop where
  nonempty : spans ≠ []
  bounded : spans.length ≤ maxSpans
  one : ∀ a ∈ spans, ∀ b ∈ spans, a.traceId = b.traceId
  unique : (spans.map SpanFields.spanId).Nodup
  tree : ∃ root, root.parentSpanId = none ∧ IsTree (ParentOf spans) {span | span ∈ spans} root
  within : ∀ item parent, ParentOf spans item parent →
    parent.startTimeUnixNano ≤ item.startTimeUnixNano ∧ item.startTimeUnixNano < item.endTimeUnixNano ∧
      item.endTimeUnixNano ≤ parent.endTimeUnixNano

variable {spans spans' : List SpanFields} {item parent root : SpanFields}

theorem parentOf_congr (h : ∀ span, span ∈ spans ↔ span ∈ spans') : ParentOf spans = ParentOf spans' := by
  funext item parent
  rw [ParentOf, ParentOf, h, h]

theorem IsTrace.of_perm (h : IsTrace spans) (hperm : spans.Perm spans') : IsTrace spans' := by
  have hparent := parentOf_congr fun span => hperm.mem_iff (a := span)
  have hnodes : {span | span ∈ spans} = {span | span ∈ spans'} := Set.ext fun _ => hperm.mem_iff
  refine ⟨fun hnil => h.nonempty ?_, hperm.length_eq ▸ h.bounded, fun a ha b hb => ?_, ?_, ?_, ?_⟩
  · exact List.perm_nil.mp (hnil ▸ hperm)
  · exact h.one a (hperm.mem_iff.mpr ha) b (hperm.mem_iff.mpr hb)
  · exact (hperm.map _).nodup_iff.mp h.unique
  · rw [← hparent, ← hnodes]
    exact h.tree
  · rw [← hparent]
    exact h.within

/-- The active spans lead to the current one. -/
def WalkInvariant (s : Walk spans) : Prop :=
  ∀ id ∈ s.path, ∃ span ∈ spans, span.spanId = id ∧
    ∀ current ∈ s.current, TransGen (ParentOf spans) span current.val

section Unique

variable (hunique : (spans.map SpanFields.spanId).Nodup)
include hunique

theorem eq_of_spanId {a b : SpanFields} (ha : a ∈ spans) (hb : b ∈ spans) (h : a.spanId = b.spanId) : a = b :=
  List.inj_on_of_nodup_map hunique ha hb h

theorem get?_byId {id : SpanId} {span : { span // span ∈ spans }} :
    (byId spans).get? id = some span ↔ span.val.spanId = id := by
  have hkeys : (spans.attach.map fun span => span.val.spanId).Nodup := by
    rw [List.attach_map_val (f := SpanFields.spanId)]
    exact hunique
  rw [byId, Dict.get?_index hkeys]
  exact and_iff_right (List.mem_attach _ _)

/-- The parents are looked up. -/
theorem bind_byId (hitem : item ∈ spans) {span : { span // span ∈ spans }} :
    item.parentSpanId.bind (byId spans).get? = some span ↔ ParentOf spans item span.val := by
  rw [Option.bind_eq_some_iff, ParentOf, and_iff_right hitem, and_iff_right span.property]
  constructor
  · rintro ⟨id, hid, hget⟩
    rw [hid, (get?_byId hunique).mp hget]
  · exact fun h => ⟨_, h, (get?_byId hunique).mpr rfl⟩

theorem functional_parentOf : ∀ a b c, ParentOf spans a b → ParentOf spans a c → b = c := by
  rintro a b c ⟨-, hb, hab⟩ ⟨-, hc, hac⟩
  exact eq_of_spanId hunique hb hc (Option.some.inj (hab.symm.trans hac))

/-! ## The loop over the parents -/

/-- Without cycles the loop over the parents does not raise. -/
theorem exists_walk (hacyclic : ∀ span ∈ spans, ¬TransGen (ParentOf spans) span span)
    (start : { span // span ∈ spans }) (finished : List SpanId) :
    ∃ path, (walk spans finished).run ⟨some start, []⟩ = .ok path := by
  have hrun : ∀ e, (walk spans finished).run ⟨some start, []⟩ ≠ .error e := by
    refine Loop.run_invariant (L := walk spans finished) (P := WalkInvariant)
      (Q := fun result => ∀ e, result ≠ Except.error e) ?_ ?_ ?_
    · exact List.forall_mem_nil _
    · intro s s' hpath hbody
      simp only [walk] at hbody
      split at hbody
      · cases hbody
      · next item hcurrent =>
          split_ifs at hbody with hfinished hactive
          obtain rfl := Sum.inl.inj hbody
          have hparent : ∀ next ∈ item.val.parentSpanId.bind (byId spans).get?,
              ParentOf spans item.val next.val := fun next hnext =>
            (bind_byId hunique item.property).mp hnext
          intro id hid
          rcases List.mem_append.mp hid with hid | hid
          · obtain ⟨span, hspan, hspanId, hleads⟩ := hpath id hid
            exact ⟨span, hspan, hspanId, fun next hnext => (hleads item hcurrent).tail (hparent next hnext)⟩
          · obtain rfl := List.mem_singleton.mp hid
            exact ⟨item, item.property, rfl, fun next hnext => .single (hparent next hnext)⟩
    · intro s result hpath hbody e hresult
      simp only [walk] at hbody
      split at hbody
      · cases hresult.symm.trans (Sum.inr.inj hbody).symm
      · next item hcurrent =>
          split_ifs at hbody with hfinished hactive
          · cases hresult.symm.trans (Sum.inr.inj hbody).symm
          · obtain ⟨span, hspan, hspanId, hleads⟩ := hpath _ hactive
            obtain rfl := eq_of_spanId hunique hspan item.property hspanId
            exact hacyclic _ hspan (hleads item hcurrent)
  cases hresult : (walk spans finished).run ⟨some start, []⟩ with
  | ok path => exact ⟨path, rfl⟩
  | error e => exact absurd hresult (hrun e)

/-- Without cycles `_reject_cycles` does not raise. -/
theorem rejectCycles_eq_ok (hacyclic : ∀ span ∈ spans, ¬TransGen (ParentOf spans) span span) :
    rejectCycles spans = .ok () := by
  have hstep : ∀ finished item, ∃ finished', finish spans finished item = .ok finished' := by
    intro finished item
    rw [finish]
    split_ifs with hfinished
    · exact ⟨_, rfl⟩
    · obtain ⟨path, hpath⟩ := exists_walk hunique hacyclic item finished
      exact ⟨_, Imp.except_bind_eq_ok.mpr ⟨path, hpath, rfl⟩⟩
  obtain ⟨finished, hfinished, -⟩ := Imp.foldlM_succeeds (f := finish spans) (I := fun _ _ => True)
    (l := spans.attach) (d := []) (s := []) (fun _ finished item _ _ _ => by
      obtain ⟨finished', h⟩ := hstep finished item
      exact ⟨finished', h, trivial⟩) trivial
  exact Imp.except_bind_eq_ok.mpr ⟨finished, hfinished, rfl⟩

end Unique

/-! ## The loop over the children -/

/-- Whether an identifier is that of a span that leads to the root. -/
def Leads (spans : List SpanFields) (root : SpanFields) (id : SpanId) : Prop :=
  ∃ span ∈ spans, span.spanId = id ∧ ReflTransGen (ParentOf spans) span root

/-- The children of a span that leads to the root lead to it. -/
theorem Leads.child {id child : SpanId} (h : Leads spans root id) (hchild : child ∈ childrenOf spans id) :
    Leads spans root child := by
  obtain ⟨span, hspan, rfl, hleads⟩ := h
  obtain ⟨item, hitem, hparent, rfl⟩ := mem_childrenOf.mp hchild
  exact ⟨item, hitem, rfl, hleads.head ⟨hitem, hspan, hparent⟩⟩

/-- What is reached or on the stack leads to the root, the root is among it, and so are the children of all
that is reached. -/
structure DescentInvariant (root : SpanFields) (s : Descent spans) : Prop where
  leads : ∀ id, id ∈ s.reached ∨ id ∈ s.pending → Leads spans root id
  start : root.spanId ∈ s.reached ∨ root.spanId ∈ s.pending
  closed : ∀ id ∈ s.reached, ∀ child ∈ childrenOf spans id, child ∈ s.reached ∨ child ∈ s.pending

/-- The loop over the children reaches the spans that lead to the root. -/
theorem mem_descend (root : { span // span ∈ spans }) {h : ∀ id ∈ [root.val.spanId], id ∈ spanIds spans}
    (id : SpanId) :
    id ∈ (descend spans).run ⟨[root.val.spanId], ∅, h⟩ ↔ Leads spans root.val id := by
  refine Loop.run_invariant (P := DescentInvariant root.val)
    (Q := fun reached => id ∈ reached ↔ Leads spans root.val id) ?_ ?_ ?_
  · refine ⟨fun id hid => ?_, .inr (List.mem_singleton_self _),
      fun id hid => absurd hid (Finset.notMem_empty _)⟩
    rcases hid with hid | hid
    · exact absurd hid (Finset.notMem_empty _)
    · rw [List.mem_singleton.mp hid]
      exact ⟨root, root.property, rfl, .refl⟩
  · intro s s' hs hbody
    simp only [descend] at hbody
    split at hbody
    · cases hbody
    · next current pending hpending =>
        split_ifs at hbody with hreached
        · obtain rfl := Sum.inl.inj hbody
          have hkept : ∀ id, id ∈ s.reached ∨ id ∈ s.pending → id ∈ s.reached ∨ id ∈ pending := by
            rw [hpending]
            rintro id (hid | hid)
            · exact .inl hid
            · rcases List.mem_cons.mp hid with rfl | hid
              · exact .inl hreached
              · exact .inr hid
          refine ⟨fun id hid => hs.leads id (hid.imp_right fun h => ?_), hkept _ hs.start,
            fun id hid child hchild => hkept _ (hs.closed id hid child hchild)⟩
          rw [hpending]
          exact List.mem_cons_of_mem _ h
        · obtain rfl := Sum.inl.inj hbody
          have hkept : ∀ id, id ∈ s.reached ∨ id ∈ s.pending →
              id ∈ insert current s.reached ∨ id ∈ (childrenOf spans current).reverse ++ pending := by
            rw [hpending]
            rintro id (hid | hid)
            · exact .inl (Finset.mem_insert_of_mem hid)
            · rcases List.mem_cons.mp hid with rfl | hid
              · exact .inl (Finset.mem_insert_self _ _)
              · exact .inr (List.mem_append_right _ hid)
          have hcurrent := hs.leads current (.inr (hpending ▸ List.mem_cons_self))
          refine ⟨?_, hkept _ hs.start, ?_⟩
          · rintro id (hid | hid)
            · rcases Finset.mem_insert.mp hid with rfl | hid
              · exact hcurrent
              · exact hs.leads id (.inl hid)
            · rcases List.mem_append.mp hid with hid | hid
              · exact hcurrent.child (List.mem_reverse.mp hid)
              · exact hs.leads id (.inr (hpending ▸ List.mem_cons_of_mem _ hid))
          · intro id hid child hchild
            rcases Finset.mem_insert.mp hid with rfl | hid
            · exact .inr (List.mem_append_left _ (List.mem_reverse.mpr hchild))
            · exact hkept _ (hs.closed id hid child hchild)
  · intro s reached hs hbody
    simp only [descend] at hbody
    split at hbody
    · next hpending =>
        obtain rfl := Sum.inr.inj hbody
        have hclosed : ∀ id ∈ s.reached, ∀ child ∈ childrenOf spans id, child ∈ s.reached := by
          intro id hid child hchild
          refine (hs.closed id hid child hchild).resolve_right fun h => ?_
          rw [hpending] at h
          exact List.not_mem_nil h
        have hroot : root.val.spanId ∈ s.reached := by
          refine hs.start.resolve_right fun h => ?_
          rw [hpending] at h
          exact List.not_mem_nil h
        refine ⟨fun hid => hs.leads id (.inl hid), ?_⟩
        rintro ⟨span, -, rfl, hleads⟩
        induction hleads using ReflTransGen.head_induction_on with
        | refl => exact hroot
        | head hparent _ ih =>
            exact hclosed _ ih _ (mem_childrenOf.mpr ⟨_, hparent.1, hparent.2.2, rfl⟩)
    · split_ifs at hbody

/-! ## Accepted spans -/

/-- The single root is found. -/
theorem filter_eq_root (hunique : (spans.map SpanFields.spanId).Nodup) (hroot : root ∈ spans)
    (horphan : root.parentSpanId = none) (hleads : ∀ span ∈ spans, ReflTransGen (ParentOf spans) span root) :
    (spans.attach.filter fun item => item.val.parentSpanId = none) = [⟨root, hroot⟩] := by
  have hnodup : spans.attach.Nodup := List.nodup_attach.mpr (List.Nodup.of_map _ hunique)
  have honly : ∀ item ∈ spans.attach,
      decide (item.val.parentSpanId = none) = decide (item = ⟨root, hroot⟩) := by
    intro item _
    rw [decide_eq_decide]
    constructor
    · intro hnone
      rcases ReflTransGen.cases_head (hleads item.val item.property) with heq | ⟨parent, ⟨-, -, hsome⟩, -⟩
      · exact Subtype.ext heq
      · cases hnone.symm.trans hsome
    · rintro rfl
      exact horphan
  rw [List.filter_congr honly, List.filter_eq, List.count_eq_one_of_mem hnodup (List.mem_attach _ _)]
  rfl

theorem withinParent_eq_ok (hunique : (spans.map SpanFields.spanId).Nodup) (hitem : item ∈ spans) :
    withinParent spans item = .ok () ↔ ∀ parent, ParentOf spans item parent →
      parent.startTimeUnixNano ≤ item.startTimeUnixNano ∧ item.startTimeUnixNano < item.endTimeUnixNano ∧
        item.endTimeUnixNano ≤ parent.endTimeUnixNano := by
  rw [withinParent]
  cases hparent : item.parentSpanId.bind (byId spans).get? with
  | none =>
      refine iff_of_true rfl fun parent hof => ?_
      have hfound : item.parentSpanId.bind (byId spans).get? = some ⟨parent, hof.2.1⟩ :=
        (bind_byId hunique hitem).mpr hof
      rw [hfound] at hparent
      cases hparent
  | some found =>
      have hfound := (bind_byId hunique hitem).mp hparent
      rw [Imp.require_eq_ok]
      refine ⟨fun h parent hof => ?_, fun h => h found.val hfound⟩
      rw [functional_parentOf hunique item parent found.val hof hfound]
      exact h

/-- What the checks of `validate_spans` find. -/
theorem isTrace_of_checks (hnonempty : spans ≠ []) (hlength : spans.length ≤ maxSpans)
    (hone : ∀ a ∈ spans, ∀ b ∈ spans, a.traceId = b.traceId)
    (hunique : (spans.map SpanFields.spanId).Nodup) {root : { span // span ∈ spans }}
    (horphan : root.val.parentSpanId = none) (hconnected : validateConnectivity spans root = .ok ())
    (hwithin : Imp.forEach spans (withinParent spans) = .ok ()) : IsTrace spans := by
  refine ⟨hnonempty, hlength, hone, hunique, ⟨root, horphan, root.property, functional_parentOf hunique,
    ?_, ?_⟩, ?_⟩
  · rintro parent ⟨-, -, hsome⟩
    cases horphan.symm.trans hsome
  · intro span hspan
    have hmem : span.spanId ∈ spanIds spans := mem_spanIds.mpr ⟨span, hspan, rfl⟩
    rw [← Imp.require_eq_ok.mp hconnected, mem_descend] at hmem
    obtain ⟨span', hspan', hspanId, hleads⟩ := hmem
    rwa [eq_of_spanId hunique hspan' hspan hspanId] at hleads
  · intro item parent hparent
    exact (withinParent_eq_ok hunique hparent.1).mp (Imp.forEach_eq_ok.mp hwithin item hparent.1) parent hparent

theorem validateConnectivity_eq_ok {root : { span // span ∈ spans }}
    (htree : IsTree (ParentOf spans) {span | span ∈ spans} root.val) :
    validateConnectivity spans root = .ok () := by
  refine Imp.require_eq_ok.mpr (Finset.ext fun id => ?_)
  rw [mem_descend, mem_spanIds]
  constructor
  · rintro ⟨span, hspan, rfl, -⟩
    exact ⟨span, hspan, rfl⟩
  · rintro ⟨span, hspan, rfl⟩
    exact ⟨span, hspan, rfl, htree.leads span hspan⟩

/-- `validate_spans` returns the spans in order exactly if they are a trace. -/
theorem validateSpans_eq_ok {spans : List OtlpSpan} {result : List SpanFields} :
    validateSpans spans = .ok result ↔ IsTrace (spans.map OtlpSpan.toSpanFields) ∧
      result = (spans.map OtlpSpan.toSpanFields).insertionSort SpanFields.le := by
  have hvalidate : (spans.mapM fun span : OtlpSpan => span.toSpanFields.validate) =
      .ok (spans.map OtlpSpan.toSpanFields) := by
    rw [funext OtlpSpan.valid]
    exact List.mapM_pure
  rw [validateSpans, hvalidate]
  generalize spans.map OtlpSpan.toSpanFields = normalized
  constructor
  · intro h
    obtain ⟨_, hnormalized, h⟩ := Imp.except_bind_eq_ok.mp h
    obtain rfl := Except.ok.inj hnormalized
    obtain ⟨hnonempty, h⟩ := Imp.check_bind_eq_ok.mp h
    obtain ⟨hlength, h⟩ := Imp.check_bind_eq_ok.mp h
    obtain ⟨hone, h⟩ := Imp.check_bind_eq_ok.mp h
    obtain ⟨hunique, h⟩ := Imp.check_bind_eq_ok.mp h
    split at h
    · next root hroots =>
        obtain ⟨-, h⟩ := Imp.check_bind_eq_ok.mp h
        obtain ⟨-, h⟩ := Imp.check_bind_eq_ok.mp h
        obtain ⟨hconnected, h⟩ := Imp.check_bind_eq_ok.mp h
        obtain ⟨hwithin, h⟩ := Imp.check_bind_eq_ok.mp h
        refine ⟨isTrace_of_checks (Imp.require_eq_ok.mp hnonempty) (Imp.require_eq_ok.mp hlength) ?_
          (Imp.require_eq_ok.mp hunique) ?_ hconnected hwithin, (Except.ok.inj h).symm⟩
        · intro a ha b hb
          exact (List.toFinset_card_eq_one.mp (Imp.require_eq_ok.mp hone)).2 _ (List.mem_map_of_mem ha) _
            (List.mem_map_of_mem hb)
        · have hroot : root ∈ [root] := List.mem_singleton_self _
          rw [← hroots] at hroot
          exact of_decide_eq_true (List.mem_filter.mp hroot).2
    · cases h
  · rintro ⟨h, rfl⟩
    obtain ⟨root, horphan, htree⟩ := h.tree
    refine Imp.except_bind_eq_ok.mpr ⟨normalized, rfl, ?_⟩
    refine Imp.check_bind_eq_ok.mpr ⟨Imp.require_eq_ok.mpr h.nonempty, ?_⟩
    refine Imp.check_bind_eq_ok.mpr ⟨Imp.require_eq_ok.mpr h.bounded, ?_⟩
    refine Imp.check_bind_eq_ok.mpr ⟨Imp.require_eq_ok.mpr (List.toFinset_card_eq_one.mpr ⟨?_, ?_⟩), ?_⟩
    · exact fun hnil => h.nonempty (List.map_eq_nil_iff.mp hnil)
    · simp only [List.forall_mem_map]
      exact h.one
    refine Imp.check_bind_eq_ok.mpr ⟨Imp.require_eq_ok.mpr h.unique, ?_⟩
    rw [filter_eq_root h.unique htree.mem horphan htree.leads]
    refine Imp.check_bind_eq_ok.mpr ⟨Imp.require_eq_ok.mpr fun item hitem id hid => ?_, ?_⟩
    · rcases ReflTransGen.cases_head (htree.leads item hitem) with heq | ⟨parent, hparent, -⟩
      · rw [heq, horphan] at hid
        cases hid
      · obtain ⟨-, hmem, hsome⟩ := hparent
        obtain rfl := Option.some.inj (hsome.symm.trans hid)
        exact Dict.contains_eq_true.mpr ⟨⟨parent, hmem⟩, (get?_byId h.unique).mpr rfl⟩
    refine Imp.check_bind_eq_ok.mpr ⟨rejectCycles_eq_ok h.unique fun span hspan => htree.acyclic hspan, ?_⟩
    refine Imp.check_bind_eq_ok.mpr ⟨validateConnectivity_eq_ok htree, ?_⟩
    refine Imp.check_bind_eq_ok.mpr ⟨Imp.forEach_eq_ok.mpr fun item hitem => ?_, rfl⟩
    exact (withinParent_eq_ok h.unique hitem).mpr (h.within item)

/-- The spans of a trace are ordered in one way. -/
theorem insertionSort_eq_of_perm (hunique : (spans.map SpanFields.spanId).Nodup) (hperm : spans.Perm spans') :
    spans.insertionSort SpanFields.le = spans'.insertionSort SpanFields.le := by
  have htotal : Std.Total SpanFields.le := ⟨fun _ _ => le_total _ _⟩
  have htrans : IsTrans SpanFields SpanFields.le := ⟨fun _ _ _ => le_trans⟩
  refine List.Perm.eq_of_pairwise ?_ (List.pairwise_insertionSort SpanFields.le spans)
    (List.pairwise_insertionSort SpanFields.le spans') ?_
  · intro a b ha hb hab hba
    have hb' := hperm.mem_iff.mpr ((List.mem_insertionSort _).mp hb)
    have heq := toLex.injective (le_antisymm hab hba)
    exact eq_of_spanId hunique ((List.mem_insertionSort _).mp ha) hb' (Prod.mk.inj heq).2
  · exact (List.perm_insertionSort _ _).trans (hperm.trans (List.perm_insertionSort _ _).symm)

/-- The loop over the parents ends after one iteration for each span and one more at most. -/
theorem exists_after_walk (spans : List SpanFields) (finished : List SpanId)
    (start : { span // span ∈ spans }) : ∃ n ≤ spans.length + 1,
      (walk spans finished).after n ⟨some start, []⟩ = .inr ((walk spans finished).run ⟨some start, []⟩) := by
  obtain ⟨n, hn, hafter⟩ := (walk spans finished).exists_after ⟨some start, []⟩
  have hcard : Walk.remaining (⟨some start, []⟩ : Walk spans) ≤ spans.length := by
    refine (Finset.card_le_card Finset.sdiff_subset).trans ?_
    exact (List.toFinset_card_le _).trans_eq (List.length_map _)
  exact ⟨n, hn.trans (Nat.succ_le_succ hcard), hafter⟩

/-- `validate_spans` accepts spans exactly if they are a trace, the loop over the parents ends for all spans,
and neither what is returned nor its digest depends on the order of the spans. -/
theorem validateSpans_spec [Sha256] :
    (∀ spans : List OtlpSpan,
      (∃ result, validateSpans spans = .ok result) ↔ IsTrace (spans.map OtlpSpan.toSpanFields)) ∧
    (∀ (spans : List SpanFields) (finished : List SpanId) (start : { span // span ∈ spans }),
      ∃ n ≤ spans.length + 1, (walk spans finished).after n ⟨some start, []⟩ =
        .inr ((walk spans finished).run ⟨some start, []⟩)) ∧
    ∀ spans spans' : List OtlpSpan, spans.Perm spans' → ∀ result, validateSpans spans = .ok result →
      validateSpans spans' = .ok result ∧ canonicalSpansSha256 spans' = canonicalSpansSha256 spans := by
  refine ⟨fun spans => ?_, exists_after_walk, fun spans spans' hperm result h => ?_⟩
  · exact ⟨fun ⟨result, h⟩ => (validateSpans_eq_ok.mp h).1, fun h => ⟨_, validateSpans_eq_ok.mpr ⟨h, rfl⟩⟩⟩
  · obtain ⟨htrace, hresult⟩ := validateSpans_eq_ok.mp h
    have hfields := hperm.map OtlpSpan.toSpanFields
    have h' : validateSpans spans' = .ok result := by
      refine validateSpans_eq_ok.mpr ⟨htrace.of_perm hfields, ?_⟩
      rw [hresult, insertionSort_eq_of_perm htrace.unique hfields]
    exact ⟨h', by rw [canonicalSpansSha256, canonicalSpansSha256, h, h']⟩

/-! ## A trace of two spans -/

namespace Request

def server : OtlpSpan where
  traceId := ⟨"0af7651916cd43dd8448eb211c80319c", by decide⟩
  spanId := ⟨"b7ad6b7169203331", by decide⟩
  parentSpanId := none
  name := ⟨"GET /orders", by decide⟩
  kind := .server
  startTimeUnixNano := 1000
  endTimeUnixNano := 5000
  attributes := []
  valid := by decide +kernel

def query : OtlpSpan where
  traceId := server.traceId
  spanId := ⟨"00f067aa0ba902b7", by decide⟩
  parentSpanId := some server.spanId
  name := ⟨"SELECT orders", by decide⟩
  kind := .client
  startTimeUnixNano := 2000
  endTimeUnixNano := 3000
  attributes := []
  valid := by decide +kernel

end Request

/-- A request and the query it makes are a trace in either order. -/
theorem validateSpans_spec_request : let _ := Sha2.sha256
    IsTrace [Request.server.toSpanFields, Request.query.toSpanFields] ∧
    (∃ n ≤ 3, (walk [Request.server.toSpanFields, Request.query.toSpanFields] []).after n
      ⟨some ⟨Request.server.toSpanFields, List.mem_cons_self⟩, []⟩ =
        .inr ((walk [Request.server.toSpanFields, Request.query.toSpanFields] []).run
          ⟨some ⟨Request.server.toSpanFields, List.mem_cons_self⟩, []⟩)) ∧
    validateSpans [Request.query, Request.server] =
      .ok [Request.server.toSpanFields, Request.query.toSpanFields] ∧
    canonicalSpansSha256 [Request.query, Request.server] =
      canonicalSpansSha256 [Request.server, Request.query] := by
  intro _
  obtain ⟨haccepts, hends, horder⟩ := validateSpans_spec
  have hresult : validateSpans [Request.server, Request.query] =
      .ok [Request.server.toSpanFields, Request.query.toSpanFields] := by decide +kernel
  obtain ⟨hswapped, hdigest⟩ := horder _ _ (List.Perm.swap _ _ _) _ hresult
  have hwalk := hends [Request.server.toSpanFields, Request.query.toSpanFields] []
    ⟨Request.server.toSpanFields, List.mem_cons_self⟩
  exact ⟨(haccepts _).mp ⟨_, hresult⟩, hwalk, hswapped, hdigest⟩

end StateWeaver.Telemetry
