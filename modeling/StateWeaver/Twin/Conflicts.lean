import StateWeaver.Twin.Building

/-!
# Which conflicts a twin records

Two facts contradict each other if they are about one predicate of one subject, some point in time is in both
of their intervals, and their objects are written differently. The builder compares objects as Python does,
for which `True`, `1` and `1.0` are equal, so it overlooks exactly those contradictions whose objects are
equal numbers.
-/

namespace StateWeaver.Twin

open Contracts

/-! ## Specification -/

/-- The canonical JSON of a scalar. -/
def canonicalText (s : JsonScalar) : String := String.ofList (Json.text Py.jsonSyntax (.scalar s.val))

/-- What is claimed about a subject, and when. -/
structure Claim where
  subject : ContractId
  predicate : String
  object : JsonScalar
  validFrom : Instant
  validTo : Option Instant
  deriving DecidableEq

/-- The claim holds at a point in time. -/
def Claim.ValidAt (a : Claim) (t : Instant) : Prop :=
  a.validFrom.microseconds ≤ t.microseconds ∧ ∀ last ∈ a.validTo, t.microseconds < last.microseconds

/-- Claims about the same, at a common time. -/
structure Claim.Meet (a b : Claim) : Prop where
  subject : a.subject = b.subject
  predicate : a.predicate = b.predicate
  overlap : ∃ t, a.ValidAt t ∧ b.ValidAt t

/-- Claims that meet, with objects that are written differently. -/
def Claim.Contradicts (a b : Claim) : Prop := a.Meet b ∧ canonicalText a.object ≠ canonicalText b.object

/-- Claims that contradict each other with numbers that are equal to Python. -/
def Claim.Overlooks (a b : Claim) : Prop := a.Contradicts b ∧ a.object.val.eq b.object.val = true

def Claim.ofFact (f : Fact) : Claim := ⟨f.subject, f.predicate.val, f.object, f.validFrom, f.validTo⟩

/-- What a delta claims: from when it is observed on, the last part of its path has the value of its
effect. -/
def Claim.ofDelta (delta : StateDelta) : Claim :=
  ⟨delta.subject, lastSegment delta.effect.path, delta.effect.value, delta.observedAt, none⟩

/-- What an input claims, other than by its sources, which only claim texts. -/
def TwinBuildInput.claims (input : TwinBuildInput) : List Claim :=
  input.suppliedFacts.map Claim.ofFact ++ input.telemetryFlows.flatMap fun flow => flow.deltas.map Claim.ofDelta

/-- A conflict is between two facts, in this order. -/
structure TwinConflict.Between (c : TwinConflict) (left right : Fact) : Prop where
  subject : c.subject = left.subject
  predicate : c.predicate = left.predicate
  leftFactId : c.leftFactId = left.factId
  rightFactId : c.rightFactId = right.factId
  leftValue : c.leftValue = left.object
  rightValue : c.rightValue = right.object

/-- A twin has a conflict of two facts. -/
def Records (twin : SecuritySemanticTwin) (f g : Fact) : Prop :=
  ∃ c ∈ twin.conflicts, c.Between f g ∨ c.Between g f

/-- The conflicts of a twin are of facts that contradict each other, and of all of them. -/
structure ConflictComplete (twin : SecuritySemanticTwin) : Prop where
  recorded : ∀ f ∈ twin.facts, ∀ g ∈ twin.facts, Records twin f g ↔ (Claim.ofFact f).Contradicts (.ofFact g)
  genuine : ∀ c ∈ twin.conflicts, ∃ f ∈ twin.facts, ∃ g ∈ twin.facts, c.Between f g

/-! ## Objects -/

/-- The canonical JSON tells the scalar. -/
theorem canonicalText_inj {a b : JsonScalar} : canonicalText a = canonicalText b ↔ a = b := by
  refine ⟨fun h => ?_, fun h => h ▸ rfl⟩
  have hfinite : ∀ s : JsonScalar, ∀ t ∈ Json.scalars (.scalar s.val : PlainJson), t.IsFinite := by
    intro s t ht x hx
    obtain rfl := List.mem_singleton.mp ht
    have hvalue := s.finite
    rw [hx] at hvalue
    exact hvalue
  have heq := Json.text_inj Py.readable_jsonSyntax (hfinite a) (hfinite b) (String.ofList_injective h)
  exact JsonScalar.eq_of_val (Json.scalar.inj heq)

/-- What is written of a scalar is its canonical JSON. -/
theorem canonicalJsonBytes_scalar {s : JsonScalar} {bytes : ByteArray}
    (h : canonicalJsonBytes (.scalar s.val) = .ok bytes) : bytes = (canonicalText s).toUTF8 :=
  (canonicalJsonBytes_ofJson.mp (show canonicalJsonBytes (.ofJson (.scalar s.val)) = .ok bytes from h)).2.2

theorem eq_self (s : JsonScalar) : s.val.eq s.val = true :=
  Py.Scalar.eq_self fun x hx => by
    have hfinite := s.finite
    rw [hx] at hfinite
    exact hfinite

/-- What is different to Python is written differently. -/
theorem canonicalText_ne {a b : JsonScalar} (h : a.val.eq b.val = false) : canonicalText a ≠ canonicalText b := by
  intro htext
  rw [canonicalText_inj.mp htext, eq_self] at h
  cases h

/-! ## Intervals -/

/-- Intervals overlap exactly if they have a point in time in common. -/
theorem intervalsOverlap_iff {f g : Fact} :
    intervalsOverlap f g = true ↔ ∃ t, (Claim.ofFact f).ValidAt t ∧ (Claim.ofFact g).ValidAt t := by
  have hends : intervalsOverlap f g = true ↔
      (∀ last ∈ f.validTo, g.validFrom.microseconds < last.microseconds) ∧
        ∀ last ∈ g.validTo, f.validFrom.microseconds < last.microseconds := by
    rw [intervalsOverlap, Bool.and_eq_true]
    cases f.validTo <;> cases g.validTo <;> simp
  rw [hends]
  constructor
  · rintro ⟨hf, hg⟩
    -- the later of the two starts is in both intervals
    refine ⟨⟨max f.validFrom.microseconds g.validFrom.microseconds⟩, ⟨le_max_left _ _, fun last hlast => ?_⟩,
      le_max_right _ _, fun last hlast => ?_⟩
    · exact max_lt (f.forward last hlast) (hf last hlast)
    · exact max_lt (hg last hlast) (g.forward last hlast)
  · rintro ⟨t, ⟨hf, hf'⟩, hg, hg'⟩
    exact ⟨fun last hlast => lt_of_le_of_lt hg (hf' last hlast),
      fun last hlast => lt_of_le_of_lt hf (hg' last hlast)⟩

theorem Claim.Meet.symm {a b : Claim} (h : a.Meet b) : b.Meet a := by
  obtain ⟨t, ha, hb⟩ := h.overlap
  exact ⟨h.subject.symm, h.predicate.symm, t, hb, ha⟩

theorem Claim.Contradicts.symm {a b : Claim} (h : a.Contradicts b) : b.Contradicts a :=
  ⟨h.1.symm, h.2.symm⟩

/-! ## Pairs and groups -/

/-- The pairs of a list in order are those of its members that are in order. -/
theorem mem_pairs {α : Type} {R : α → α → Prop} (hasymm : ∀ {a b}, R a b → ¬R b a) {l : List α}
    (hl : l.Pairwise R) {a b : α} : (a, b) ∈ pairs l ↔ a ∈ l ∧ b ∈ l ∧ R a b := by
  induction l with
  | nil => exact iff_of_false List.not_mem_nil fun h => List.not_mem_nil h.1
  | cons x l ih =>
      obtain ⟨hx, hl⟩ := List.pairwise_cons.mp hl
      rw [pairs, List.mem_append, ih hl, List.mem_map]
      constructor
      · rintro (⟨y, hy, heq⟩ | ⟨ha, hb, hab⟩)
        · cases heq
          exact ⟨List.mem_cons_self, List.mem_cons_of_mem _ hy, hx _ hy⟩
        · exact ⟨List.mem_cons_of_mem _ ha, List.mem_cons_of_mem _ hb, hab⟩
      · rintro ⟨ha, hb, hab⟩
        rcases List.mem_cons.mp ha with rfl | ha'
        · rcases List.mem_cons.mp hb with rfl | hb'
          · exact absurd hab (hasymm hab)
          · exact .inl ⟨b, hb', rfl⟩
        · rcases List.mem_cons.mp hb with rfl | hb'
          · exact absurd hab (hasymm (hx a ha'))
          · exact .inr ⟨ha', hb', hab⟩

/-- The group of a key has the facts with this key. -/
theorem getD_grouped (facts : List Fact) (d : Dict (ContractId × Predicate) (List Fact))
    (key : ContractId × Predicate) :
    ((facts.foldl (fun groups fact =>
      groups.insert (fact.subject, fact.predicate)
        ((groups.get? (fact.subject, fact.predicate)).getD [] ++ [fact])) d).get? key).getD [] =
      (d.get? key).getD [] ++ facts.filter fun f => decide ((f.subject, f.predicate) = key) := by
  induction facts generalizing d with
  | nil => exact (List.append_nil _).symm
  | cons f facts ih =>
      rw [List.foldl_cons, ih, List.filter_cons, Dict.get?_insert]
      by_cases hkey : key = (f.subject, f.predicate)
      · rw [if_pos hkey, if_pos (decide_eq_true hkey.symm), Option.getD_some, hkey, List.append_assoc,
          List.singleton_append]
      · rw [if_neg hkey, if_neg fun h => hkey (of_decide_eq_true h).symm]

theorem grouped_eq_filter {facts group : List Fact} {key : ContractId × Predicate}
    (h : (key, group) ∈ (grouped facts).entries) :
    group = facts.filter fun f => decide ((f.subject, f.predicate) = key) := by
  have hgroup := getD_grouped facts Dict.empty key
  rw [Dict.get?_empty, Option.getD_none, List.nil_append] at hgroup
  have hget : (grouped facts).get? key = some group := Dict.mem_entries.mp h
  rw [grouped] at hget
  rw [hget, Option.getD_some] at hgroup
  exact hgroup

/-- Every fact is in a group. -/
theorem exists_grouped {facts : List Fact} {f : Fact} (hf : f ∈ facts) :
    ∃ group, ((f.subject, f.predicate), group) ∈ (grouped facts).entries := by
  have hgroup := getD_grouped facts Dict.empty (f.subject, f.predicate)
  rw [Dict.get?_empty, Option.getD_none, List.nil_append] at hgroup
  have hmem : f ∈ facts.filter fun g => decide ((g.subject, g.predicate) = (f.subject, f.predicate)) :=
    List.mem_filter.mpr ⟨hf, decide_eq_true rfl⟩
  rw [← hgroup] at hmem
  cases hget : (grouped facts).get? (f.subject, f.predicate) with
  | none =>
      rw [grouped] at hget
      rw [hget] at hmem
      cases hmem
  | some group => exact ⟨group, Dict.mem_entries.mpr hget⟩

/-- No group is empty. -/
theorem ne_nil_of_grouped (facts : List Fact) {d : Dict (ContractId × Predicate) (List Fact)}
    (hd : ∀ e ∈ d.entries, e.2 ≠ []) : ∀ e ∈ (facts.foldl (fun groups fact =>
      groups.insert (fact.subject, fact.predicate)
        ((groups.get? (fact.subject, fact.predicate)).getD [] ++ [fact])) d).entries, e.2 ≠ [] := by
  induction facts generalizing d with
  | nil => exact hd
  | cons f facts ih =>
      rw [List.foldl_cons]
      refine ih fun e he => ?_
      rcases Dict.mem_entries_insert.mp he with ⟨-, hvalue⟩ | ⟨-, he⟩
      · rw [hvalue]
        exact List.append_ne_nil_of_right_ne_nil _ (List.cons_ne_nil _ _)
      · exact hd e he

/-- The groups: the facts of each key that some fact has. -/
theorem mem_grouped {facts : List Fact} {key : ContractId × Predicate} {group : List Fact} :
    (key, group) ∈ (grouped facts).entries ↔ (∃ f ∈ facts, (f.subject, f.predicate) = key) ∧
      group = facts.filter fun f => decide ((f.subject, f.predicate) = key) := by
  constructor
  · intro h
    have hgroup := grouped_eq_filter h
    refine ⟨?_, hgroup⟩
    obtain ⟨f, hf⟩ := List.exists_mem_of_ne_nil _ (ne_nil_of_grouped facts (d := Dict.empty) nofun _ h)
    rw [hgroup, List.mem_filter, decide_eq_true_eq] at hf
    exact ⟨f, hf⟩
  · rintro ⟨⟨f, hf, rfl⟩, rfl⟩
    obtain ⟨group, hgroup⟩ := exists_grouped hf
    rw [← grouped_eq_filter hgroup]
    exact hgroup

/-- The groups in the order in which they are searched. -/
def searched (facts : List Fact) : List ((ContractId × Predicate) × List Fact) :=
  ((grouped facts).entries.insertionSort fun a b => toLex a.1 ≤ toLex b.1).map fun group =>
    (group.1, ordered group.2)

theorem pairwise_searched (facts : List Fact) :
    (searched facts).Pairwise fun a b => toLex a.1 < toLex b.1 := by
  have hle := List.pairwise_insertionSort (fun a b : (ContractId × Predicate) × List Fact => toLex a.1 ≤ toLex b.1)
    (grouped facts).entries
  have hkeys : (((grouped facts).entries.insertionSort fun a b => toLex a.1 ≤ toLex b.1).map Prod.fst).Nodup :=
    ((List.perm_insertionSort _ _).map _).nodup_iff.mpr (grouped facts).nodup_keys
  refine List.pairwise_map.mpr ((hle.and (List.pairwise_map.mp hkeys)).imp fun h => ?_)
  exact lt_of_le_of_ne h.1 fun heq => h.2 (toLex.injective heq)

theorem mem_searched {facts : List Fact} {key : ContractId × Predicate} {group : List Fact} :
    (key, group) ∈ searched facts ↔ (∃ f ∈ facts, (f.subject, f.predicate) = key) ∧
      group = ordered (facts.filter fun f => decide ((f.subject, f.predicate) = key)) := by
  rw [searched, List.mem_map]
  constructor
  · rintro ⟨⟨key', group'⟩, hmem, heq⟩
    cases heq
    obtain ⟨hkey, hgroup⟩ := mem_grouped.mp ((List.mem_insertionSort _).mp hmem)
    exact ⟨hkey, congrArg ordered hgroup⟩
  · rintro ⟨hkey, rfl⟩
    exact ⟨_, (List.mem_insertionSort _).mpr (mem_grouped.mpr ⟨hkey, rfl⟩), rfl⟩

/-! ## Conflicts that are found -/

/-- Facts with distinct identifiers are listed by them. -/
theorem pairwise_ordered {α : Type} [Identified α] {l : List α} (h : (l.map Identified.identifier).Nodup) :
    (ordered l).Pairwise fun a b => Identified.identifier a < Identified.identifier b := by
  have hle : (ordered l).Pairwise fun a b => Identified.identifier a ≤ Identified.identifier b :=
    List.pairwise_insertionSort _ l
  have hne : (ordered l).Pairwise fun a b => Identified.identifier a ≠ Identified.identifier b :=
    List.pairwise_map.mp (((List.perm_insertionSort _ l).map _).nodup_iff.mpr h)
  exact (hle.and hne).imp fun h => lt_of_le_of_ne h.1 h.2

theorem disagree_eq_true {f g : Fact} :
    disagree (f, g) = true ↔ f.object.val.eq g.object.val = false ∧ intervalsOverlap f g = true := by
  rw [disagree]
  cases f.object.val.eq g.object.val <;> cases intervalsOverlap f g <;> decide

/-- The pairs of facts that disagree, in the order in which they are found. -/
def disagreements (facts : List Fact) : List (Fact × Fact) :=
  (searched facts).flatMap fun group => (pairs group.2).filter disagree

variable {facts : List Fact}

/-- The pairs of a group are those of facts with its key, in the order of their identifiers. -/
theorem mem_pairs_searched (hids : (facts.map Fact.factId).Nodup) {key : ContractId × Predicate}
    {group : List Fact} (hgroup : (key, group) ∈ searched facts) {f g : Fact} :
    (f, g) ∈ pairs group ↔ (f ∈ facts ∧ (f.subject, f.predicate) = key) ∧
      (g ∈ facts ∧ (g.subject, g.predicate) = key) ∧ f.factId < g.factId := by
  obtain ⟨-, rfl⟩ := mem_searched.mp hgroup
  have hnodup := hids.sublist (List.filter_sublist (p := fun f : Fact => decide ((f.subject, f.predicate) = key)).map _)
  rw [mem_pairs (fun hab => not_lt_of_gt hab) (pairwise_ordered hnodup), mem_ordered, mem_ordered,
    List.mem_filter, List.mem_filter, decide_eq_true_eq, decide_eq_true_eq]
  rfl

/-- The facts that disagree are those about one predicate of one subject, each two of them in the order of
their identifiers. -/
theorem mem_disagreements (hids : (facts.map Fact.factId).Nodup) {f g : Fact} : (f, g) ∈ disagreements facts ↔
    f ∈ facts ∧ g ∈ facts ∧ f.factId < g.factId ∧ f.subject = g.subject ∧ f.predicate = g.predicate ∧
      disagree (f, g) = true := by
  rw [disagreements, List.mem_flatMap]
  constructor
  · rintro ⟨⟨key, group⟩, hgroup, hfg⟩
    obtain ⟨hpair, hdisagree⟩ := List.mem_filter.mp hfg
    obtain ⟨⟨hf, hkey⟩, ⟨hg, hkey'⟩, hlt⟩ := (mem_pairs_searched hids hgroup).mp hpair
    obtain ⟨hsubject, hpredicate⟩ := Prod.mk.inj (hkey.trans hkey'.symm)
    exact ⟨hf, hg, hlt, hsubject, hpredicate, hdisagree⟩
  · rintro ⟨hf, hg, hlt, hsubject, hpredicate, hdisagree⟩
    have hgroup := mem_searched.mpr ⟨⟨f, hf, rfl⟩, rfl⟩
    refine ⟨_, hgroup, List.mem_filter.mpr ⟨(mem_pairs_searched hids hgroup).mpr ⟨⟨hf, rfl⟩, ⟨hg, ?_⟩, hlt⟩,
      hdisagree⟩⟩
    rw [hsubject, hpredicate]

variable [Sha256] {conflicts : List TwinConflict}

/-- The conflicts are those of the facts that disagree. -/
theorem findConflicts_eq_ok : findConflicts facts = .ok conflicts ↔
    (disagreements facts).mapM conflictOf = .ok conflicts := by
  rw [disagreements, Imp.mapM_flatMap_eq_ok, searched]
  simp only [List.mapM_map]
  rw [findConflicts, Imp.except_bind_eq_ok]
  refine exists_congr fun parts => and_congr_right fun _ => ?_
  exact ⟨fun h => (Except.ok.inj h).symm, fun h => congrArg Except.ok h.symm⟩

/-- The conflicts of facts: one for each two that disagree, in the order of their identifiers. -/
theorem mem_findConflicts (hids : (facts.map Fact.factId).Nodup) (h : findConflicts facts = .ok conflicts)
    {c : TwinConflict} : c ∈ conflicts ↔ ∃ f ∈ facts, ∃ g ∈ facts, f.factId < g.factId ∧
      f.subject = g.subject ∧ f.predicate = g.predicate ∧ disagree (f, g) = true ∧ conflictOf (f, g) = .ok c := by
  rw [Imp.mem_of_mapM (findConflicts_eq_ok.mp h)]
  constructor
  · rintro ⟨⟨f, g⟩, hfg, hconflict⟩
    obtain ⟨hf, hg, hlt, hsubject, hpredicate, hdisagree⟩ := (mem_disagreements hids).mp hfg
    exact ⟨f, hf, g, hg, hlt, hsubject, hpredicate, hdisagree, hconflict⟩
  · rintro ⟨f, hf, g, hg, hlt, hsubject, hpredicate, hdisagree, hconflict⟩
    exact ⟨(f, g), (mem_disagreements hids).mpr ⟨hf, hg, hlt, hsubject, hpredicate, hdisagree⟩, hconflict⟩

/-- Two facts that disagree have a conflict, if any are found. -/
theorem exists_conflictOf (hids : (facts.map Fact.factId).Nodup) (h : findConflicts facts = .ok conflicts)
    {f g : Fact} (hf : f ∈ facts) (hg : g ∈ facts) (hlt : f.factId < g.factId) (hsubject : f.subject = g.subject)
    (hpredicate : f.predicate = g.predicate) (hdisagree : disagree (f, g) = true) :
    ∃ c, conflictOf (f, g) = .ok c :=
  Imp.exists_mapM.mp ⟨_, findConflicts_eq_ok.mp h⟩ (f, g)
    ((mem_disagreements hids).mpr ⟨hf, hg, hlt, hsubject, hpredicate, hdisagree⟩)

theorem between_of_conflictOf {f g : Fact} {c : TwinConflict} (h : conflictOf (f, g) = .ok c) : c.Between f g := by
  rw [conflictOf, TwinConflict.create] at h
  split_ifs at h
  cases h
  exact ⟨rfl, rfl, rfl, rfl, rfl, rfl⟩

/-! ## Completeness -/

variable {input : TwinBuildInput} {twin : SecuritySemanticTwin} {items : List Item} {c : Collections}

/-- What a twin records of two of its facts: that they meet with objects that are different to Python. -/
theorem Built.records_iff (h : Built input twin items c conflicts) {f g : Fact} (hf : f ∈ twin.facts)
    (hg : g ∈ twin.facts) :
    Records twin f g ↔ (Claim.ofFact f).Meet (.ofFact g) ∧ f.object.val.eq g.object.val = false := by
  have hids := nodup_facts_values h.collects
  have hvalues : ∀ {f}, f ∈ twin.facts → f ∈ c.facts.values := fun hf => by
    rw [h.facts, mem_ordered] at hf
    exact hf
  have hunique : ∀ {f g : Fact}, f ∈ c.facts.values → g ∈ c.facts.values → f.factId = g.factId → f = g :=
    fun hf hg => List.inj_on_of_nodup_map hids hf hg
  have hone : ∀ {f g}, f ∈ twin.facts → g ∈ twin.facts →
      ((∃ conflict ∈ twin.conflicts, conflict.Between f g) ↔ f.factId < g.factId ∧
        (Claim.ofFact f).Meet (.ofFact g) ∧ f.object.val.eq g.object.val = false) := by
    intro f g hf hg
    rw [h.conflicts]
    constructor
    · rintro ⟨conflict, hmem, hbetween⟩
      obtain ⟨f', hf', g', hg', hlt, hsubject, hpredicate, hdisagree, hconflict⟩ :=
        (mem_findConflicts hids h.found).mp (mem_ordered.mp hmem)
      have hbetween' := between_of_conflictOf hconflict
      obtain rfl := hunique hf' (hvalues hf) (hbetween'.leftFactId.symm.trans hbetween.leftFactId)
      obtain rfl := hunique hg' (hvalues hg) (hbetween'.rightFactId.symm.trans hbetween.rightFactId)
      obtain ⟨hdifferent, hoverlap⟩ := disagree_eq_true.mp hdisagree
      exact ⟨hlt, ⟨hsubject, congrArg Constrained.val hpredicate, intervalsOverlap_iff.mp hoverlap⟩, hdifferent⟩
    · rintro ⟨hlt, hmeet, hdifferent⟩
      have hpredicate := Constrained.val_injective hmeet.predicate
      have hdisagree := disagree_eq_true.mpr ⟨hdifferent, intervalsOverlap_iff.mpr hmeet.overlap⟩
      obtain ⟨conflict, hconflict⟩ :=
        exists_conflictOf hids h.found (hvalues hf) (hvalues hg) hlt hmeet.subject hpredicate hdisagree
      refine ⟨conflict, mem_ordered.mpr ((mem_findConflicts hids h.found).mpr ?_), between_of_conflictOf hconflict⟩
      exact ⟨f, hvalues hf, g, hvalues hg, hlt, hmeet.subject, hpredicate, hdisagree, hconflict⟩
  have hsplit : Records twin f g ↔ (∃ conflict ∈ twin.conflicts, conflict.Between f g) ∨
      ∃ conflict ∈ twin.conflicts, conflict.Between g f := by
    rw [Records, ← exists_or]
    exact exists_congr fun conflict => and_or_left
  rw [hsplit, hone hf hg, hone hg hf]
  constructor
  · rintro (⟨-, hmeet, hdifferent⟩ | ⟨-, hmeet, hdifferent⟩)
    · exact ⟨hmeet, hdifferent⟩
    · refine ⟨hmeet.symm, Bool.not_eq_true _ |>.mp fun heq => ?_⟩
      rw [Py.Scalar.eq_symm heq] at hdifferent
      cases hdifferent
  · rintro ⟨hmeet, hdifferent⟩
    rcases lt_trichotomy f.factId g.factId with hlt | heq | hlt
    · exact .inl ⟨hlt, hmeet, hdifferent⟩
    · rw [hunique (hvalues hf) (hvalues hg) heq, eq_self] at hdifferent
      cases hdifferent
    · refine .inr ⟨hlt, hmeet.symm, Bool.not_eq_true _ |>.mp fun heq => ?_⟩
      rw [Py.Scalar.eq_symm heq] at hdifferent
      cases hdifferent

/-- Conflicts are of facts of the twin. -/
theorem Built.genuine (h : Built input twin items c conflicts) :
    ∀ conflict ∈ twin.conflicts, ∃ f ∈ twin.facts, ∃ g ∈ twin.facts, conflict.Between f g := by
  intro conflict hmem
  rw [h.conflicts, mem_ordered] at hmem
  obtain ⟨f, hf, g, hg, -, -, -, -, hconflict⟩ :=
    (mem_findConflicts (nodup_facts_values h.collects) h.found).mp hmem
  rw [h.facts]
  exact ⟨f, mem_ordered.mpr hf, g, mem_ordered.mpr hg, between_of_conflictOf hconflict⟩

/-- The conflicts of a twin are complete exactly if no two of its facts are overlooked. -/
theorem Built.complete_iff (h : Built input twin items c conflicts) : ConflictComplete twin ↔
    ∀ f ∈ twin.facts, ∀ g ∈ twin.facts, ¬(Claim.ofFact f).Overlooks (.ofFact g) := by
  constructor
  · rintro ⟨hrecorded, -⟩ f hf g hg ⟨hcontradicts, hequal⟩
    have hdifferent := ((h.records_iff hf hg).mp ((hrecorded f hf g hg).mpr hcontradicts)).2
    rw [show f.object.val.eq g.object.val = true from hequal] at hdifferent
    cases hdifferent
  · refine fun hnone => ⟨fun f hf g hg => ?_, h.genuine⟩
    rw [h.records_iff hf hg]
    constructor
    · exact fun ⟨hmeet, hdifferent⟩ => ⟨hmeet, canonicalText_ne hdifferent⟩
    · exact fun hcontradicts => ⟨hcontradicts.1, Bool.not_eq_true _ |>.mp fun hequal =>
        hnone f hf g hg ⟨hcontradicts, hequal⟩⟩

/-! ## Claims of an input -/

omit [Sha256] in
theorem strip_eq_self {s : String} (h : ∀ c ∈ s.toList, Constrained.isWhitespace c = false) :
    Constrained.strip s = s := by
  have hdrop : ∀ {l : List Char}, (∀ c ∈ l, Constrained.isWhitespace c = false) →
      l.dropWhile Constrained.isWhitespace = l := by
    intro l hl
    cases l with
    | nil => rfl
    | cons c l => rw [List.dropWhile_cons_of_neg (by rw [hl c List.mem_cons_self]; exact Bool.false_ne_true)]
  rw [Constrained.strip, hdrop h, hdrop fun c hc => h c (List.mem_reverse.mp hc), List.reverse_reverse,
    String.ofList_toList]

omit [Sha256] in
/-- A segment of a path has no whitespace. -/
theorem isWhitespace_of_segment {c : Char} (h : c.isLower = true ∨ (isLowerAlnum c || c == '_') = true) :
    Constrained.isWhitespace c = false := by
  have hrange : 48 ≤ c.toNat ∧ c.toNat ≤ 122 := by
    have hlower : c.isLower = true → 48 ≤ c.toNat ∧ c.toNat ≤ 122 := by
      intro hlower
      simp only [Char.isLower, Bool.and_eq_true, decide_eq_true_eq, ge_iff_le, UInt32.le_iff_toNat_le] at hlower
      exact ⟨le_trans (by decide) hlower.1, hlower.2⟩
    rcases h with h | h
    · exact hlower h
    · rw [Bool.or_eq_true, isLowerAlnum, Bool.or_eq_true] at h
      rcases h with (h | hdigit) | hunderscore
      · exact hlower h
      · simp only [Char.isDigit, Bool.and_eq_true, decide_eq_true_eq, ge_iff_le,
          UInt32.le_iff_toNat_le] at hdigit
        exact ⟨hdigit.1, le_trans hdigit.2 (by decide)⟩
      · rw [beq_iff_eq.mp hunderscore]
        decide
  rw [Constrained.isWhitespace]
  generalize c.toNat = n at hrange
  simp only [Bool.or_eq_false_iff, Bool.and_eq_false_iff, decide_eq_false_iff_not, List.contains_eq_mem,
    List.mem_cons, List.not_mem_nil, or_false]
  omega

omit [Sha256] in
theorem strip_lastSegment (path : StatePath) : Constrained.strip (lastSegment path) = lastSegment path := by
  have hparts : ∀ part ∈ path.val.toList.splitOn '.', ∀ c ∈ part, Constrained.isWhitespace c = false := by
    have hpath := path.matchesPattern
    rw [isStatePath, Bool.and_eq_true, isDottedPath, Bool.and_eq_true, List.all_eq_true] at hpath
    intro part hpart c hc
    have hpattern := hpath.2.2 part hpart
    cases part with
    | nil => cases hc
    | cons first rest =>
        rw [headTail, Bool.and_eq_true, List.all_eq_true] at hpattern
        rcases List.mem_cons.mp hc with rfl | hc
        · exact isWhitespace_of_segment (.inl hpattern.1)
        · exact isWhitespace_of_segment (.inr (hpattern.2 c hc))
  refine strip_eq_self fun c hc => ?_
  rw [lastSegment, String.toList_ofList] at hc
  cases hsplit : path.val.toList.splitOn '.' with
  | nil =>
      rw [hsplit] at hc
      cases hc
  | cons first rest =>
      rw [hsplit, List.getLastD_cons] at hc
      refine hparts _ ?_ c hc
      rw [hsplit]
      exact List.getLastD_mem_cons

theorem ofFact_deltaFact {delta : StateDelta} {f : Fact} (h : deltaFact delta = .ok f) :
    Claim.ofFact f = .ofDelta delta := by
  obtain ⟨-, hsubject, hpredicate, hobject, hfrom, hto, -⟩ := Fact.create_eq_ok (mapError_eq_ok.mp h)
  rw [strip_lastSegment] at hpredicate
  rw [Claim.ofFact, hsubject, hpredicate, hobject, hfrom, hto]
  rfl

/-- The facts of a twin claim what its input claims, or texts. -/
theorem Built.claim_of_fact (h : Built input twin items c conflicts) {f : Fact} (hf : f ∈ twin.facts) :
    Claim.ofFact f ∈ input.claims ∨ IsTextual f := by
  rcases fact_of_mem_inputItems h.contributed (h.mem_facts.mp hf) with
    hf | ⟨flow, hflow, delta, hdelta, hfact⟩ | ⟨htext, -⟩
  · exact .inl (List.mem_append_left _ (List.mem_map_of_mem hf))
  · refine .inl (List.mem_append_right _ (List.mem_flatMap.mpr ⟨flow, hflow, ?_⟩))
    rw [ofFact_deltaFact hfact]
    exact List.mem_map_of_mem hdelta
  · exact .inr htext

/-- What an input claims is a fact of its twin. -/
theorem Built.fact_of_claim (h : Built input twin items c conflicts) {a : Claim} (ha : a ∈ input.claims) :
    ∃ f ∈ twin.facts, Claim.ofFact f = a := by
  rcases List.mem_append.mp ha with ha | ha
  · obtain ⟨f, hf, rfl⟩ := List.mem_map.mp ha
    exact ⟨f, h.mem_facts.mpr (mem_inputItems_of_supplied h.contributed hf), rfl⟩
  · obtain ⟨flow, hflow, ha⟩ := List.mem_flatMap.mp ha
    obtain ⟨delta, hdelta, rfl⟩ := List.mem_map.mp ha
    obtain ⟨f, hfact, hf⟩ := mem_inputItems_of_delta h.contributed hflow hdelta
    exact ⟨f, h.mem_facts.mpr hf, ofFact_deltaFact hfact⟩

omit [Sha256] in
/-- A text is equal to nothing else. -/
theorem eq_of_textual {a : JsonScalar} {s : String} (h : (textScalar s).val.eq a.val = true) :
    a = textScalar s := by
  refine JsonScalar.eq_of_val ?_
  have hkey := (Py.Scalar.eq_iff.mp h).1
  cases hval : a.val <;> rw [hval] at hkey <;> cases hkey
  rfl

omit [Sha256] in
/-- Texts are not overlooked. -/
theorem not_overlooks_of_textual {f g : Fact} (h : IsTextual f ∨ IsTextual g) :
    ¬(Claim.ofFact f).Overlooks (.ofFact g) := by
  rintro ⟨⟨-, hdifferent⟩, hequal⟩
  refine hdifferent (congrArg canonicalText ?_)
  rcases h with ⟨s, hs⟩ | ⟨s, hs⟩
  · have hequal' : f.object.val.eq g.object.val = true := hequal
    rw [hs] at hequal'
    exact hs.trans (eq_of_textual hequal').symm
  · have hequal' : g.object.val.eq f.object.val = true := Py.Scalar.eq_symm hequal
    rw [hs] at hequal'
    exact (eq_of_textual hequal').trans hs.symm

theorem Built.overlooks_iff (h : Built input twin items c conflicts) :
    (∀ f ∈ twin.facts, ∀ g ∈ twin.facts, ¬(Claim.ofFact f).Overlooks (.ofFact g)) ↔
      ∀ a ∈ input.claims, ∀ b ∈ input.claims, ¬a.Overlooks b := by
  constructor
  · intro hnone a ha b hb
    obtain ⟨f, hf, rfl⟩ := h.fact_of_claim ha
    obtain ⟨g, hg, rfl⟩ := h.fact_of_claim hb
    exact hnone f hf g hg
  · intro hnone f hf g hg
    rcases h.claim_of_fact hf with ha | htext
    · rcases h.claim_of_fact hg with hb | htext
      · exact hnone _ ha _ hb
      · exact not_overlooks_of_textual (.inr htext)
    · exact not_overlooks_of_textual (.inl htext)

/-- The conflicts of a twin are complete exactly if its input claims no two numbers that are equal to Python
but written differently, of one predicate of one subject at a common time. -/
theorem conflictComplete_iff (h : build input = .ok twin) :
    ConflictComplete twin ↔ ∀ a ∈ input.claims, ∀ b ∈ input.claims, ¬a.Overlooks b := by
  obtain ⟨items, c, conflicts, hbuilt⟩ := built_of_build h
  rw [hbuilt.complete_iff, hbuilt.overlooks_iff]

/-! ## A flag and a number -/

/-- What nobody has observed. -/
def hypothesized : Provenance :=
  ⟨.hypothesized, [], none, none, by decide, by decide, Provenance.noEvidence_unique,
    Provenance.unversioned⟩

/-- A guess about a feature, from the start of 1970 on. -/
def guess (id : String) (hid : isContractId id = true) (object : JsonScalar) : Fact :=
  ⟨⟨id, hid⟩, ⟨"feature.search", by decide⟩, ⟨"enabled", by decide⟩, object, ⟨0⟩, none, hypothesized, .one,
    .modelGenerated, nofun, rfl⟩

omit [Sha256] in
theorem isContractId_flag : isContractId "fact.flag" = true := by decide

omit [Sha256] in
theorem isFinite_flag : isFinite (.bool true) = true := rfl

def guessTrue : Fact := guess "fact.flag" isContractId_flag ⟨.bool true, isFinite_flag⟩

def guessOne : Fact := guess "fact.number" (by decide) ⟨.int 1, rfl⟩

/-- An input with facts only. -/
def TwinBuildInput.ofFacts (facts : List Fact) (h : (facts.map Fact.factId).Nodup) : TwinBuildInput :=
  ⟨⟨"twin.guesses", by decide⟩, [], [], [], [], [], facts, [], Provenance.noEvidence_unique,
    Provenance.noEvidence_unique, Provenance.noEvidence_unique, Provenance.noEvidence_unique,
    Provenance.noEvidence_unique, h, Provenance.noEvidence_unique⟩

/-- Two guesses that are written differently. -/
def guesses : TwinBuildInput := .ofFacts [guessTrue, guessOne] (by decide)

omit [Sha256] in
theorem exists_build_guesses : ∃ twin, @build Sha2.sha256 guesses = .ok twin := by
  have h : (@build Sha2.sha256 guesses).isOk = true := by decide +kernel
  cases hbuild : @build Sha2.sha256 guesses with
  | ok twin => exact ⟨twin, rfl⟩
  | error e =>
      rw [hbuild] at h
      cases h

omit [Sha256] in
theorem overlooks_guesses : (Claim.ofFact guessTrue).Overlooks (.ofFact guessOne) := by
  refine ⟨⟨⟨rfl, rfl, ⟨0⟩, ⟨le_refl _, nofun⟩, le_refl _, nofun⟩, fun htext => ?_⟩, by decide +kernel⟩
  have hne : guessTrue.object ≠ guessOne.object := by decide
  exact hne (canonicalText_inj.mp htext)

omit [Sha256] in
/-- `True` and `1` are no conflict. -/
theorem not_conflictComplete_guesses :
    ∃ twin, @build Sha2.sha256 guesses = .ok twin ∧ ¬ConflictComplete twin := by
  let _ := Sha2.sha256
  obtain ⟨twin, htwin⟩ := exists_build_guesses
  obtain ⟨items, c, conflicts, hbuilt⟩ := built_of_build htwin
  refine ⟨twin, htwin, fun hcomplete => ?_⟩
  have hnone := hbuilt.overlooks_iff.mp (hbuilt.complete_iff.mp hcomplete)
  exact hnone (.ofFact guessTrue) (by decide) (.ofFact guessOne) (by decide) overlooks_guesses

omit [Sha256] in
theorem conflictComplete_iff_guesses : ∃ twin, @build Sha2.sha256 guesses = .ok twin ∧
    (ConflictComplete twin ↔ ∀ a ∈ guesses.claims, ∀ b ∈ guesses.claims, ¬a.Overlooks b) := by
  obtain ⟨twin, htwin⟩ := exists_build_guesses
  exact ⟨twin, htwin, @conflictComplete_iff Sha2.sha256 _ _ htwin⟩

end StateWeaver.Twin
