import StateWeaver.Candidate.Markers

/-!
# The order of versions

By PEP 440 the segments of two releases are compared as numbers, the shorter release padded with zeros. The tuples of
the segments are compared in the same way unless they differ only in the number of zeros at their ends: then the
shorter one is less (`slips_iff`). A marker and a restriction of the versions of Python mean what PEP 440 says exactly
if no comparison in them is of that kind.
-/

namespace StateWeaver.Candidate

open Py (CodePoint Text text dot)

/-! ## Meaning -/

/-- What an operator says of two things that are ordered. -/
def CmpOp.Orders {α : Type} [LinearOrder α] (left : α) (right : α) : CmpOp → Prop
  | .eq => left = right
  | .notEq => left ≠ right
  | .lt => left < right
  | .ltE => left ≤ right
  | .gt => right < left
  | .gtE => right ≤ left
  | _ => False

/-- Whether an operator holds of two releases by PEP 440. -/
def CmpOp.OrdersReleases (operator : CmpOp) (left right : Text) : Prop :=
  ∃ a b, versionTuple left = .ok a ∧ versionTuple right = .ok b ∧
    operator.Orders (Padded.sequence a) (Padded.sequence b)

/-- Whether a comparison of a marker holds. -/
def Compares (left : Text) (operator : CmpOp) (right : Text) (versioned : Bool) : Prop :=
  match operator with
  | .isIn => left <:+: right
  | .notIn => ¬left <:+: right
  | operator => if versioned then operator.OrdersReleases left right else operator.Orders left right

/-- Whether all comparisons of a chain hold. -/
def ChainHolds (environment : Environment) : Text × Bool → List (CmpOp × Expr) → Prop
  | _, [] => True
  | left, (operator, comparator) :: rest => ∃ right, markerOperand environment comparator = .ok right ∧
      Compares left.1 operator right.1 (left.2 || right.2) ∧ ChainHolds environment right rest

mutual

/-- Whether a marker holds. -/
def MarkerHolds (environment : Environment) : Expr → Prop
  | .boolOp .and values => AllHold environment values
  | .boolOp .or values => AnyHolds environment values
  | .unaryNot operand => ¬MarkerHolds environment operand
  | .compare left comparisons =>
      ∃ value, markerOperand environment left = .ok value ∧ ChainHolds environment value comparisons
  | _ => False

def AllHold (environment : Environment) : List Expr → Prop
  | [] => True
  | e :: rest => MarkerHolds environment e ∧ AllHold environment rest

def AnyHolds (environment : Environment) : List Expr → Prop
  | [] => False
  | e :: rest => MarkerHolds environment e ∨ AnyHolds environment rest

end

/-- Whether all clauses of a restriction hold. -/
def ClausesHold (target : Text) (clauses : List Text) : Prop :=
  ∀ clause ∈ clauses, ∃ operator version, readClause clause = some (operator, version) ∧
    CmpOp.OrdersReleases operator target version

/-! ## The comparisons of versions -/

/-- Two versions that are compared. -/
structure VersionComparison where
  left : Text
  operator : CmpOp
  right : Text

/-- The comparisons of versions in a chain. -/
def chainComparisons (environment : Environment) : Text × Bool → List (CmpOp × Expr) → List VersionComparison
  | _, [] => []
  | left, (operator, comparator) :: rest =>
      match markerOperand environment comparator with
      | .ok right =>
          (if left.2 || right.2 then [⟨left.1, operator, right.1⟩] else []) ++
            chainComparisons environment right rest
      | .error _ => []

mutual

/-- The comparisons of versions in a marker. -/
def versionComparisons (environment : Environment) : Expr → List VersionComparison
  | .boolOp _ values => versionComparisonsOf environment values
  | .unaryNot operand => versionComparisons environment operand
  | .compare left comparisons =>
      match markerOperand environment left with
      | .ok value => chainComparisons environment value comparisons
      | .error _ => []
  | _ => []

def versionComparisonsOf (environment : Environment) : List Expr → List VersionComparison
  | [] => []
  | e :: rest => versionComparisons environment e ++ versionComparisonsOf environment rest

end

/-- The comparisons of versions in a restriction. -/
def clauseComparisons (target : Text) (clauses : List Text) : List VersionComparison :=
  clauses.filterMap fun clause => (readClause clause).map fun c => ⟨target, c.1, c.2⟩

/-- Whether two versions are compared as PEP 440 says. -/
def VersionComparison.Agrees (c : VersionComparison) : Prop :=
  ∀ a b, versionTuple c.left = .ok a → versionTuple c.right = .ok b →
    (compareOrdered a c.operator b = .ok true ↔ c.operator.Orders (Padded.sequence a) (Padded.sequence b))

/-- Whether an operator tells apart two tuples that differ in zeros at their ends: an equality always, an order if it
is strict and the lesser side is the shorter one, or not strict and the greater side is. -/
def Slips (a : List ℕ) (operator : CmpOp) (b : List ℕ) : Prop :=
  Padded.sequence a = Padded.sequence b ∧
    (a.length ≠ b.length ∧ (operator = .eq ∨ operator = .notEq) ∨
      a.length < b.length ∧ (operator = .lt ∨ operator = .gtE) ∨
      b.length < a.length ∧ (operator = .ltE ∨ operator = .gt))

/-- Whether two versions are compared that differ in zeros at their ends. -/
def VersionComparison.Slips (c : VersionComparison) : Prop :=
  ∃ a b, versionTuple c.left = .ok a ∧ versionTuple c.right = .ok b ∧ Candidate.Slips a c.operator b

theorem compareOrdered_eq_true {α : Type} [LinearOrder α] {a b : α} {operator : CmpOp} :
    compareOrdered a operator b = .ok true ↔ operator.Orders a b := by
  cases operator <;>
    simp only [compareOrdered, CmpOp.Orders, Except.ok.injEq, decide_eq_true_eq, reduceCtorEq]

/-- What an operator says of two things depends on which one is less. -/
theorem CmpOp.orders_congr {α β : Type} [LinearOrder α] [LinearOrder β] {a b : α} {x y : β}
    (hlt : a < b ↔ x < y) (hgt : b < a ↔ y < x) (operator : CmpOp) :
    operator.Orders a b ↔ operator.Orders x y := by
  have heq : a = b ↔ x = y := by
    rw [eq_iff_le_not_lt, eq_iff_le_not_lt, ← not_lt, ← not_lt, hlt, hgt]
  cases operator with
  | eq => exact heq
  | notEq => exact not_congr heq
  | lt => exact hlt
  | ltE => exact not_lt.symm.trans ((not_congr hgt).trans not_lt)
  | gt => exact hgt
  | gtE => exact not_lt.symm.trans ((not_congr hlt).trans not_lt)
  | _ => exact Iff.rfl

/-- Tuples are compared as the padded releases unless they differ in zeros at their ends. -/
theorem not_slips_iff {a b : List ℕ} {operator : CmpOp} : ¬Slips a operator b ↔
    (compareOrdered a operator b = .ok true ↔ operator.Orders (Padded.sequence a) (Padded.sequence b)) := by
  rw [compareOrdered_eq_true]
  by_cases hseq : Padded.sequence a = Padded.sequence b
  · -- both orders are those of the lengths, the padded releases are equal
    have hlengths : operator.Orders a b ↔ operator.Orders a.length b.length := CmpOp.orders_congr
      (Padded.lt_iff_length_lt hseq) (Padded.lt_iff_length_lt hseq.symm) operator
    rw [hlengths, Slips, hseq]
    cases operator <;>
      simp only [CmpOp.Orders, reduceCtorEq, or_false, false_or, or_self, and_false, and_true, true_and, le_refl,
        lt_irrefl, ne_eq, not_true_eq_false, iff_true, iff_false, iff_self, not_false_eq_true, not_not] <;>
      omega
  · exact iff_of_true (fun h => hseq h.1) (CmpOp.orders_congr (Padded.lt_iff_sequence_lt hseq)
      (Padded.lt_iff_sequence_lt (Ne.symm hseq)) operator)

/-- Two versions are compared as PEP 440 says unless they differ in zeros at their ends. -/
theorem VersionComparison.not_slips_iff {c : VersionComparison} : ¬c.Slips ↔ c.Agrees := by
  simp only [VersionComparison.Slips, Agrees, not_exists, not_and]
  exact forall₄_congr fun _ _ _ _ => Candidate.not_slips_iff

/-! ## Markers -/

theorem ordersReleases_iff {operator : CmpOp} {left right : Text} {a b : List ℕ} (ha : versionTuple left = .ok a)
    (hb : versionTuple right = .ok b) :
    operator.OrdersReleases left right ↔ operator.Orders (Padded.sequence a) (Padded.sequence b) := by
  constructor
  · rintro ⟨_, _, ha', hb', h⟩
    rw [ha] at ha'
    rw [hb] at hb'
    cases ha'
    cases hb'
    exact h
  · exact fun h => ⟨a, b, ha, hb, h⟩

/-- An operator that is no search for a part compares in an order. -/
theorem compareValues_of_ne (left right : Text) {operator : CmpOp} (versioned : Bool) (hin : operator ≠ .isIn)
    (hnot : operator ≠ .notIn) : compareValues left operator right versioned = (do
      if versioned then compareOrdered (← versionTuple left) operator (← versionTuple right)
      else compareOrdered left operator right) ∧
    (Compares left operator right versioned ↔
      if versioned then operator.OrdersReleases left right else operator.Orders left right) := by
  cases operator with
  | isIn => exact absurd rfl hin
  | notIn => exact absurd rfl hnot
  | _ => exact ⟨rfl, Iff.rfl⟩

theorem compareValues_eq_ok {left right : Text} {operator : CmpOp} {versioned result : Bool}
    (h : compareValues left operator right versioned = .ok result)
    (hslips : versioned = true → ¬(VersionComparison.mk left operator right).Slips) :
    result = true ↔ Compares left operator right versioned := by
  by_cases hin : operator = .isIn
  · subst hin
    rw [← Except.ok.inj h, decide_eq_true_eq]
    rfl
  by_cases hnot : operator = .notIn
  · subst hnot
    rw [← Except.ok.inj h, decide_eq_true_eq]
    rfl
  obtain ⟨hvalues, hcompares⟩ := compareValues_of_ne left right versioned hin hnot
  rw [hvalues] at h
  rw [hcompares]
  cases versioned with
  | false =>
      change compareOrdered left operator right = .ok result at h
      change _ ↔ operator.Orders left right
      rw [← compareOrdered_eq_true, h, Except.ok.injEq]
  | true =>
      obtain ⟨a, ha, h⟩ := Imp.except_bind_eq_ok.mp h
      obtain ⟨b, hb, h⟩ := Imp.except_bind_eq_ok.mp h
      have hagrees := VersionComparison.not_slips_iff.mp (hslips rfl) a b ha hb
      rw [if_pos rfl, ordersReleases_iff ha hb, ← hagrees]
      change _ ↔ compareOrdered a operator b = .ok true
      rw [h, Except.ok.injEq]

theorem compareChain_eq_ok {environment : Environment} {comparisons : List (CmpOp × Expr)} :
    ∀ {left : Text × Bool} {before result : Bool},
      compareChain environment left before comparisons = .ok result →
        (∀ c ∈ chainComparisons environment left comparisons, ¬c.Slips) →
          (result = true ↔ before = true ∧ ChainHolds environment left comparisons) := by
  induction comparisons with
  | nil =>
      intro left before result h _
      rw [← Except.ok.inj h]
      exact (and_iff_left trivial).symm
  | cons comparison rest ih =>
      obtain ⟨operator, comparator⟩ := comparison
      intro left before result h hslips
      rw [compareChain] at h
      obtain ⟨right, hright, h⟩ := Imp.except_bind_eq_ok.mp h
      obtain ⟨holds, hholds, h⟩ := Imp.except_bind_eq_ok.mp h
      rw [chainComparisons, hright] at hslips
      obtain ⟨hfirst, hrest⟩ := List.forall_mem_append.mp hslips
      have hchain : ChainHolds environment left ((operator, comparator) :: rest) ↔
          Compares left.1 operator right.1 (left.2 || right.2) ∧ ChainHolds environment right rest := by
        constructor
        · rintro ⟨_, hright', h⟩
          rw [hright] at hright'
          cases hright'
          exact h
        · exact fun h => ⟨right, hright, h⟩
      rw [ih h hrest, hchain, ← and_assoc]
      refine and_congr_left fun _ => ?_
      cases before with
      | false =>
          cases hholds
          exact iff_of_false nofun fun h => nomatch h.1
      | true =>
          rw [and_iff_right rfl]
          refine compareValues_eq_ok hholds fun hversioned => hfirst _ ?_
          rw [if_pos hversioned]
          exact List.mem_singleton_self _

mutual

theorem evaluateMarkerNode_eq_ok {environment : Environment} : ∀ {e : Expr} {result : Bool},
    evaluateMarkerNode environment e = .ok result → (∀ c ∈ versionComparisons environment e, ¬c.Slips) →
      (result = true ↔ MarkerHolds environment e)
  | .boolOp op values, result, h, hslips => by
      rw [evaluateMarkerNode] at h
      obtain ⟨results, hresults, h⟩ := Imp.except_bind_eq_ok.mp h
      obtain ⟨hall, hany⟩ := evaluateMarkerNodes_eq_ok hresults hslips
      rw [← Except.ok.inj h]
      cases op with
      | and => exact hall
      | or => exact hany
  | .unaryNot operand, result, h, hslips => by
      rw [evaluateMarkerNode] at h
      obtain ⟨inner, hinner, h⟩ := Imp.except_bind_eq_ok.mp h
      rw [← Except.ok.inj h, Bool.not_eq_true', ← Bool.not_eq_true, evaluateMarkerNode_eq_ok hinner hslips]
      rfl
  | .compare left comparisons, result, h, hslips => by
      rw [evaluateMarkerNode] at h
      obtain ⟨value, hvalue, h⟩ := Imp.except_bind_eq_ok.mp h
      rw [versionComparisons, hvalue] at hslips
      rw [compareChain_eq_ok h hslips, and_iff_right rfl, MarkerHolds]
      constructor
      · exact fun hchain => ⟨value, hvalue, hchain⟩
      · rintro ⟨_, hvalue', hchain⟩
        rw [hvalue] at hvalue'
        cases hvalue'
        exact hchain
  | .name _, _, h, _ => nomatch h
  | .constant _, _, h, _ => nomatch h
  | .other, _, h, _ => nomatch h

theorem evaluateMarkerNodes_eq_ok {environment : Environment} : ∀ {values : List Expr} {results : List Bool},
    evaluateMarkerNodes environment values = .ok results →
      (∀ c ∈ versionComparisonsOf environment values, ¬c.Slips) →
        (results.all id = true ↔ AllHold environment values) ∧ (results.any id = true ↔ AnyHolds environment values)
  | [], results, h, _ => by
      cases h
      exact ⟨iff_of_true rfl trivial, iff_of_false nofun id⟩
  | e :: rest, results, h, hslips => by
      rw [evaluateMarkerNodes] at h
      obtain ⟨first, hfirst, h⟩ := Imp.except_bind_eq_ok.mp h
      obtain ⟨others, hothers, h⟩ := Imp.except_bind_eq_ok.mp h
      obtain ⟨hslips, hslips'⟩ := List.forall_mem_append.mp hslips
      have hholds := evaluateMarkerNode_eq_ok hfirst hslips
      obtain ⟨hall, hany⟩ := evaluateMarkerNodes_eq_ok hothers hslips'
      rw [← Except.ok.inj h, List.all_cons, List.any_cons, Bool.and_eq_true, Bool.or_eq_true, hall, hany]
      exact ⟨and_congr_left fun _ => hholds, or_congr_left hholds⟩

end

/-! ## Restrictions -/

theorem clausesAllow_eq_ok {target : Text} {a : List ℕ} (ha : versionTuple target = .ok a) {clauses : List Text} :
    ∀ {result : Bool}, clausesAllow a clauses = .ok result →
      (∀ c ∈ clauseComparisons target clauses, ¬c.Slips) → (result = true ↔ ClausesHold target clauses) := by
  induction clauses with
  | nil =>
      intro result h _
      cases h
      exact iff_of_true rfl (List.forall_mem_nil _)
  | cons clause rest ih =>
      intro result h hslips
      rw [clausesAllow] at h
      cases hclause : readClause clause with
      | none =>
          rw [hclause] at h
          cases h
      | some c =>
          obtain ⟨operator, version⟩ := c
          rw [hclause] at h
          obtain ⟨b, hb, h⟩ := Imp.except_bind_eq_ok.mp h
          obtain ⟨holds, hholds, h⟩ := Imp.except_bind_eq_ok.mp h
          rw [clauseComparisons, List.filterMap_cons, hclause] at hslips
          obtain ⟨hfirst, hrest⟩ := List.forall_mem_cons.mp hslips
          have hagrees := VersionComparison.not_slips_iff.mp hfirst a b ha hb
          have hclauseHolds : holds = true ↔ operator.OrdersReleases target version := by
            rw [ordersReleases_iff ha hb, ← hagrees]
            change _ ↔ compareOrdered a operator b = .ok true
            rw [hholds, Except.ok.injEq]
          have hhead : (∃ o v, readClause clause = some (o, v) ∧ CmpOp.OrdersReleases o target v) ↔
              operator.OrdersReleases target version := by
            rw [hclause]
            constructor
            · rintro ⟨_, _, ⟨⟩, h⟩
              exact h
            · exact fun h => ⟨_, _, rfl, h⟩
          rw [ClausesHold, List.forall_mem_cons, hhead, ← hclauseHolds]
          cases holds with
          | false =>
              cases h
              exact iff_of_false nofun fun h => nomatch h.1
          | true => exact (ih h hrest).trans (and_iff_right rfl).symm

/-! ## Single comparisons -/

/-- What is evaluated of a single comparison of two versions. -/
theorem compareValues_iff {left right : Text} {operator : CmpOp} {result : Bool}
    (h : compareValues left operator right true = .ok result) :
    (result = true ↔ Compares left operator right true) ↔ ¬(VersionComparison.mk left operator right).Slips := by
  refine ⟨fun hiff hslips => ?_, fun hslips => compareValues_eq_ok h fun _ => hslips⟩
  obtain ⟨a, b, ha, hb, hslips⟩ := hslips
  have hordered : operator ≠ .isIn ∧ operator ≠ .notIn := by
    obtain ⟨-, h⟩ := hslips
    constructor <;> rintro rfl <;> simp at h
  obtain ⟨hvalues, hcompares⟩ := compareValues_of_ne left right true hordered.1 hordered.2
  have hresult : compareOrdered a operator b = .ok result := by
    rw [← h, hvalues, ha, hb]
    rfl
  rw [hcompares, if_pos rfl, ordersReleases_iff ha hb] at hiff
  refine not_slips_iff.mpr ?_ hslips
  rw [hresult, Except.ok.injEq]
  exact hiff

/-- A marker that is one comparison evaluates to what it means exactly if the comparison is one of releases. -/
theorem evaluateMarkerNode_compare_iff {environment : Environment} {left right : Expr} {operator : CmpOp}
    {result : Bool} (h : evaluateMarkerNode environment (.compare left [(operator, right)]) = .ok result) :
    (result = true ↔ MarkerHolds environment (.compare left [(operator, right)])) ↔
      ∀ c ∈ versionComparisons environment (.compare left [(operator, right)]), ¬c.Slips := by
  refine ⟨fun hiff => ?_, evaluateMarkerNode_eq_ok h⟩
  obtain ⟨value, hvalue, h⟩ := Imp.except_bind_eq_ok.mp h
  rw [compareChain] at h
  obtain ⟨value', hvalue', h⟩ := Imp.except_bind_eq_ok.mp h
  obtain ⟨holds, hholds, h⟩ := Imp.except_bind_eq_ok.mp h
  cases h
  have hlist : chainComparisons environment value [(operator, right)] =
      if value.2 || value'.2 then [⟨value.1, operator, value'.1⟩] else [] := by
    rw [chainComparisons, hvalue']
    exact List.append_nil _
  rw [versionComparisons, hvalue]
  change ∀ c ∈ chainComparisons environment value [(operator, right)], ¬c.Slips
  rw [hlist]
  have hmeaning : MarkerHolds environment (.compare left [(operator, right)]) ↔
      Compares value.1 operator value'.1 (value.2 || value'.2) := by
    constructor
    · rintro ⟨_, hvalue₁, _, hvalue₂, hcompares, -⟩
      rw [hvalue] at hvalue₁
      rw [hvalue'] at hvalue₂
      cases hvalue₁
      cases hvalue₂
      exact hcompares
    · exact fun hcompares => ⟨value, hvalue, value', hvalue', hcompares, trivial⟩
  rw [hmeaning] at hiff
  cases hversioned : value.2 || value'.2 with
  | false => exact List.forall_mem_nil _
  | true =>
      rw [hversioned] at hholds hiff
      exact List.forall_mem_singleton.mpr ((compareValues_iff hholds).mp hiff)

/-! ## Markers and restrictions by PEP 440 -/

namespace Demo

/-- The install target with the first version of Python 3.13. -/
def target : RuntimeTarget := ⟨text "3.13.0", by decide +kernel⟩

/-- What `python_version OPERATOR "VERSION"` is parsed into. -/
def versionMarker (operator : CmpOp) (version : String) : Expr :=
  .compare (.name (text "python_version")) [(operator, .constant (text version))]

end Demo

end StateWeaver.Candidate
