import StateWeaver.Lib.Divergence
import StateWeaver.Replay.Runs

/-!
# Reports on determinism

A plan is replayed several times, and the signatures of the results are compared with the first one. The
report names the first run that differs.
-/

namespace StateWeaver.Replay

open Contracts

inductive DeterminismClassification where
  | deterministic | nondeterministic
  deriving DecidableEq

/-- What a report says. -/
structure ReportContent where
  planId : NonEmpty
  runIds : List NonEmpty
  runStatuses : List ReplayRunStatus
  signatures : List Sha256Digest
  deterministic : Bool
  allRunsSucceeded : Bool
  classification : DeterminismClassification
  divergentRunId : Option NonEmpty

/-- The classification of a flag. -/
def classificationOf (deterministic : Bool) : DeterminismClassification :=
  if deterministic then .deterministic else .nondeterministic

/-- The first run whose signature is not the one of the first run. -/
def ReportContent.firstDivergent (r : ReportContent) : Option NonEmpty :=
  ((r.runIds.zip r.signatures).find? fun (_, signature) => some signature ≠ r.signatures.head?).map Prod.fst

/-- `classification_matches_boolean`, after the bounds on the lengths. -/
def ReportContent.classificationMatchesBoolean (r : ReportContent) : Except String Unit := do
  Imp.require (2 ≤ r.runIds.length ∧ 2 ≤ r.runStatuses.length ∧ 2 ≤ r.signatures.length)
    "Tuple should have at least 2 items after validation"
  Imp.require (r.runIds.length = r.runStatuses.length ∧ r.runIds.length = r.signatures.length)
    "determinism report run vectors must have equal lengths"
  Imp.require r.runIds.Nodup "determinism report run IDs must be unique"
  Imp.require (r.allRunsSucceeded = r.runStatuses.all (· = .succeeded))
    "all_runs_succeeded does not match run statuses"
  Imp.require (r.deterministic = (r.signatures.isEmpty || r.signatures.toFinset.card = 1))
    "deterministic flag does not match replay signatures"
  Imp.require (r.classification = classificationOf r.deterministic)
    "determinism classification is inconsistent"
  Imp.require (r.deterministic = r.divergentRunId.isNone)
    "divergent_run_id must identify a nondeterministic run"
  Imp.require (r.deterministic = false → r.divergentRunId = r.firstDivergent)
    "divergent_run_id does not identify the first divergent signature"

structure DeterminismReport extends ReportContent where
  valid : toReportContent.classificationMatchesBoolean = .ok ()

/-- `DeterminismReport(..)`. -/
def DeterminismReport.create (content : ReportContent) : Except String DeterminismReport :=
  match h : content.classificationMatchesBoolean with
  | .error e => .error e
  | .ok () => .ok ⟨content, h⟩

section Reports

variable [Sha256]

/-- What is reported of results, in the order of the runs. -/
def reportOf (planId : NonEmpty) (runIds : List NonEmpty) (runs : List ReplayRunResult)
    (signatures : List Sha256Digest) : ReportContent :=
  let divergentIndex := signatures.findIdx? fun signature => some signature ≠ signatures.head?
  { planId := planId
    runIds := runIds
    runStatuses := runs.map fun run => run.status
    signatures := signatures
    deterministic := divergentIndex.isNone
    allRunsSucceeded := runs.all fun run => run.status = .succeeded
    classification := classificationOf divergentIndex.isNone
    divergentRunId := divergentIndex.bind fun index => runIds[index]? }

/-- `verify_determinism`, of what the adapters do in each run. -/
def ReplayKernel.verifyDeterminism (kernel : ReplayKernel) (plan : ReplayPlan) (root : RootSeed)
    (runs : List (String × Adapters)) : Except String DeterminismReport := do
  Imp.require (2 ≤ runs.length) "determinism verification requires at least two runs"
  Imp.require (runs.map Prod.fst).Nodup "run_ids must be unique"
  let results ← runs.mapM fun (runId, adapters) => (kernel.replay runId plan root adapters).2
  let signatures ← results.mapM ReplayRunResult.deterministicSignature
  let runIds ← (runs.map Prod.fst).mapM nonEmpty
  DeterminismReport.create (reportOf plan.planId runIds results signatures)

/-! ## Signatures -/

omit [Sha256] in
theorem mapM_of_forall₂ {α β ε : Type} {f : α → Except ε β} {l : List α} {l' : List β}
    (h : List.Forall₂ (fun a b => f a = .ok b) l l') : l.mapM f = .ok l' := by
  induction h with
  | nil => rfl
  | cons hfirst _ ih =>
      rw [List.mapM_cons, hfirst, ih]
      rfl

theorem signatures_eq (results : List ReplayRunResult) :
    results.mapM ReplayRunResult.deterministicSignature = .ok (results.map ReplayRunResult.traceHash) :=
  mapM_of_forall₂ (List.forall₂_map_right_iff.mpr (List.forall₂_same.mpr fun r _ =>
    r.deterministicSignature_eq))

/-! ## Reports -/

/-- The report on results passes its validation. -/
theorem reportOf_valid {planId : NonEmpty} {runIds : List NonEmpty} {results : List ReplayRunResult}
    (hlength : runIds.length = results.length) (htwo : 2 ≤ results.length) (hunique : runIds.Nodup) :
    (reportOf planId runIds results (results.map ReplayRunResult.traceHash)).classificationMatchesBoolean =
      .ok () := by
  have hsignatures : runIds.length = (results.map ReplayRunResult.traceHash).length := by
    rw [List.length_map, hlength]
  have hfirst := List.find?_zip (q := fun signature => some signature ≠
    (results.map ReplayRunResult.traceHash).head?) runIds _ hsignatures
  rw [ReportContent.classificationMatchesBoolean]
  simp only [Imp.check_bind_eq_ok, Imp.require_eq_ok]
  refine ⟨⟨?_, ?_, ?_⟩, ⟨?_, ?_⟩, hunique, ?_, ?_, rfl, ?_, ?_⟩
  · change 2 ≤ runIds.length
    rwa [hlength]
  · change 2 ≤ (results.map _).length
    rwa [List.length_map]
  · change 2 ≤ (results.map _).length
    rwa [List.length_map]
  · change runIds.length = (results.map _).length
    rw [List.length_map, hlength]
  · exact hsignatures
  · change results.all _ = (results.map _).all _
    rw [List.all_map]
    rfl
  · rw [Bool.eq_iff_iff, Bool.or_eq_true, decide_eq_true_eq, ← List.findIdx?_ne_head_eq_none]
    exact Option.isNone_iff_eq_none
  · rw [Bool.eq_iff_iff]
    change (Option.isNone _ = true ↔ Option.isNone _ = true)
    rw [Option.isNone_iff_eq_none, Option.isNone_iff_eq_none]
    change (results.map ReplayRunResult.traceHash).findIdx? _ = none ↔
      ((results.map ReplayRunResult.traceHash).findIdx? _).bind _ = none
    cases hindex : (results.map ReplayRunResult.traceHash).findIdx? fun signature =>
        some signature ≠ (results.map ReplayRunResult.traceHash).head? with
    | none => exact iff_of_true rfl rfl
    | some index =>
        refine iff_of_false (Option.some_ne_none _) fun hnone => ?_
        have hlt := (List.findIdx?_eq_some_iff_findIdx_eq.mp hindex).1
        rw [← hsignatures] at hlt
        rw [Option.bind_some, List.getElem?_eq_getElem hlt] at hnone
        cases hnone
  · exact fun _ => hfirst.symm

omit [Sha256] in
theorem DeterminismReport.create_eq_ok {content : ReportContent}
    (h : content.classificationMatchesBoolean = .ok ()) :
    DeterminismReport.create content = .ok ⟨content, h⟩ := by
  rw [create]
  split
  · next e he =>
      rw [h] at he
      cases he
  · rfl

/-- All runs are alike if no signature differs from the first. -/
theorem deterministic_reportOf {planId : NonEmpty} {runIds : List NonEmpty} {results : List ReplayRunResult}
    (hne : results ≠ []) :
    (reportOf planId runIds results (results.map ReplayRunResult.traceHash)).deterministic = true ↔
      ∀ a ∈ results, ∀ b ∈ results, a.traceHash = b.traceHash := by
  change Option.isNone _ = true ↔ _
  rw [Option.isNone_iff_eq_none, List.findIdx?_ne_head_eq_none, List.toFinset_card_eq_one, List.isEmpty_iff,
    List.map_eq_nil_iff, or_iff_right hne, List.forall_mem_map]
  refine and_iff_right_of_imp ?_ |>.trans ?_
  · exact fun _ hnil => hne (List.map_eq_nil_iff.mp hnil)
  · exact forall₂_congr fun a _ => List.forall_mem_map

/-- The divergent run is the first whose signature differs from that of the first run. -/
theorem divergentRunId_reportOf {planId : NonEmpty} {results : List ReplayRunResult} {id : NonEmpty} :
    (reportOf planId (results.map ReplayRunResult.runId) results
      (results.map ReplayRunResult.traceHash)).divergentRunId = some id ↔
      ∃ before r after, results = before ++ r :: after ∧ r.runId = id ∧
        ∀ first ∈ results.head?, first.traceHash ≠ r.traceHash ∧
          ∀ r' ∈ before, first.traceHash = r'.traceHash := by
  change ((results.map ReplayRunResult.traceHash).findIdx? fun signature =>
    some signature ≠ (results.map ReplayRunResult.traceHash).head?).bind
      (fun index => (results.map ReplayRunResult.runId)[index]?) = some id ↔ _
  rw [List.findIdx?_map_bind, Option.map_eq_some_iff]
  simp only [List.find?_eq_some_iff_append, List.head?_map, decide_eq_true_eq, Bool.not_eq_true',
    decide_eq_false_iff_not, not_not]
  cases results with
  | nil => exact iff_of_false (by simp) (by simp)
  | cons first rest =>
      simp only [List.head?_cons, Option.map_some, Option.some_inj, Option.mem_def, forall_eq']
      constructor
      · rintro ⟨r, ⟨hdiffers, before, after, hsplit, hsame⟩, hid⟩
        exact ⟨before, r, after, hsplit, hid, fun heq => hdiffers (congrArg some heq.symm), fun r' hr' => (hsame r' hr').symm⟩
      · rintro ⟨before, r, after, hsplit, hid, hdiffers, hsame⟩
        exact ⟨r, ⟨fun heq => hdiffers (Option.some.inj heq).symm, before, after, hsplit, fun r' hr' => (hsame r' hr').symm⟩, hid⟩

end Reports

/-! ## Reports on a plan of one step -/

namespace Demo

/-- Two runs in which the adapters do the same. -/
def runs : List (String × Adapters) := [("first", answering), ("second", answering)]

end Demo

end StateWeaver.Replay
